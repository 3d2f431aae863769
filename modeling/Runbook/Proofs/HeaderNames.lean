import Runbook.Action.Api
import Runbook.Proofs.Credentials
import Runbook.Proofs.Executions
import Runbook.Proofs.Joining
import Runbook.Proofs.Weights
import Mathlib.Data.List.Nodup

/-!
# Names of request headers

Case makes no difference to the name of a header, but headers are kept under their names as they are
spelled. When the type of the body is added, names are compared without regard to case, so that it
never stands beside a header of the same name. When credentials are added, names are compared as
they are spelled: they replace the header of exactly this name, or leave it alone, and they do stand
beside one that is spelled in another way. That is the only way in which a name comes to be there
twice.

* `Headers.Distinct hs`: no two of the headers have the same name, case aside.
* `Api.handedHeaders params vars body`: the headers with which a request is made up.
* `Api.credentialName? auth vars hs`: the name of the header in which credentials are set.
* `Api.requestsIn_of_ends`: the request that an execution sends, if it sends one.
* `Api.headers_distinct_iff`: when the names of the headers of a request are distinct.
-/

namespace Runbook

/-! ### Names that are distinct -/

namespace Headers

/-- The names of headers, case aside. -/
def foldedNames (hs : Headers) : List String := hs.map fun h => Text.lower h.1

/-- No two headers have the same name, case aside. -/
def Distinct (hs : Headers) : Prop := hs.foldedNames.Nodup

instance (hs : Headers) : Decidable hs.Distinct :=
  inferInstanceAs (Decidable hs.foldedNames.Nodup)

/-- A header has this name, but spelled in another way. -/
def Respelled (hs : Headers) (name : String) : Prop :=
  ∃ h ∈ hs, h.1 ≠ name ∧ Text.lower h.1 = Text.lower name

instance (hs : Headers) (name : String) : Decidable (hs.Respelled name) :=
  inferInstanceAs (Decidable (∃ h ∈ hs, h.1 ≠ name ∧ Text.lower h.1 = Text.lower name))

variable {hs : Headers} {name value : String}

/-- A header that is set stands in the place of the one of exactly this name, or at the end. -/
theorem foldedNames_set (hs : Headers) (name value : String) :
    (hs.set name value).foldedNames =
      if hs.has name then hs.foldedNames else hs.foldedNames ++ [Text.lower name] := by
  unfold foldedNames
  induction hs with
  | nil => rfl
  | cons h hs ih =>
    rw [set, has, List.any_cons]
    by_cases hname : h.1 = name
    · simp [hname]
    · rw [if_neg (by simpa using hname), List.map_cons, ih, beq_false_of_ne hname, Bool.false_or,
        has]
      split <;> rfl

theorem has_iff : hs.has name = true ↔ ∃ h ∈ hs, h.1 = name := by
  simp [has]

/-- Two of the headers that have the same name, case aside, are one. -/
theorem Distinct.eq (hd : hs.Distinct) {h h' : String × String} (hh : h ∈ hs) (hh' : h' ∈ hs)
    (heq : Text.lower h.1 = Text.lower h'.1) : h = h' :=
  List.inj_on_of_nodup_map hd hh hh' heq

/-- When a header is set, names stay distinct unless it is there in another spelling. -/
theorem distinct_set_iff (hd : hs.Distinct) :
    (hs.set name value).Distinct ↔ ¬ hs.Respelled name := by
  rw [Distinct, foldedNames_set]
  split
  · rename_i hhas
    obtain ⟨h, hh, rfl⟩ := has_iff.mp hhas
    refine iff_of_true hd ?_
    rintro ⟨h', hh', hspelled, hlower⟩
    exact hspelled (congrArg Prod.fst (hd.eq hh' hh hlower))
  · rename_i hnot
    have hnew : Text.lower name ∉ hs.foldedNames ↔ ¬ hs.Respelled name := by
      rw [not_iff_not, foldedNames, List.mem_map]
      constructor
      · rintro ⟨h, hh, hlower⟩
        exact ⟨h, hh, fun hname => hnot (has_iff.mpr ⟨h, hh, hname⟩), hlower⟩
      · rintro ⟨h, hh, -, hlower⟩
        exact ⟨h, hh, hlower⟩
    rw [← hnew, ← List.concat_eq_append, List.nodup_concat]
    exact and_iff_left hd

end Headers

/-! ### Headers of a request -/

namespace Api

/-- The headers that an API action gives, with the type of the body. -/
def typedHeaders (params : Fields) (body : Option (List UInt8)) : Headers :=
  addContentType body (headersOf params)

/-- The headers with which a request is made up. -/
def handedHeaders (params vars : Fields) (body : Option (List UInt8)) : Headers :=
  addCredentials (authOf params) vars (typedHeaders params body)

/-- The name of the header in which credentials are set, if any are. -/
def credentialName? (auth : Option Auth) (vars : Fields) (hs : Headers) : Option String :=
  match auth with
  | some auth =>
    if auth.type ≠ "api_key" then some "Authorization"
    else some (if auth.header.isEmpty then "X-API-Key" else auth.header)
  | none =>
    if (captured? vars "access_token").isSome && !hs.has "Authorization" then some "Authorization"
    else if (captured? vars "api_key").isSome && !hs.has "X-API-Key" then some "X-API-Key"
    else none

/-- Credentials are set in one header, or in none. -/
theorem addCredentials_eq (auth : Option Auth) (vars : Fields) (hs : Headers) :
    ∃ value, addCredentials auth vars hs =
      (credentialName? auth vars hs).elim hs fun name => hs.set name value := by
  unfold addCredentials credentialName?
  cases auth with
  | some auth =>
    -- All types but one put them in the same header.
    dsimp only
    split
    · rename_i htype
      exact ⟨_, by rw [if_pos (by rw [htype]; decide)]; rfl⟩
    · rename_i htype
      exact ⟨_, by rw [if_pos (by rw [htype]; decide)]; rfl⟩
    · rename_i htype
      exact ⟨_, by rw [if_neg (not_not_intro htype)]; rfl⟩
    · rename_i htype
      exact ⟨_, by rw [if_pos htype]; rfl⟩
  | none =>
    have hkey (key : String) : ∃ value, addCredentials.addKey hs key =
        (if !hs.has "X-API-Key" then some "X-API-Key" else none).elim hs
          fun name => hs.set name value := by
      refine ⟨key, ?_⟩
      unfold addCredentials.addKey
      cases hs.has "X-API-Key" <;> rfl
    cases htoken : captured? vars "access_token" with
    | none =>
      cases captured? vars "api_key" with
      | none => exact ⟨"", rfl⟩
      | some key => simpa using hkey key
    | some token =>
      cases hs.has "Authorization" with
      | false => exact ⟨_, rfl⟩
      | true =>
        cases captured? vars "api_key" with
        | none => exact ⟨"", rfl⟩
        | some key => simpa using hkey key

/-- The type of the body never stands beside a header of the same name. -/
theorem distinct_addContentType {hs : Headers} (hd : hs.Distinct) (body : Option (List UInt8)) :
    (addContentType body hs).Distinct := by
  have hlower : Text.lower "Content-Type" = "content-type" := by decide +kernel
  unfold addContentType
  split
  · rename_i hadd
    rw [Headers.distinct_set_iff hd]
    rintro ⟨h, hh, -, hname⟩
    have hfolded : hs.hasFolded "content-type" = true :=
      List.any_eq_true.mpr ⟨h, hh, beq_iff_eq.mpr (hname.trans hlower)⟩
    simp [hfolded] at hadd
  · exact hd

end Api

/-! ### Requests that are sent -/

/-- The request that a deed sends. -/
def Deed.request? : Deed → Option Api.Request
  | .call (.request q) _ => some q
  | _ => none

/-- The requests that are sent in a trace, in order. -/
def requestsIn (t : List Deed) : List Api.Request := t.filterMap Deed.request?

theorem requestsIn_append (t t' : List Deed) :
    requestsIn (t ++ t') = requestsIn t ++ requestsIn t' :=
  List.filterMap_append

/-- These requests are sent, however it ends. -/
def Sends (qs : List Api.Request) : Law := fun t _ => requestsIn t = qs

theorem sends_nil_sequential : (Sends []).Sequential where
  nil := rfl
  append {t t' o} h h' := by
    change requestsIn (t ++ t') = []
    rw [requestsIn_append, show requestsIn t = [] from h, show requestsIn t' = [] from h']
    rfl

namespace Work

variable {α β : Type} {qs : List Api.Request}

/-- What is done after the requests have been sent sends none. -/
theorem sends_bind {m : Work α} {g : α → Work β} (hm : m.Obeys (Sends qs))
    (hg : ∀ a, (g a).Obeys (Sends [])) : (m >>= g).Obeys (Sends qs) := by
  intro f s t r f' s' h
  rcases ends_bind_iff.mp h with ⟨t₁, a, f₁, s₁, t₂, rfl, h₁, h₂⟩ | ⟨e, h₁, rfl⟩
  · change requestsIn (t₁ ++ t₂) = qs
    rw [requestsIn_append, show requestsIn t₁ = qs from hm _ _ _ _ _ _ h₁,
      show requestsIn t₂ = [] from hg a _ _ _ _ _ _ h₂, List.append_nil]
  · exact hm _ _ _ _ _ _ h₁

/-- A call that sends no request, and then what sends them. -/
theorem sends_ask_bind {c : Call} (hc : ∀ r, (Deed.call c r).request? = none)
    {g : c.Reply → Work β} (hg : ∀ r, (g r).Obeys (Sends qs)) :
    (lift (Act.ask c) >>= g).Obeys (Sends qs) := by
  intro f s t r f' s' h
  obtain ⟨a, t', rfl, h'⟩ := ends_ask_bind_iff.mp h
  change requestsIn (.call c a :: t') = qs
  rw [requestsIn, List.filterMap_cons, hc]
  exact hg a _ _ _ _ _ _ h'

theorem eq_nil_of_ends_refused {e : Failure} {g : α → Work β} {f f' : Fields} {s s' : LoopState}
    {t : List Deed} {r : Except Failure β}
    (h : (lift (Act.ofExcept (.error e)) >>= g).Ends f s t r f' s') : t = [] := by
  cases h
  rfl

end Work

namespace Api

variable {frame : Frame}

theorem sends_note (name : String) (value : Json) : (note name value).Obeys (Sends []) :=
  Work.obeys_report sends_nil_sequential _

theorem sends_setRuntime (name : String) (value : Json) (scope : Scope) :
    (Act.setRuntime name value scope).Obeys (Sends []) := by
  cases scope with
  | global => exact Act.obeys_ask fun _ => rfl
  | «local» => exact Act.obeys_modify sends_nil_sequential _

theorem sends_runHooks (data : Json) (hooks : List Json) :
    (runHooks data hooks).Obeys (Sends []) := by
  have hL := sends_nil_sequential
  induction hooks with
  | nil => exact Work.obeys_pure hL _
  | cons hook rest ih =>
    unfold runHooks
    dsimp only
    split
    · exact .bind hL (Work.obeys_lift (Act.obeys_ask fun _ => rfl)) fun _ => ih
    · exact .bind hL (Work.obeys_lift (sends_setRuntime _ _ _)) fun _ =>
        .bind hL (Work.obeys_report hL _) fun _ => ih

theorem sends_afterwards (url : String) (response : Response) (hooks : List Json) :
    (afterwards frame url response hooks).Obeys (Sends []) := by
  refine Work.obeys_ite (Work.obeys_pure sends_nil_sequential _) ?_
  split
  · exact sends_runHooks _ hooks
  · exact Work.obeys_lift (Act.obeys_ask fun _ => rfl)

theorem sends_answer {type method : String} (url sentTo : String) (response : Response)
    (hooks : List Json) :
    (answer type method frame url sentTo response hooks).Obeys (Sends []) := by
  have hL := sends_nil_sequential
  have hgood : Work.Obeys (Sends []) (do
      afterwards frame sentTo response hooks
      return s!"Successfully executed {method} request to {url} (HTTP {response.status})") :=
    .bind hL (sends_afterwards _ _ _) fun _ => Work.obeys_pure hL _
  exact .bind hL (sends_note _ _) fun _ => .bind hL (sends_note _ _) fun _ =>
    Work.obeys_ite (.bind hL (sends_note _ _) fun _ =>
      .bind hL (Work.obeys_throw rfl) fun _ => hgood) hgood

/-- A request is sent once, if it could be made up. -/
theorem sends_send {type : String} (request : Except Fault Request) :
    (send type frame request).Obeys (Sends request.toOption.toList) := by
  have hL := sends_nil_sequential
  have hnow {g : Rat → Work Response} {qs : List Request} (hg : ∀ time, (g time).Obeys (Sends qs)) :
      (Work.lift (Act.ask .now) >>= g).Obeys (Sends qs) :=
    Work.sends_ask_bind (fun _ => rfl) hg
  have hask (q : Request) :
      (received q.url <$> Act.ask (.request q) : Act _).Obeys (Sends [q]) := by
    intro s t r s' h
    rw [map_eq_pure_bind] at h
    obtain ⟨reply, t', rfl, h'⟩ := Act.ends_ask_bind_iff.mp h
    obtain ⟨rfl, -⟩ := Act.ends_pure_iff.mp h'
    rfl
  refine hnow fun started => ?_
  cases request
  case' error f => refine Work.sends_bind (Work.obeys_pure hL _) ?_
  case' ok q => refine Work.sends_bind (Work.obeys_lift (hask q)) ?_
  -- Whatever the reply, nothing more is sent.
  all_goals
    rintro ((text | f) | response)
    · exact .bind hL (sends_note _ _) fun _ => hnow fun _ =>
        .bind hL (sends_note _ _) fun _ => Work.obeys_throw rfl
    · exact hnow fun _ => .bind hL (sends_note _ _) fun _ => Work.obeys_throw rfl
    · exact hnow fun _ => .bind hL (sends_note _ _) fun _ => Work.obeys_pure hL _

/-- The request of an API action with these parameters, if it can be made up. -/
def requestFor? (method : String) (vars params : Fields) : Option Request := do
  let body ← (encodeBody (Browser.param params "body")).toOption
  (requestOf method (Fields.textAt params "url") (handedHeaders params vars body) body
    ((Fields.int? params "timeout").getD defaultTimeoutMs)).toOption

theorem requestsIn_of_behave {type method : String} (ctx : LoopContext) (nested : Dispatcher)
    {params f f' : Fields} {s s' : LoopState} {t : List Deed} {r : Except Failure String}
    (h : (behave type method ctx nested frame params).Ends f s t r f' s') :
    requestsIn t = (requestFor? method s.runtimeVars params).toList := by
  unfold behave at h
  cases hbody : encodeBody (Browser.param params "body") with
  | error e =>
    rw [hbody] at h
    obtain rfl := Work.eq_nil_of_ends_refused h
    rw [requestFor?, hbody]
    rfl
  | ok body =>
    rw [hbody, Work.ofExcept_mapError_ok_bind, Work.ends_getThe_bind_iff,
      Work.ends_report_bind_iff] at h
    rw [requestFor?, hbody]
    exact Work.sends_bind (sends_send _) (fun response => sends_answer _ _ response _)
      _ _ _ _ _ _ h

theorem headers_of_requestOf {method url : String} {hs : Headers} {body : Option (List UInt8)}
    {timeoutMs : Int} {q : Request} (h : requestOf method url hs body timeoutMs = .ok q) :
    q.headers = addAddressCredentials q.url hs := by
  obtain ⟨timeout, -, h⟩ := Json.exists_of_bind_eq_ok h
  obtain ⟨target, -, h⟩ := Json.exists_of_bind_eq_ok h
  split at h
  · cases h
  · cases h
    rfl

theorem headers_of_requestFor? {method : String} {vars params : Fields}
    {body : Option (List UInt8)} {q : Request}
    (hbody : encodeBody (Browser.param params "body") = .ok body)
    (h : requestFor? method vars params = some q) :
    q.headers = addAddressCredentials q.url (handedHeaders params vars body) := by
  rw [requestFor?, hbody] at h
  change (requestOf _ _ (handedHeaders params vars body) body _).toOption = some q at h
  cases hrequest : requestOf _ _ (handedHeaders params vars body) body _ with
  | error f =>
    rw [hrequest] at h
    cases h
  | ok q' =>
    rw [hrequest] at h
    cases h
    exact headers_of_requestOf hrequest

/-- The headers that are given are the ones that have been checked. -/
theorem headersOf_of_validate {type method : String} {config : Json} {params : Fields}
    (h : (kind type method).validate config = .ok params) :
    headersOf params = headersOf config.fields := by
  obtain ⟨x, checked, hx, hchecked, rfl⟩ := checked_of_validate h
  obtain ⟨value, hget, hvalue⟩ := Kind.get?_of_check_model [_] (by decide)
    (Kind.check_dictionary_ne_error_nil _) hchecked
  rw [← hx, headersOf, headersOf, Fields.objectAt, hget, Fields.objectAt]
  cases hgiven : Fields.get? x.fields "headers" with
  | none =>
    rw [hgiven] at hvalue
    obtain rfl : value = .object [] := hvalue
    rfl
  | some given =>
    rw [hgiven] at hvalue
    change Kind.check _ (.dictionary (.text 0)) given = .ok value at hvalue
    cases given with
    | object fs => rw [Kind.eq_of_check_texts hvalue]
    | _ =>
      unfold Kind.check at hvalue
      cases hvalue

section Executions

variable {type method : String} {config : Json} {s : LoopState}

/-- An execution sends the request that is made up from its configuration, if there is one. -/
theorem requestsIn_of_ends {ctx : LoopContext} {nested : Dispatcher} {frame : Frame}
    {s' : LoopState} {t : List Deed} {r : Except Failure Unit}
    (h : ((kind type method).execute ctx nested frame config).Ends s t r s') :
    requestsIn t = (((kind type method).validate config).toOption.bind
      (requestFor? method s.runtimeVars)).toList := by
  rcases ActionKind.ends_execute h with ⟨e, hvalid, -, rfl, -⟩ |
    ⟨params, started, t₁, result, report, s₁, t₂, hvalid, rfl, -, -, hbehave, hend⟩
  · rw [hvalid]
    rfl
  · have hsent : requestsIn t₁ = (requestFor? method s.runtimeVars params).toList :=
      requestsIn_of_behave ctx nested hbehave
    have hnone : requestsIn t₂ = [] := by
      rcases hend with ⟨rfl, -⟩ | ⟨ended, now, e, taken, rfl, -⟩ <;> rfl
    change requestsIn (t₁ ++ t₂) = _
    rw [requestsIn_append, hsent, hnone, List.append_nil, hvalid]
    rfl

/-- **Names of the headers of a request.** When the headers that a configuration gives have distinct
names, case aside, so have they together with the type of the body. With the credentials they do
exactly unless these are set in a header that is there in another spelling. Every request that an
execution sends is made up with these headers. -/
theorem headers_distinct_iff {params : Fields} {body : Option (List UInt8)}
    (hvalid : (kind type method).validate config = .ok params)
    (hbody : encodeBody (Browser.param params "body") = .ok body)
    (hgiven : (headersOf config.fields).Distinct) :
    (typedHeaders params body).Distinct ∧
    ((handedHeaders params s.runtimeVars body).Distinct ↔
      ∀ name, credentialName? (authOf params) s.runtimeVars (typedHeaders params body) =
        some name → ¬ (typedHeaders params body).Respelled name) ∧
    ∀ {ctx nested frame t r s'},
      ((kind type method).execute ctx nested frame config).Ends s t r s' → ∀ q ∈ requestsIn t,
        q.headers = addAddressCredentials q.url (handedHeaders params s.runtimeVars body) := by
  have htyped : (typedHeaders params body).Distinct :=
    distinct_addContentType (headersOf_of_validate hvalid ▸ hgiven) body
  refine ⟨htyped, ?_, fun h q hq => ?_⟩
  · obtain ⟨value, hadded⟩ := addCredentials_eq (authOf params) s.runtimeVars
      (typedHeaders params body)
    rw [handedHeaders, hadded]
    cases credentialName? (authOf params) s.runtimeVars (typedHeaders params body) with
    | none => exact iff_of_true htyped nofun
    | some name =>
      rw [Option.elim_some, Headers.distinct_set_iff htyped]
      simp
  · rw [requestsIn_of_ends h, hvalid, Option.mem_toList] at hq
    exact headers_of_requestFor? hbody hq

end Executions

/-- The configuration of a request with one header. -/
def withHeader (name value : String) : Json :=
  .object [("url", .text "https://api.test/me"), ("headers", .object [(name, .text value)])]

/-- The parameters that come of it. -/
def paramsWithHeader (name value : String) : Fields :=
  [("url", .text "https://api.test/me"), ("headers", .object [(name, .text value)]),
    ("body", .null), ("timeout", .int 30000), ("auth", .null), ("after_hooks", .list [])]

/-- Variables among which a token has been captured. -/
def havingToken : LoopState := { runtimeVars := [("access_token", .text "from-login")] }

/-- An execution that sends this request. -/
theorem exists_request {name value : String} {q : Request}
    (hvalid : (kind "api:get" "GET").validate (withHeader name value) =
      .ok (paramsWithHeader name value))
    (hq : requestFor? "GET" havingToken.runtimeVars (paramsWithHeader name value) = some q) :
    ∃ ctx nested frame t r s', ((kind "api:get" "GET").execute ctx nested frame
      (withHeader name value)).Ends havingToken t r s' ∧ q ∈ requestsIn t := by
  obtain ⟨t, ⟨r, s'⟩, hends⟩ := Program.exists_ends (((kind "api:get" "GET").execute
    Catalogue.sampleContext (fun _ _ => pure ()) {} (withHeader name value)).run.run havingToken)
  refine ⟨Catalogue.sampleContext, fun _ _ => pure (), {}, t, r, s', hends, ?_⟩
  rw [requestsIn_of_ends hends, hvalid]
  exact Option.mem_toList.mpr hq

/-- A captured token is set beside a header of another name. -/
theorem distinct_beside_accept : (headersOf (withHeader "accept" "text/plain").fields).Distinct ∧
    (kind "api:get" "GET").validate (withHeader "accept" "text/plain") =
      .ok (paramsWithHeader "accept" "text/plain") ∧
    encodeBody (Browser.param (paramsWithHeader "accept" "text/plain") "body") = .ok none ∧
    (typedHeaders (paramsWithHeader "accept" "text/plain") none).Distinct ∧
    (handedHeaders (paramsWithHeader "accept" "text/plain") havingToken.runtimeVars none).Distinct ∧
    ∃ ctx nested frame t r s' q,
      ((kind "api:get" "GET").execute ctx nested frame (withHeader "accept" "text/plain")).Ends
        havingToken t r s' ∧
      q ∈ requestsIn t ∧
      q.headers = [("accept", "text/plain"), ("Authorization", "Bearer from-login")] ∧
      q.headers = addAddressCredentials q.url
        (handedHeaders (paramsWithHeader "accept" "text/plain") havingToken.runtimeVars none) := by
  have hgiven : (headersOf (withHeader "accept" "text/plain").fields).Distinct := by
    decide +kernel
  have hvalid : (kind "api:get" "GET").validate (withHeader "accept" "text/plain") =
      .ok (paramsWithHeader "accept" "text/plain") := rfl
  have hmade : (requestFor? "GET" havingToken.runtimeVars
      (paramsWithHeader "accept" "text/plain")).map Request.headers =
        some [("accept", "text/plain"), ("Authorization", "Bearer from-login")] := by
    decide +kernel
  obtain ⟨q, hq, hheaders⟩ := Option.map_eq_some_iff.mp hmade
  obtain ⟨ctx, nested, frame, t, r, s', hends, hmem⟩ := exists_request hvalid hq
  obtain ⟨htyped, hiff, hsent⟩ := headers_distinct_iff (s := havingToken) hvalid rfl hgiven
  refine ⟨hgiven, hvalid, rfl, htyped, hiff.mpr fun name hname => ?_, ctx, nested, frame, t, r, s',
    q, hends, hmem, hheaders, hsent hends q hmem⟩
  have hauthorization : credentialName? (authOf (paramsWithHeader "accept" "text/plain"))
      havingToken.runtimeVars (typedHeaders (paramsWithHeader "accept" "text/plain") none) =
        some "Authorization" := by
    decide +kernel
  obtain rfl := Option.some.inj (hauthorization.symm.trans hname)
  decide +kernel

/-- A captured token is set beside the credentials that a configuration gives, when it spells the
name of their header in lower case. -/
theorem respelled_not_distinct : ¬ ∀ (config : Json) (s s' : LoopState) (ctx : LoopContext)
    (nested : Dispatcher) (frame : Frame) (t : List Deed) (r : Except Failure Unit) (q : Request),
    (headersOf config.fields).Distinct →
    ((kind "api:get" "GET").execute ctx nested frame config).Ends s t r s' → q ∈ requestsIn t →
    q.headers.Distinct := by
  intro hall
  have hgiven : (headersOf (withHeader "authorization" "Basic abc").fields).Distinct := by
    decide +kernel
  have hmade : (requestFor? "GET" havingToken.runtimeVars
      (paramsWithHeader "authorization" "Basic abc")).map Request.headers =
        some [("authorization", "Basic abc"), ("Authorization", "Bearer from-login")] := by
    decide +kernel
  obtain ⟨q, hq, hheaders⟩ := Option.map_eq_some_iff.mp hmade
  obtain ⟨ctx, nested, frame, t, r, s', hends, hmem⟩ := exists_request rfl hq
  have hdistinct := hall _ _ _ _ _ _ _ _ _ hgiven hends hmem
  rw [hheaders] at hdistinct
  revert hdistinct
  decide +kernel

end Api

end Runbook
