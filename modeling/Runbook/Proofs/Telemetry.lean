import Runbook.Proofs.Credentials
import Runbook.Proofs.Joining
import Runbook.Proofs.Veils
import Runbook.Rehearsal.Sample

/-!
# Telemetry without credentials

The event of an API action tells of the request, but not of the credentials in it. Take two
executions that differ in nothing but credentials. They send requests that differ in headers only,
or for the same reason none; and when they are answered alike they tell the same. It does not matter
what comes of the response: whether it is an error, whether the transport has failed, and what the
hooks keep of it.

* `Api.veiled_send`, `Api.veiled_behave`, `Api.veiled_execute`: what such executions do.
* `Api.telemetry_tells_no_credentials`: what they tell.
-/

namespace Runbook.Api

/-! ### The work of an action -/

/-- Two requests differ in headers only, or cannot be made up for the same reason, when their
headers can be sent or not for the same reason. -/
theorem requestOf_likewise (method url : String) {hs hs' : Headers} (body : Option (List UInt8))
    (timeoutMs : Int) (h : Headers.unencodable? hs = Headers.unencodable? hs') :
    Likewise Request.Veiled (requestOf method url hs body timeoutMs)
      (requestOf method url hs' body timeoutMs) := by
  unfold requestOf
  rw [← h]
  cases timeoutSeconds timeoutMs with
  | error f => exact .error f
  | ok timeout =>
    cases Url.target url with
    | error f => exact .error f
    | ok target =>
      dsimp only [bind, Except.bind]
      split
      · exact .error _
      · exact .ok ⟨rfl, rfl, rfl, rfl⟩

/-- Requests that differ in headers only have the same address. -/
theorem map_url_eq {request request' : Except Fault Request}
    (h : Likewise Request.Veiled request request') :
    (request.map fun r => r.url.text) = request'.map fun r => r.url.text := by
  cases h with
  | error f => rfl
  | ok hq => exact congrArg (fun url : Url => Except.ok url.text) hq.url

section Work

variable {R : LoopState → LoopState → Prop} {frame : Frame}

theorem veiled_note (name : String) (value : Json) :
    (note name value).Veiled R (note name value) :=
  Work.veiled_report _

/-- Two requests that differ in headers only, or that cannot be made up for the same reason, are
sent alike. -/
theorem veiled_send {type : String} {request request' : Except Fault Request}
    (h : Likewise Request.Veiled request request') :
    (send type frame request).Veiled R (send type frame request') := by
  have hnow {g g' : Rat → Work Response} (hg : ∀ time, (g time).Veiled R (g' time)) :
      (Work.lift (Act.ask .now) >>= g).Veiled R (Work.lift (Act.ask .now) >>= g') :=
    .bind (Work.veiled_lift (Act.veiled_ask _)) hg
  have hask {q q' : Request} (hq : q.Veiled q') : (received q.url <$> Act.ask (.request q) :
      Act _).Veiled R (received q'.url <$> Act.ask (.request q')) := by
    rw [map_eq_pure_bind, map_eq_pure_bind, ← hq.url]
    exact .bind (Act.veiled_request hq) fun reply => Act.veiled_pure _
  refine hnow fun started => ?_
  cases h
  case' error f => refine .bind (Work.veiled_pure _) ?_
  case' ok q q' hq => refine .bind (Work.veiled_lift (hask hq)) ?_
  -- Whether requests were sent or not, both go on with the same reply.
  all_goals
    rintro ((text | f) | response)
    · exact .bind (veiled_note _ _) fun _ => hnow fun _ =>
        .bind (veiled_note _ _) fun _ => Work.veiled_throw _
    · exact hnow fun _ => .bind (veiled_note _ _) fun _ => Work.veiled_throw _
    · exact hnow fun _ => .bind (veiled_note _ _) fun _ => Work.veiled_pure _

end Work

/-- What is kept in a runtime variable is the same afterwards. -/
theorem veiled_setRuntime (name : String) (value : Json) (scope : Scope) :
    (Act.setRuntime name value scope).Veiled LoopState.CredentialsAside
      (Act.setRuntime name value scope) := by
  cases scope with
  | global => exact Act.veiled_ask _
  | «local» =>
    refine Act.veiled_modify fun s s' h => ⟨h.localLoopIndex, fun {other} htoken hkey => ?_⟩
    dsimp only
    rw [Fields.get?_set, Fields.get?_set, h.runtimeVars htoken hkey]

theorem veiled_runHooks (data : Json) (hooks : List Json) :
    (runHooks data hooks).Veiled LoopState.CredentialsAside (runHooks data hooks) := by
  induction hooks with
  | nil => exact Work.veiled_pure _
  | cons hook rest ih =>
    unfold runHooks
    dsimp only
    split
    · exact .bind (Work.veiled_lift (Act.veiled_ask _)) fun _ => ih
    · exact .bind (Work.veiled_lift (veiled_setRuntime _ _ _)) fun _ =>
        .bind (Work.veiled_report _) fun _ => ih

theorem veiled_afterwards {frame : Frame} (url : String) (response : Response)
    (hooks : List Json) : (afterwards frame url response hooks).Veiled LoopState.CredentialsAside
      (afterwards frame url response hooks) := by
  refine Work.veiled_ite (Work.veiled_pure _) ?_
  split
  · exact veiled_runHooks _ hooks
  · exact Work.veiled_lift (Act.veiled_ask _)

/-! ### Executions -/

/-- What is done with a response. -/
theorem veiled_answer {type method : String} {frame : Frame} (url sentTo : String)
    (response : Response) (hooks : List Json) :
    (answer type method frame url sentTo response hooks).Veiled LoopState.CredentialsAside
      (answer type method frame url sentTo response hooks) := by
  have hafterwards : (afterwards frame sentTo response hooks).Veiled LoopState.CredentialsAside
      (afterwards frame sentTo response hooks) :=
    veiled_afterwards sentTo response hooks
  have hgood := Work.Veiled.bind hafterwards fun _ =>
    Work.veiled_pure s!"Successfully executed {method} request to {url} (HTTP {response.status})"
  exact .bind (veiled_note _ _) fun _ => .bind (veiled_note _ _) fun _ =>
    Work.veiled_ite (.bind (veiled_note _ _) fun _ =>
      .bind (Work.veiled_throw _) fun _ => hgood) hgood

section Executions

variable {type method : String} {ctx : LoopContext} {nested nested' : Dispatcher} {frame : Frame}
  {s s' : LoopState}

/-- Two API actions whose parameters and whose variables differ in credentials only go on alike. -/
theorem veiled_behave {extra : Option String} {params params' : Fields}
    (hparams : Fieldwise (FieldAlike extra) params params')
    (hextra : ∀ header, extra = some header → (authOf params).map Auth.header = some header)
    (hs : s.CredentialsAside s') (hascii : s.AsciiCredentials) (hascii' : s'.AsciiCredentials)
    (f : Fields) :
    Work.VeiledFrom LoopState.CredentialsAside f s s' (behave type method ctx nested frame params)
      (behave type method ctx nested' frame params') := by
  have hget {name : String} (hheaders : name ≠ "headers") (hauth : name ≠ "auth") :
      Fields.get? params name = Fields.get? params' name :=
    hparams.get?_eq fun _ _ hxy => hxy.eq hheaders hauth
  have hurl : Fields.textAt params "url" = Fields.textAt params' "url" := by
    rw [Fields.textAt, Fields.textAt, hget (by decide) (by decide)]
  have hbody : Browser.param params "body" = Browser.param params' "body" := by
    rw [Browser.param, Browser.param, hget (by decide) (by decide)]
  have htimeout : Fields.int? params "timeout" = Fields.int? params' "timeout" := by
    rw [Fields.int?, Fields.int?, hget (by decide) (by decide)]
  have hhooks : Fields.listAt params "after_hooks" = Fields.listAt params' "after_hooks" := by
    rw [Fields.listAt, Fields.listAt, hget (by decide) (by decide)]
  have hauth := authOf_alike hparams
  have hheader : (authOf params).map Auth.header = (authOf params').map Auth.header := by
    rcases hauth with ⟨hnone, hnone'⟩ | ⟨a, a', ha, ha', halike⟩
    · rw [hnone, hnone']
    · rw [ha, ha', Option.map_some, Option.map_some, halike.header]
  unfold behave
  rw [hurl, hbody, htimeout, hhooks]
  refine Work.veiledFrom_ofExcept_bind hs fun body => Work.veiledFrom_getThe_bind ?_
  -- Before credentials are added, the headers differ in those only that are masked.
  have hheaders := addContentType_alike (headersOf_alike hparams) body
  have hmasked : Headers.redact ((authOf params).map Auth.header)
      (addContentType body (headersOf params)) = Headers.redact ((authOf params').map Auth.header)
        (addContentType body (headersOf params')) := by
    rw [← hheader]
    refine (hheaders.mono fun name hname => ?_).redact_eq
    cases hnamed : extra with
    | none => exact Headers.isSensitive_of_none (hnamed ▸ hname)
    | some header => rwa [hextra header hnamed, ← hnamed]
  have hrequest := requestOf_likewise method (Fields.textAt params' "url") body
    ((Fields.int? params' "timeout").getD defaultTimeoutMs)
    (unencodable?_addCredentials hauth hascii hascii' hheaders)
  dsimp only
  rw [hmasked, map_url_eq hrequest]
  refine Work.Veiled.from ?_ hs
  exact .bind (Work.veiled_report _) fun _ => .bind (veiled_send hrequest) fun response =>
    veiled_answer _ _ response _

theorem veiled_conclude {kind : ActionKind} {started : Rat} {report : Fields} {type : EventType}
    {content : RunEvent → RunEvent} :
    (kind.conclude ctx frame started report type content).Veiled LoopState.CredentialsAside
      (kind.conclude ctx frame started report type content) :=
  .bind (Act.veiled_ask _) fun _ => Act.veiled_emit fun _ _ h => h.localLoopIndex

variable (type method ctx nested nested' frame) in
/-- Two executions of an API action that differ in credentials only go on alike. -/
theorem veiled_execute {config config' : Fields} (hconfig : CredentialsAside config config')
    (hs : s.CredentialsAside s') (hascii : s.AsciiCredentials) (hascii' : s'.AsciiCredentials) :
    Act.VeiledFrom LoopState.CredentialsAside s s'
      ((kind type method).execute ctx nested frame (.object config))
      ((kind type method).execute ctx nested' frame (.object config')) := by
  have hvalid := validate_likewise type method hconfig
  unfold ActionKind.execute
  generalize hparams : (kind type method).validate (.object config) = a at hvalid
  generalize (kind type method).validate (.object config') = b at hvalid
  cases hvalid with
  | error e => exact .done ⟨rfl, hs⟩
  | @ok params params' hlike =>
    have hbehave : Work.VeiledFrom LoopState.CredentialsAside (kind type method).firstReport s s'
        (behave type method ctx nested frame params)
        (behave type method ctx nested' frame params') :=
      veiled_behave hlike (fun _ => header_of_validate hparams) hs hascii hascii' _
    refine Program.Veiled.call fun started => Work.veiledFrom_run_bind hbehave ?_
    rintro ⟨(error | fault | _) | message, report⟩
    · exact .bind veiled_conclude fun _ => Act.veiled_fail _
    · exact .bind veiled_conclude fun _ => Act.veiled_fail _
    · exact Act.veiled_fail _
    · exact veiled_conclude

/-- **Credentials and what is told of them.** Take two executions of an API action that differ in
credentials only, those that are captured in ASCII. If they are answered alike, in particular with
the same response or the same error of the transport, they come to the same outcome and emit the
same events. They do the same but for the headers of their requests, and leave variables that differ
in credentials only. -/
theorem telemetry_tells_no_credentials {config config' : Fields}
    (hconfig : CredentialsAside config config') (hs : s.CredentialsAside s')
    (hascii : s.AsciiCredentials) (hascii' : s'.AsciiCredentials) {t t' : List Deed}
    {r r' : Except Failure Unit} {s₁ s₁' : LoopState}
    (h : ((kind type method).execute ctx nested frame (.object config)).Ends s t r s₁)
    (h' : ((kind type method).execute ctx nested' frame (.object config')).Ends s' t' r' s₁')
    (halike : AnsweredAlike t t') :
    r = r' ∧ emittedIn t = emittedIn t' ∧ List.Forall₂ Deed.Veiled t t' ∧
      s₁.CredentialsAside s₁' := by
  have hveiled := veiled_execute type method ctx nested nested' frame hconfig hs hascii hascii'
  obtain ⟨⟨hr, hs₁⟩, hdeeds⟩ := hveiled.of_ends h h' halike
  exact ⟨hr, emittedIn_of_veiled hdeeds, hdeeds, hs₁⟩

end Executions

/-- The configuration of a request with a token and a cookie. -/
def withToken (token cookie : String) : Fields :=
  [("url", .text "https://api.test/me"), ("headers", .object [("cookie", .text cookie)]),
    ("auth", .object [("type", .text "bearer"), ("token", .text token)])]

/-- Variables among which a token has been captured. -/
def havingCaptured (token : String) : LoopState :=
  { runtimeVars := [("access_token", .text token)] }

theorem havingCaptured_ascii {token : String} (h : Ascii token) :
    (havingCaptured token).AsciiCredentials := by
  intro name hname value hvalue
  rw [List.mem_cons, List.mem_singleton] at hname
  rcases hname with rfl | rfl
  · obtain ⟨x, hx, rfl⟩ := Option.map_eq_some_iff.mp hvalue
    cases (Option.filter_eq_some_iff.mp hx).1
    exact h
  · cases hvalue

/-- Two executions with other tokens and other cookies. -/
theorem tokens_not_told :
    CredentialsAside (withToken "alpha" "a=1") (withToken "beta" "b=2") ∧
    (havingCaptured "one").CredentialsAside (havingCaptured "two") ∧
    (havingCaptured "one").AsciiCredentials ∧ (havingCaptured "two").AsciiCredentials ∧
    ∃ t t' r r' s₁ s₁' ctx frame,
      ((kind "api:get" "GET").execute ctx (fun _ _ => pure ()) frame
        (.object (withToken "alpha" "a=1"))).Ends (havingCaptured "one") t r s₁ ∧
      ((kind "api:get" "GET").execute ctx (fun _ _ => pure ()) frame
        (.object (withToken "beta" "b=2"))).Ends (havingCaptured "two") t' r' s₁' ∧
      AnsweredAlike t t' ∧ r = r' ∧ emittedIn t = emittedIn t' ∧
      List.Forall₂ Deed.Veiled t t' ∧ s₁.CredentialsAside s₁' := by
  have hconfig : CredentialsAside (withToken "alpha" "a=1") (withToken "beta" "b=2") := by
    refine .cons ⟨rfl, .same _⟩ (.cons ⟨rfl, .headers rfl (.object ?_)⟩
      (.cons ⟨rfl, .auth rfl (.object ?_)⟩ .nil))
    · exact .cons ⟨rfl, .credential (by decide +kernel) (by decide) (by decide)⟩ .nil
    · exact .cons ⟨rfl, .same _⟩ (.cons ⟨rfl, .token rfl (by decide) (by decide)⟩ .nil)
  have hs : (havingCaptured "one").CredentialsAside (havingCaptured "two") := by
    refine ⟨rfl, fun {name} htoken _ => ?_⟩
    simp [havingCaptured, Fields.get?, Ne.symm htoken]
  have hascii : (havingCaptured "one").AsciiCredentials := havingCaptured_ascii (by decide)
  have hascii' : (havingCaptured "two").AsciiCredentials := havingCaptured_ascii (by decide)
  let ctx : LoopContext := { runId := "r", data := Rehearsal.sampleData }
  obtain ⟨t, ⟨r, s₁⟩, hends⟩ := Program.exists_ends (((kind "api:get" "GET").execute ctx
    (fun _ _ => pure ()) {} (.object (withToken "alpha" "a=1"))).run.run (havingCaptured "one"))
  have hveiled := veiled_execute "api:get" "GET" ctx (fun _ _ => pure ()) (fun _ _ => pure ()) {}
    hconfig hs hascii hascii'
  obtain ⟨t', ⟨r', s₁'⟩, hends', hdeeds⟩ := hveiled.exists_ends hends
  have halike := answeredAlike_of_veiled hdeeds
  exact ⟨hconfig, hs, hascii, hascii', t, t', r, r', s₁, s₁', ctx, {}, hends, hends', halike,
    telemetry_tells_no_credentials hconfig hs hascii hascii' hends hends' halike⟩

end Runbook.Api
