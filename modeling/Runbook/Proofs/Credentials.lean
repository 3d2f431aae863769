import Runbook.Action.Api
import Runbook.Proofs.Counterparts
import Mathlib.Data.List.TakeWhile

/-!
# Credentials

What becomes of credentials in a configuration, in the variables and in the headers of a request,
followed in two of each that differ in credentials only: in the token, the user name and the
password of the authentication, in the values of headers that carry credentials, and in the runtime
variables from which credentials are taken.

The check of a configuration makes no difference between texts. The headers are reported before
credentials are added to them, and where they carry some, a mask is. Only one thing is looked at
after that: whether all headers can be written in ASCII, and if not, which one is the first that
cannot. So that it makes no difference there either, the credentials must be in ASCII.

* `Headers.Alike P hs hs'`: headers of the same names, with other values only where `P` allows it.
* `Api.Auth.Alike auth auth'`: two ways to prove who sends a request, credentials aside the same.
* `Api.CredentialsAside config config'`: two configurations that differ in credentials only.
* `LoopState.CredentialsAside s s'`: the same for the variables of a loop index.
* `Api.validate_likewise`: the check of such configurations.
* `Api.unencodable?_addCredentials`: the headers that are sent, and whether they can be.
-/

namespace Runbook

/-- A text in ASCII. -/
def Ascii (s : String) : Prop := ∀ c ∈ s.toList, Api.beyondAscii c = false

instance (s : String) : Decidable (Ascii s) :=
  List.decidableBAll (fun c => Api.beyondAscii c = false) s.toList

theorem Ascii.append {s t : String} (hs : Ascii s) (ht : Ascii t) : Ascii (s ++ t) := by
  rw [Ascii, String.toList_append, List.forall_mem_append]
  exact ⟨hs, ht⟩

theorem beyondAscii_digit (n : Nat) : Api.beyondAscii (Base64.digit n) = false := by
  rcases Nat.lt_or_ge n 64 with h | h
  · revert n
    decide
  · have hdigit : Base64.digit n = '/' := by
      unfold Base64.digit
      rw [if_neg (by omega), if_neg (by omega), if_neg (by omega), if_neg (by omega)]
    rw [hdigit]
    decide

/-- Base64 is ASCII. -/
theorem ascii_inBase64 (s : String) : Ascii (Api.inBase64 s) := by
  have hpad : Api.beyondAscii '=' = false := by decide
  rw [Ascii, Api.inBase64, String.toList_ofList]
  generalize Text.utf8 s = bytes
  induction bytes using Base64.encode.induct with
  | case1 => exact List.forall_mem_nil _
  | case2 a => simp [Base64.encode, beyondAscii_digit, hpad]
  | case3 a b => simp [Base64.encode, beyondAscii_digit, hpad]
  | case4 a b c rest ih =>
    simp only [Base64.encode, List.forall_mem_cons]
    exact ⟨beyondAscii_digit _, beyondAscii_digit _, beyondAscii_digit _, beyondAscii_digit _, ih⟩

/-! ### Headers -/

namespace Headers

/-- Headers of the same names, in the same order, with other values only where `P` allows it, and
then in ASCII. -/
def Alike (P : String → Prop) (hs hs' : Headers) : Prop :=
  List.Forall₂ (fun h h' => h.1 = h'.1 ∧ (h.2 = h'.2 ∨ P h.1 ∧ Ascii h.2 ∧ Ascii h'.2)) hs hs'

variable {P : String → Prop} {hs hs' : Headers}

/-- Nothing is seen of the difference where credentials are masked. -/
theorem Alike.redact_eq {extra : Option String}
    (h : Alike (fun name => isSensitive extra name = true) hs hs') :
    redact extra hs = redact extra hs' := by
  induction h with
  | nil => rfl
  | @cons h h' hs hs' hh _ ih =>
    obtain ⟨hname, hvalue⟩ := hh
    have hmasked : (if isSensitive extra h.1 then redacted else h.2) =
        if isSensitive extra h'.1 then redacted else h'.2 := by
      rw [← hname]
      rcases hvalue with hvalue | ⟨hsensitive, -⟩
      · rw [hvalue]
      · rw [if_pos hsensitive, if_pos hsensitive]
    rw [redact, redact, List.map_cons, List.map_cons, hmasked, hname]
    exact congrArg _ ih

theorem Alike.hasFolded_eq (h : Alike P hs hs') (lowName : String) :
    hs.hasFolded lowName = hs'.hasFolded lowName := by
  induction h with
  | nil => rfl
  | @cons h h' hs hs' hh _ ih =>
    rw [hasFolded, hasFolded, List.any_cons, List.any_cons, hh.1]
    exact congrArg _ ih

/-- The same header is set in both. -/
theorem Alike.set (h : Alike P hs hs') {name value value' : String}
    (hvalue : value = value' ∨ P name ∧ Ascii value ∧ Ascii value') :
    Alike P (hs.set name value) (hs'.set name value') := by
  induction h with
  | nil => exact .cons ⟨rfl, hvalue⟩ .nil
  | @cons h h' hs hs' hh hrest ih =>
    rw [Headers.set, Headers.set, ← hh.1]
    split
    · exact .cons ⟨rfl, hvalue⟩ hrest
    · exact .cons hh ih

theorem Alike.mono {Q : String → Prop} (h : Alike P hs hs') (hPQ : ∀ name, P name → Q name) :
    Alike Q hs hs' := by
  refine h.imp ?_
  rintro h h' ⟨hname, hvalue⟩
  exact ⟨hname, hvalue.imp_right fun ⟨hP, hascii⟩ => ⟨hPQ _ hP, hascii⟩⟩

/-- A header that carries a credential anyhow is masked whatever other header is named. -/
theorem isSensitive_of_none {extra : Option String} {name : String}
    (h : isSensitive none name = true) : isSensitive extra name = true := by
  unfold isSensitive at h ⊢
  dsimp only at h ⊢
  rw [Option.any_none, Bool.or_false] at h
  rw [h, Bool.true_or]

end Headers

namespace Api

theorem unencodable?_of_ascii {s : String} (h : Ascii s) : unencodable? s = none := by
  have hfront : (s.toList.takeWhile fun c => !beyondAscii c) = s.toList :=
    List.takeWhile_eq_self_iff.mpr fun c hc => by rw [h c hc]; rfl
  unfold unencodable?
  dsimp only
  rw [hfront, List.drop_length]
  rfl

/-- It makes no difference to whether headers can be sent what is in those that are in ASCII. -/
theorem unencodable?_alike {P : String → Prop} {hs hs' : Headers} (h : Headers.Alike P hs hs') :
    Headers.unencodable? hs = Headers.unencodable? hs' := by
  induction h with
  | nil => rfl
  | @cons h h' hs hs' hh _ ih =>
    obtain ⟨hname, hvalue⟩ := hh
    have hfault : unencodable? h.2 = unencodable? h'.2 := by
      rcases hvalue with hvalue | ⟨-, hascii, hascii'⟩
      · rw [hvalue]
      · rw [unencodable?_of_ascii hascii, unencodable?_of_ascii hascii']
    rw [Headers.unencodable?, Headers.unencodable?, List.findSome?_cons, List.findSome?_cons, hname,
      hfault]
    split
    · rfl
    · exact ih

/-- A new header in ASCII makes no difference either. -/
theorem unencodable?_set {hs : Headers} {name value : String} (hnew : hs.has name = false)
    (hname : Ascii name) (hvalue : Ascii value) :
    Headers.unencodable? (hs.set name value) = Headers.unencodable? hs := by
  induction hs with
  | nil =>
    rw [Headers.set, Headers.unencodable?, List.findSome?_cons, unencodable?_of_ascii hname,
      unencodable?_of_ascii hvalue]
    rfl
  | cons h hs ih =>
    rw [Headers.has, List.any_cons, Bool.or_eq_false_iff] at hnew
    rw [Headers.set, hnew.1, if_neg Bool.false_ne_true, Headers.unencodable?, Headers.unencodable?,
      List.findSome?_cons, List.findSome?_cons]
    split
    · rfl
    · exact ih hnew.2

/-- The type of the body is stated in both or in neither. -/
theorem addContentType_alike {P : String → Prop} {hs hs' : Headers} (h : Headers.Alike P hs hs')
    (body : Option (List UInt8)) :
    Headers.Alike P (addContentType body hs) (addContentType body hs') := by
  unfold addContentType
  rw [h.hasFolded_eq]
  split
  · exact h.set (.inl rfl)
  · exact h

/-! ### Credentials -/

/-- Two ways to prove who sends a request that differ in the token, in the user name and in the
password only. The tokens are the same or both in ASCII. -/
structure Auth.Alike (auth auth' : Auth) : Prop where
  type : auth.type = auth'.type
  token : auth.token = auth'.token ∨ Ascii auth.token ∧ Ascii auth'.token
  username : auth.username.isSome = auth'.username.isSome
  header : auth.header = auth'.header

/-- What follows a word in ASCII is the same, or all of it is in ASCII. -/
theorem same_or_ascii_append {s t u : String} (hs : Ascii s) (h : t = u ∨ Ascii t ∧ Ascii u) :
    s ++ t = s ++ u ∨ Ascii (s ++ t) ∧ Ascii (s ++ u) :=
  h.imp (congrArg _) fun ⟨ht, hu⟩ => ⟨hs.append ht, hs.append hu⟩

theorem Auth.Alike.basicCredentials {auth auth' : Auth} (h : auth.Alike auth') :
    basicCredentials auth = basicCredentials auth' ∨
      Ascii (basicCredentials auth) ∧ Ascii (basicCredentials auth') := by
  have husername := h.username
  unfold Api.basicCredentials
  cases hu : auth.username with
  | none =>
    rw [hu, Option.isSome_none, eq_comm, Option.isSome_eq_false_iff, Option.isNone_iff_eq_none]
      at husername
    rw [husername]
    exact h.token
  | some user =>
    rw [hu, Option.isSome_some, eq_comm, Option.isSome_iff_exists] at husername
    obtain ⟨user', hu'⟩ := husername
    rw [hu']
    exact .inr ⟨ascii_inBase64 _, ascii_inBase64 _⟩

/-- The credentials that were asked for are added in the same places. -/
theorem Auth.Alike.addCredentials {auth auth' : Auth} {P : String → Prop} {hs hs' : Headers}
    (h : auth.Alike auth') (hhs : Headers.Alike P hs hs') (vars vars' : Fields) :
    Headers.Alike (fun _ => True) (addCredentials (some auth) vars hs)
      (addCredentials (some auth') vars' hs') := by
  have hset {name value value' : String} (hvalue : value = value' ∨ Ascii value ∧ Ascii value') :
      Headers.Alike (fun _ => True) (hs.set name value) (hs'.set name value') :=
    (hhs.mono fun _ _ => trivial).set (hvalue.imp_right fun h => ⟨trivial, h⟩)
  unfold Api.addCredentials
  dsimp only
  rw [← h.type, ← h.header]
  split
  · exact hset (same_or_ascii_append (by decide) h.token)
  · exact hset (same_or_ascii_append (by decide) h.basicCredentials)
  · exact hset h.token
  · exact hset h.token

end Api

/-- What is captured in the runtime variables as credentials is in ASCII. -/
def LoopState.AsciiCredentials (s : LoopState) : Prop :=
  ∀ name ∈ ["access_token", "api_key"], ∀ value,
    Api.captured? s.runtimeVars name = some value → Ascii value

/-- Two states of the variables of a loop index that differ in nothing but the runtime variables
from which credentials are taken. -/
structure LoopState.CredentialsAside (s s' : LoopState) : Prop where
  localLoopIndex : s.localLoopIndex = s'.localLoopIndex
  runtimeVars {name : String} (htoken : name ≠ "access_token") (hkey : name ≠ "api_key") :
    Fields.get? s.runtimeVars name = Fields.get? s'.runtimeVars name

namespace Api

/-- Captured credentials make no difference to whether headers can be sent. -/
theorem unencodable?_addCredentials_none {s : LoopState} (hs : s.AsciiCredentials)
    (headers : Headers) : Headers.unencodable? (addCredentials none s.runtimeVars headers) =
      Headers.unencodable? headers := by
  have hkey (key : String) (h : captured? s.runtimeVars "api_key" = some key) :
      Headers.unencodable? (addCredentials.addKey headers key) = Headers.unencodable? headers := by
    unfold addCredentials.addKey
    split
    · rfl
    · rename_i hnew
      exact unencodable?_set (Bool.eq_false_iff.mpr hnew) (by decide) (hs _ (by simp) key h)
  unfold addCredentials
  dsimp only
  split
  · rename_i token htoken
    split
    · rename_i hnew
      have hbearer : Ascii ("Bearer " ++ token) := .append (by decide) (hs _ (by simp) token htoken)
      exact unencodable?_set ((Bool.not_eq_true' _).mp hnew) (by decide) hbearer
    · cases hcaptured : captured? s.runtimeVars "api_key" with
      | none => rfl
      | some key => exact hkey key hcaptured
  · rename_i key _ hcaptured
    exact hkey key hcaptured
  · rfl

/-- Whether headers can be sent with credentials, and why not, is no matter of the credentials. -/
theorem unencodable?_addCredentials {P : String → Prop} {auth auth' : Option Auth}
    {s s' : LoopState} {hs hs' : Headers}
    (hauth : auth = none ∧ auth' = none ∨ ∃ a a', auth = some a ∧ auth' = some a' ∧ a.Alike a')
    (hascii : s.AsciiCredentials) (hascii' : s'.AsciiCredentials) (hhs : Headers.Alike P hs hs') :
    Headers.unencodable? (addCredentials auth s.runtimeVars hs) =
      Headers.unencodable? (addCredentials auth' s'.runtimeVars hs') := by
  rcases hauth with ⟨rfl, rfl⟩ | ⟨a, a', rfl, rfl, ha⟩
  · rw [unencodable?_addCredentials_none hascii, unencodable?_addCredentials_none hascii',
      unencodable?_alike hhs]
  · exact unencodable?_alike (ha.addCredentials hhs _ _)

/-! ### Configurations -/

/-- Two values of a header of a configuration: the same, or two texts in ASCII if the header carries
a credential. -/
inductive HeaderAlike (extra : Option String) (name : String) : Json → Json → Prop
  | same (x : Json) : HeaderAlike extra name x x
  | credential {a b : String} (hname : Headers.isSensitive extra name = true) (ha : Ascii a)
      (hb : Ascii b) : HeaderAlike extra name (.text a) (.text b)

/-- Two values of a field of the authentication: the same, or two tokens in ASCII, or two names or
passwords of users. -/
inductive AuthAlike (name : String) : Json → Json → Prop
  | same (x : Json) : AuthAlike name x x
  | token {a b : String} (hname : name = "token") (ha : Ascii a) (hb : Ascii b) :
      AuthAlike name (.text a) (.text b)
  | user {a b : String} (hname : name = "username" ∨ name = "password") :
      AuthAlike name (.text a) (.text b)

/-- Two values of a field of a configuration: the same, or headers or an authentication with other
credentials. -/
inductive FieldAlike (extra : Option String) (name : String) : Json → Json → Prop
  | same (x : Json) : FieldAlike extra name x x
  | headers {x y : Json} (hname : name = "headers") (h : Objectwise (HeaderAlike extra) x y) :
      FieldAlike extra name x y
  | auth {x y : Json} (hname : name = "auth") (h : Objectwise AuthAlike x y) :
      FieldAlike extra name x y

/-- The header that a configuration names for its token. -/
def authHeader? (config : Fields) : Option String :=
  (Fields.get? config "auth").bind fun auth => Fields.text? auth.fields "header"

/-- Two configurations that differ in nothing but credentials: in the token, the user name and the
password of the authentication, and in the values of headers that carry credentials. -/
def CredentialsAside (config config' : Fields) : Prop :=
  Fieldwise (FieldAlike (authHeader? config)) config config'

section Check

variable {write : Json → String} {extra : Option String}

theorem AuthAlike.eq {name : String} {x y : Json} (h : AuthAlike name x y)
    (htoken : name ≠ "token") (husername : name ≠ "username") (hpassword : name ≠ "password") :
    x = y := by
  cases h with
  | same => rfl
  | token hname => exact absurd hname htoken
  | user hname => exact (hname.elim husername hpassword).elim

theorem FieldAlike.eq {name : String} {x y : Json} (h : FieldAlike extra name x y)
    (hheaders : name ≠ "headers") (hauth : name ≠ "auth") : x = y := by
  cases h with
  | same => rfl
  | headers hname => exact absurd hname hheaders
  | auth hname => exact absurd hname hauth

theorem FieldAlike.of_headers {name : String} {x y : Json} (h : FieldAlike extra name x y)
    (hname : name = "headers") : Objectwise (HeaderAlike extra) x y := by
  cases h with
  | same => exact .same x
  | headers _ h => exact h
  | auth hother => exact absurd (hname.symm.trans hother) (by decide)

theorem FieldAlike.of_auth {name : String} {x y : Json} (h : FieldAlike extra name x y)
    (hname : name = "auth") : Objectwise AuthAlike x y := by
  cases h with
  | same => exact .same x
  | headers hother => exact absurd (hname.symm.trans hother) (by decide)
  | auth _ h => exact h

/-- The check of an authentication makes no difference between credentials. -/
theorem check_authModel_likewise {x y : Json} (h : Objectwise AuthAlike x y) :
    Likewise (Objectwise AuthAlike) (authModel.check write x) (authModel.check write y) := by
  have hequal {name : String} (kind : Kind) (htoken : name ≠ "token")
      (husername : name ≠ "username") (hpassword : name ≠ "password") :
      Kind.Indifferent write AuthAlike name kind :=
    Kind.indifferent_of_eq (fun _ => .same) kind fun _ _ hxy => hxy.eq htoken husername hpassword
  have htext {name : String} : Kind.Indifferent write AuthAlike name (.text 0) := by
    intro x y hxy
    have hxy' := hxy
    cases hxy' with
    | same => exact likewise_refl .same _
    | token => exact Kind.check_anyText write _ ▸ Kind.check_anyText write _ ▸ .ok hxy
    | user => exact Kind.check_anyText write _ ▸ Kind.check_anyText write _ ▸ .ok hxy
  have hoptional {name : String} :
      Kind.Indifferent write AuthAlike name (.optional (.text 0)) := by
    intro x y hxy
    have hinner := htext x y hxy
    simp only [Kind.check]
    cases hxy with
    | same => exact likewise_refl .same _
    | token => exact hinner
    | user => exact hinner
  refine Kind.check_model_likewise (fun _ => .same) ?_ h
  simp only [List.forall_mem_cons]
  exact ⟨⟨"type", _, _, rfl, hequal _ (by decide) (by decide) (by decide)⟩,
    ⟨"token", _, _, rfl, htext⟩, ⟨"username", _, _, rfl, hoptional⟩,
    ⟨"password", _, _, rfl, hoptional⟩,
    ⟨"header", _, _, rfl, hequal _ (by decide) (by decide) (by decide)⟩, List.forall_mem_nil _⟩

/-- The check of a configuration makes no difference between credentials. -/
theorem check_schema_likewise {x y : Json} (h : Objectwise (FieldAlike extra) x y) :
    Likewise (Objectwise (FieldAlike extra)) (schema.check write x) (schema.check write y) := by
  have hequal {name : String} (kind : Kind) (hheaders : name ≠ "headers") (hauth : name ≠ "auth") :
      Kind.Indifferent write (FieldAlike extra) name kind :=
    Kind.indifferent_of_eq (fun _ => .same) kind fun _ _ hxy => hxy.eq hheaders hauth
  have hheaders : Kind.Indifferent write (FieldAlike extra) "headers" (.dictionary (.text 0)) := by
    intro x y hxy
    refine (Kind.check_texts_likewise ?_ (hxy.of_headers rfl)).mono fun _ _ => .headers rfl
    rintro name x y (_ | _)
    · exact .inl rfl
    · exact .inr ⟨_, _, rfl, rfl⟩
  have hauth : Kind.Indifferent write (FieldAlike extra) "auth" (.optional authModel) := by
    intro x y hxy
    simp only [Kind.check]
    have hinner : Likewise (FieldAlike extra "auth") (authModel.check write x)
        (authModel.check write y) :=
      (check_authModel_likewise (hxy.of_auth rfl)).mono fun _ _ => .auth rfl
    rcases hxy.of_auth rfl with _ | _
    · exact likewise_refl .same _
    · exact hinner
  refine Kind.check_model_likewise (fun _ => .same) ?_ h
  simp only [List.forall_mem_cons]
  exact ⟨⟨"url", _, _, rfl, hequal _ (by decide) (by decide)⟩, ⟨"headers", _, _, rfl, hheaders⟩,
    ⟨"body", _, _, rfl, hequal _ (by decide) (by decide)⟩,
    ⟨"timeout", _, _, rfl, hequal _ (by decide) (by decide)⟩, ⟨"auth", _, _, rfl, hauth⟩,
    ⟨"after_hooks", _, _, rfl, hequal _ (by decide) (by decide)⟩, List.forall_mem_nil _⟩

/-- What the check of a configuration gives. -/
theorem validate_eq (type method : String) (config : Fields) :
    (kind type method).validate (.object config) =
      match schema.check (Json.write .spaced) (.object config) with
      | .error (p :: _) => .error (.error (ActionKind.configError type p))
      | .error [] => .ok []
      | .ok x => .ok x.fields := by
  have hraw : (if (Json.object config).truthy then Json.object config else .object []) =
      .object config := by
    cases config <;> rfl
  unfold ActionKind.validate
  rw [hraw]
  rfl

/-- A configuration is refused in the same words whatever its credentials are, or else it is
accepted. -/
theorem validate_likewise (type method : String) {config config' : Fields}
    (h : Fieldwise (FieldAlike extra) config config') :
    Likewise (Fieldwise (FieldAlike extra)) ((kind type method).validate (.object config))
      ((kind type method).validate (.object config')) := by
  have hchecked : Likewise (Objectwise (FieldAlike extra))
      (schema.check (Json.write .spaced) (.object config))
      (schema.check (Json.write .spaced) (.object config')) :=
    check_schema_likewise (.object h)
  rw [validate_eq, validate_eq]
  generalize schema.check (Json.write .spaced) (.object config) = a at hchecked
  generalize schema.check (Json.write .spaced) (.object config') = b at hchecked
  cases hchecked with
  | error ps =>
    cases ps with
    | nil => exact .ok .nil
    | cons p ps => exact .error _
  | ok hxy =>
    cases hxy with
    | same x => exact .ok (Fieldwise.refl (fun _ => .same) _)
    | object h => exact .ok h

end Check

/-- Where a configuration is accepted, its fields have been checked. -/
theorem checked_of_validate {type method : String} {config : Json} {params : Fields}
    (h : (kind type method).validate config = .ok params) :
    ∃ x checked, x.fields = config.fields ∧
      schema.check (Json.write .spaced) x = .ok checked ∧ params = checked.fields := by
  have hfields : (if config.truthy then config else .object []).fields = config.fields := by
    cases config with
    | object f => cases f <;> rfl
    | _ => split <;> rfl
  change (match schema.check (Json.write .spaced)
      (if config.truthy then config else .object []) with
    | .error (p :: _) => Except.error (Failure.error (ActionKind.configError type p))
    | .error [] => .ok []
    | .ok x => .ok x.fields) = _ at h
  split at h
  · cases h
  · rename_i hchecked
    exact absurd hchecked (Kind.check_model_ne_error_nil _ _ _ _ _)
  · rename_i hchecked
    cases h
    exact ⟨_, _, hfields, hchecked, rfl⟩

/-- The header that is named for the token is still named for it when the configuration has been
checked. -/
theorem header_of_validate {type method : String} {config params : Fields} {header : String}
    (h : (kind type method).validate (.object config) = .ok params)
    (hheader : authHeader? config = some header) :
    (authOf params).map Auth.header = some header := by
  obtain ⟨auth, hauth, hgiven⟩ := Option.bind_eq_some_iff.mp hheader
  obtain ⟨x, checked, (rfl : x.fields = config), hchecked, rfl⟩ := checked_of_validate h
  have hfails (z : Json) : Kind.check (Json.write .spaced) (.optional authModel) z ≠ .error [] := by
    simp only [Kind.check]
    split
    · rintro ⟨⟩
    · exact Kind.check_model_ne_error_nil _ _ _ _ _
  obtain ⟨value, hget, hvalue⟩ :=
    Kind.get?_of_check_model [_, _, _, _] (by decide) hfails hchecked
  rw [hauth] at hvalue
  -- Where the header is named there is an object, and it is checked to be the same text there.
  have hnamed : Fields.get? auth.fields "header" = some (.text header) := by
    unfold Fields.text? at hgiven
    split at hgiven
    · rename_i text htext
      rw [htext, Option.some.inj hgiven]
    · cases hgiven
  have hmodel : authModel.check (Json.write .spaced) auth = .ok value := by
    simp only [Kind.check] at hvalue
    split at hvalue
    · cases hnamed
    · exact hvalue
  have htexts (z : Json) : Kind.check (Json.write .spaced) (.text 0) z ≠ .error [] :=
    Kind.ne_error_nil_of_keeps (Kind.check_text _ 0 z)
  obtain ⟨text, hkept, htext⟩ :=
    Kind.get?_of_check_model [_, _, _, _] (by decide) htexts hmodel
  rw [hnamed] at htext
  change Kind.check _ (.text 0) _ = _ at htext
  rw [Kind.check_anyText] at htext
  cases htext
  cases value with
  | object f =>
    rw [authOf, Browser.param, hget]
    change some (Fields.textAt f "header") = _
    rw [Fields.textAt, show Fields.get? f "header" = _ from hkept]
  | _ => cases hkept

/-- The headers that the parameters give differ in credentials only. -/
theorem headersOf_alike {extra : Option String} {params params' : Fields}
    (h : Fieldwise (FieldAlike extra) params params') :
    Headers.Alike (fun name => Headers.isSensitive extra name = true) (headersOf params)
      (headersOf params') := by
  have hmap {fs gs : Fields} (h : Fieldwise (HeaderAlike extra) fs gs) :
      Headers.Alike (fun name => Headers.isSensitive extra name = true)
        (fs.map fun f => (f.1, (f.2.text?).getD ""))
        (gs.map fun g => (g.1, (g.2.text?).getD "")) := by
    rw [Headers.Alike, List.forall₂_map_left_iff, List.forall₂_map_right_iff]
    refine h.imp ?_
    rintro ⟨name, x⟩ ⟨-, y⟩ ⟨rfl, hxy⟩
    cases hxy with
    | same => exact ⟨rfl, .inl rfl⟩
    | credential hname ha hb => exact ⟨rfl, .inr ⟨hname, ha, hb⟩⟩
  unfold headersOf Fields.objectAt
  rcases h.get?_cases "headers" with ⟨hf, hg⟩ | ⟨x, y, hf, hg, hxy⟩
  · rw [hf, hg]
    exact .nil
  · rw [hf, hg]
    rcases hxy.of_headers rfl with _ | hobject
    · exact hmap (by split <;> exact Fieldwise.refl (fun _ => .same) _)
    · exact hmap hobject

/-- The authentications that the parameters ask for differ in credentials only. -/
theorem authOf_alike {extra : Option String} {params params' : Fields}
    (h : Fieldwise (FieldAlike extra) params params') :
    authOf params = none ∧ authOf params' = none ∨
      ∃ a a', authOf params = some a ∧ authOf params' = some a' ∧ a.Alike a' := by
  unfold authOf Browser.param
  rcases h.get?_cases "auth" with ⟨hf, hg⟩ | ⟨x, y, hf, hg, hxy⟩
  · rw [hf, hg]
    exact .inl ⟨rfl, rfl⟩
  · rw [hf, hg, Option.getD_some, Option.getD_some]
    have hsome {f g : Fields} (hfg : Fieldwise AuthAlike f g) : Auth.Alike
        ⟨Fields.textAt f "type", Fields.textAt f "token", Fields.text? f "username",
          Fields.text? f "password", Fields.textAt f "header"⟩
        ⟨Fields.textAt g "type", Fields.textAt g "token", Fields.text? g "username",
          Fields.text? g "password", Fields.textAt g "header"⟩ := by
      have hequal {name : String} (htoken : name ≠ "token") (husername : name ≠ "username")
          (hpassword : name ≠ "password") : Fields.textAt f name = Fields.textAt g name := by
        unfold Fields.textAt
        rw [hfg.get?_eq fun _ _ hxy => hxy.eq htoken husername hpassword]
      refine ⟨hequal (by decide) (by decide) (by decide), ?_, ?_,
        hequal (by decide) (by decide) (by decide)⟩
      · dsimp only
        unfold Fields.textAt
        rcases hfg.get?_cases "token" with ⟨hf, hg⟩ | ⟨x, y, hf, hg, _ | ⟨-, ha, hb⟩ | hname⟩
        · exact .inl (by rw [hf, hg])
        · exact .inl (by rw [hf, hg])
        · rw [hf, hg]
          exact .inr ⟨ha, hb⟩
        · exact absurd hname (by decide)
      · dsimp only
        unfold Fields.text?
        rcases hfg.get?_cases "username" with ⟨hf, hg⟩ | ⟨x, y, hf, hg, _ | _ | _⟩
        · rw [hf, hg]
        · rw [hf, hg]
        · rw [hf, hg]
          rfl
        · rw [hf, hg]
          rfl
    rcases hxy.of_auth rfl with _ | hobject
    · cases x with
      | object f => exact .inr ⟨_, _, rfl, rfl, hsome (Fieldwise.refl (fun _ => .same) f)⟩
      | _ => exact .inl ⟨rfl, rfl⟩
    · exact .inr ⟨_, _, rfl, rfl, hsome hobject⟩

end Api

end Runbook
