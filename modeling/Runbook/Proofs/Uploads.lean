import Runbook.Proofs.Branches
import Runbook.Proofs.Credentials
import Runbook.Proofs.Executions
import Runbook.Proofs.Sextets

/-!
# Uploads

The content of an upload can be written in base 64. It is decoded twice: once strictly, when the
configuration is checked, and once loosely, when the bytes are needed. A content that the check lets
pass is decoded to the same bytes both times, so the second decoding cannot fail, and what has been
encoded is stored as it was. An upload with a wrong content does nothing at all.

* `StoredFiles.Asks config key content`: a configuration that asks for an upload in base 64.
* `StoredFiles.Uploads`: what an upload does, by whether the storage service takes the bytes.
* `StoredFiles.payload_of_refuse_eq_none`: the bytes of a content that is not refused.
* `StoredFiles.Asks.ends_execute_iff`: what an upload in base 64 does.
* `StoredFiles.base64_upload_is_exact`: what is stored, and what becomes of a wrong content.
-/

namespace Runbook

/-! ### Base 64 and ASCII -/

namespace Base64

/-- What stands for a sextet is in ASCII. -/
theorem beyondAscii_of_sextet? {c : Char} (h : (sextet? c).isSome) : Api.beyondAscii c = false := by
  have hle (d : Char) (hd : d.toNat < 128) (hc : c ≤ d) : Api.beyondAscii c = false := by
    have hnat : c.toNat ≤ d.toNat := hc
    simp only [Api.beyondAscii, decide_eq_false_iff_not]
    omega
  unfold sextet? at h
  split at h
  · rename_i hc
    exact hle 'Z' (by decide) (of_decide_eq_true (Bool.and_eq_true _ _ ▸ hc).2)
  split at h
  · rename_i hc
    exact hle 'z' (by decide) (of_decide_eq_true (Bool.and_eq_true _ _ ▸ hc).2)
  split at h
  · rename_i hc
    exact hle '9' (by decide) (of_decide_eq_true (Bool.and_eq_true _ _ ▸ hc).2)
  split at h
  · rename_i hc
    subst hc
    decide
  split at h
  · rename_i hc
    subst hc
    decide
  · cases h

/-- What strict decoding accepts is in ASCII. -/
theorem ascii_of_decode? {cs : List Char} {bytes : List UInt8} (h : decode? cs = some bytes) :
    ∀ c ∈ cs, Api.beyondAscii c = false := by
  obtain ⟨front, k, rfl, hfront, -, -⟩ := decode?_eq_some_iff.mp h
  intro c hc
  rcases List.mem_append.mp hc with hc | hc
  · exact beyondAscii_of_sextet? (hfront c hc)
  · rw [List.eq_of_mem_replicate hc]
    decide

end Base64

namespace StoredFiles

variable {ctx : LoopContext} {nested : Dispatcher} {frame : Frame} {params config : Fields}
  {key content type : String} {bytes : List UInt8} {s s' : LoopState} {t : List Deed}
  {r : Except Failure Unit}

/-! ### Contents -/

/-- A content that is not refused has a payload, and in base 64 that is what strict decoding makes
of it. -/
theorem payload_of_refuse_eq_none (h : refuse params = none) :
    ∃ bytes, payload params = .ok bytes ∧ (isBase64 params →
      Base64.decode? (Fields.textAt params "content").toList = some bytes) := by
  unfold refuse at h
  unfold payload
  by_cases hbase : isBase64 params = true
  · rw [if_pos hbase]
    simp only [hbase, Bool.not_true, Bool.false_eq_true, if_false] at h
    split at h
    · cases h
    · split at h
      · cases h
      · rename_i hnone
        rw [Option.isNone_iff_eq_none, ← ne_eq, Option.ne_none_iff_exists'] at hnone
        obtain ⟨bytes, hbytes⟩ := hnone
        exact ⟨bytes, by rw [Base64.decodeLoose?_of_decode? hbytes], fun _ => hbytes⟩
  · rw [if_neg hbase]
    exact ⟨_, rfl, fun htrue => absurd htrue hbase⟩

/-- A content in base 64 is not refused when strict decoding accepts it. -/
theorem refuse_eq_none (h : Base64.decode? (Fields.textAt params "content").toList = some bytes) :
    refuse params = none := by
  have hascii : (Fields.textAt params "content").toList.any Api.beyondAscii = false := by
    rw [List.any_eq_false]
    intro c hc
    rw [Base64.ascii_of_decode? h c hc]
    decide
  unfold refuse
  simp [h, hascii]

/-! ### Configurations -/

/-- A configuration that asks for an upload with its content in base 64. -/
structure Asks (config : Fields) (key content : String) : Prop where
  named : Fields.get? config "key" = some (.text key)
  nonempty : key ≠ ""
  given : Fields.get? config "content" = some (.text content)
  encoding : Fields.get? config "encoding" = some (.text "base64")
  contentType : Fields.get? config "content_type" = none ∨
    Fields.get? config "content_type" = some .null ∨
      ∃ type, Fields.get? config "content_type" = some (.text type)

/-- The check of such a configuration keeps what is in it. -/
theorem Asks.exists_check (h : Asks config key content) :
    ∃ params, uploadSchema.check (Json.write .spaced) (.object config) = .ok (.object params) ∧
      Fields.textAt params "key" = key ∧ Fields.textAt params "content" = content ∧
      isBase64 params ∧
      Fields.textAt params "content_type" = Fields.textAt config "content_type" := by
  have hkey : Kind.checkField (Json.write .spaced) (Browser.filled "key") config =
      .ok ("key", .text key) := by
    have hlength : ¬ key.length < 1 := by
      rw [Nat.lt_one_iff, String.length_eq_zero_iff]
      exact h.nonempty
    simp [Browser.filled, Kind.checkField_required, h.named, Kind.check, hlength, Except.map,
      Kind.under]
  have hcontent : Kind.checkField (Json.write .spaced) (.required "content" (.text 0)) config =
      .ok ("content", .text content) := by
    simp [Kind.checkField_required, h.given, Kind.check, Except.map, Kind.under]
  have hencoding : Kind.checkField (Json.write .spaced)
      (.withDefault "encoding" (.choice ["text", "base64"]) (.text "text")) config =
        .ok ("encoding", .text "base64") := by
    simp [Kind.checkField_withDefault, h.encoding, Kind.check, Except.map, Kind.under]
  have htype : Kind.checkField (Json.write .spaced) (.optional "content_type" (.text 0)) config =
      .ok ("content_type", (Fields.get? config "content_type").getD .null) := by
    change Kind.checkField _ (.withDefault "content_type" (.optional (.text 0)) .null) _ = _
    rw [Kind.checkField_withDefault]
    rcases h.contentType with hget | hget | ⟨type, hget⟩ <;>
    simp [hget, Kind.check, Except.map, Kind.under]
  obtain ⟨more, hcheck⟩ : ∃ more, uploadSchema.check (Json.write .spaced) (.object config) =
      .ok (.object ([("key", .text key), ("content", .text content), ("encoding", .text "base64"),
        ("content_type", (Fields.get? config "content_type").getD .null)] ++ more)) := by
    unfold uploadSchema Browser.model
    rw [Kind.check]
    simp only [Kind.checkFields_eq_map, List.map_cons, List.map_nil, hkey, hcontent, hencoding,
      htype]
    exact ⟨_, rfl⟩
  refine ⟨_, hcheck, rfl, rfl, rfl, ?_⟩
  unfold Fields.textAt
  rcases h.contentType with hget | hget | ⟨type, hget⟩ <;> rw [hget] <;> rfl

/-- Such a configuration is accepted when strict decoding accepts its content. -/
theorem Asks.exists_validate (h : Asks config key content)
    (hbytes : Base64.decode? content.toList = some bytes) :
    ∃ params, upload.validate (.object config) = .ok params ∧ payload params = .ok bytes ∧
      Fields.textAt params "key" = key ∧
      Fields.textAt params "content_type" = Fields.textAt config "content_type" := by
  obtain ⟨params, hcheck, hkey, rfl, hbase, htype⟩ := h.exists_check
  have hrefuse := refuse_eq_none hbytes
  obtain ⟨bytes', hpayload, hdecoded⟩ := payload_of_refuse_eq_none hrefuse
  obtain rfl : bytes' = bytes := Option.some.inj ((hdecoded hbase).symm.trans hbytes)
  have hvalid : upload.validate (.object config) = .ok params :=
    (ActionKind.validate_object_eq_ok_iff rfl rfl).mpr ⟨_, hcheck, rfl, hrefuse⟩
  exact ⟨params, hvalid, hpayload, hkey, htype⟩

/-- The check keeps a content in base 64 as it is. -/
theorem kept_of_validate (hcontent : Fields.get? config "content" = some (.text content))
    (hencoding : Fields.get? config "encoding" = some (.text "base64"))
    (h : upload.validate (.object config) = .ok params) :
    Fields.textAt params "content" = content ∧ isBase64 params ∧ refuse params = none := by
  obtain ⟨y, hcheck, rfl, hrefuse⟩ := (ActionKind.validate_object_eq_ok_iff rfl rfl).mp h
  have hcontent' : Fields.get? y.fields "content" = some (.text content) := by
    have hfails (z : Json) : Kind.check (Json.write .spaced) (.text 0) z ≠ .error [] :=
      Kind.ne_error_nil_of_keeps (Kind.check_text _ 0 z)
    have hbefore : ∀ field ∈ [Browser.filled "key"], field.name ≠ "content" := by decide
    obtain ⟨given, value, hgiven, hchecked, hvalue⟩ :=
      Kind.get?_required_of_check hbefore hfails hcheck
    cases hgiven.symm.trans hcontent
    cases hchecked
    exact hvalue
  have hencoding' : Fields.get? y.fields "encoding" = some (.text "base64") := by
    have hfails (z : Json) :
        Kind.check (Json.write .spaced) (.choice ["text", "base64"]) z ≠ .error [] :=
      Kind.ne_error_nil_of_keeps (Kind.check_choice _ z)
    obtain ⟨value, hvalue, hgiven⟩ := Kind.get?_of_check_model
      [Browser.filled "key", .required "content" (.text 0)] (by decide) hfails hcheck
    rw [Json.fields, hencoding] at hgiven
    cases hgiven
    exact hvalue
  refine ⟨?_, ?_, hrefuse⟩
  · rw [Fields.textAt, hcontent']
  · rw [isBase64, Fields.textAt, hencoding']
    rfl

/-! ### Executions -/

/-- The content type of an upload: the one that is stated, or the usual one for the key. -/
def contentTypeOf (fields : Fields) (key : String) : String :=
  let stated := Fields.textAt fields "content_type"
  if stated.isEmpty then ContentType.ofKey key else stated

/-- What an upload does, and what comes of it: the bytes are stored, then the file is told, and then
that the action succeeded; or the storage service refuses the bytes, which is told as an error. -/
inductive Uploads (ctx : LoopContext) (frame : Frame) (localLoopIndex : Int) (key : String)
    (bytes : List UInt8) (type : String) : List Deed → Except Failure Unit → Prop
  | stored (started : Rat) (url : String) (told : Rat) (taken : Bool) (ended now : Rat)
      (taken' : Bool) :
      Uploads ctx frame localLoopIndex key bytes type [
        .call .now started,
        .call (.upload key bytes type) (.ok url),
        .call .now told,
        .call (.emit { frame.event .outputFile (.ofMillis told) ctx.loopIndex localLoopIndex with
          outputFile := url }) taken,
        .call .now ended,
        .call .now now,
        .call (.emit { frame.event .log (.ofMillis now) ctx.loopIndex localLoopIndex with
          durationMs := ActionKind.elapsed started ended
          message := s!"Successfully uploaded file to storage: {key}" }) taken'] (.ok ())
  | failed (started : Rat) (fault : Fault) (ended now : Rat) (taken : Bool) :
      Uploads ctx frame localLoopIndex key bytes type [
        .call .now started,
        .call (.upload key bytes type) (.error fault),
        .call .now ended,
        .call .now now,
        .call (.emit { frame.event .error (.ofMillis now) ctx.loopIndex localLoopIndex with
          durationMs := ActionKind.elapsed started ended
          error := s!"r2:upload failed: {fault.text}" }) taken]
        (.error (.error (.action s!"r2:upload failed: {fault.text}" none "r2:upload")))

/-- An upload whose configuration has been accepted, call by call. -/
theorem run_execute_eq (hstorage : ctx.hasStorage = true)
    (hvalid : upload.validate (.object config) = .ok params)
    (hpayload : payload params = .ok bytes) (hkey : Fields.textAt params "key" = key)
    (htype : contentTypeOf params key = type) :
    (upload.execute ctx nested frame (.object config)).run.run s =
      Program.call .now fun started =>
      Program.call (.upload key bytes type) fun
      | .ok url =>
        Program.call .now fun told =>
        Program.call (.emit { frame.event .outputFile (.ofMillis told) ctx.loopIndex
          s.localLoopIndex with outputFile := url }) fun _ =>
        Program.call .now fun ended =>
        Program.call .now fun now =>
        Program.call (.emit { frame.event .log (.ofMillis now) ctx.loopIndex s.localLoopIndex with
          durationMs := ActionKind.elapsed started ended
          message := s!"Successfully uploaded file to storage: {key}" }) fun _ =>
        .done (.ok (), s)
      | .error fault =>
        Program.call .now fun ended =>
        Program.call .now fun now =>
        Program.call (.emit { frame.event .error (.ofMillis now) ctx.loopIndex
          s.localLoopIndex with
            durationMs := ActionKind.elapsed started ended
            error := s!"r2:upload failed: {fault.text}" }) fun _ =>
        .done (.error (.error (.action s!"r2:upload failed: {fault.text}" none "r2:upload")),
          s) := by
  have hbehave : upload.behave ctx nested frame params = (do
      let url ← Work.lift (Act.attempt
        (Program.ask (.upload key bytes type)))
      Work.lift (Act.emitOutputFile ctx frame url)
      return s!"Successfully uploaded file to storage: {key}") := by
    simp only [upload, kind, requireStorage, hstorage, if_true, hpayload, pure_bind]
    subst hkey htype
    rw [Work.ofExcept_mapError_ok_bind]
    rfl
  rw [ActionKind.execute, hvalid, show Act.ofExcept (.ok params) = pure params from rfl, pure_bind,
    hbehave]
  refine congrArg (Program.call _) (funext fun started =>
    congrArg (Program.call _) (funext fun reply => ?_))
  cases reply <;> rfl

/-- An upload in base 64 stores what strict decoding makes of its content. -/
theorem Asks.ends_execute_iff (h : Asks config key content)
    (hbytes : Base64.decode? content.toList = some bytes) (hstorage : ctx.hasStorage = true) :
    (upload.execute ctx nested frame (.object config)).Ends s t r s' ↔
      s' = s ∧ Uploads ctx frame s.localLoopIndex key bytes (contentTypeOf config key) t r := by
  obtain ⟨params, hvalid, hpayload, hkey, htype⟩ := h.exists_validate hbytes
  have hcontentType : contentTypeOf params key = contentTypeOf config key := by
    rw [contentTypeOf, contentTypeOf, htype]
  rw [Act.Ends, run_execute_eq hstorage hvalid hpayload hkey hcontentType]
  constructor
  · intro h₁
    obtain ⟨started, _, rfl, h₂⟩ := Program.ends_call_iff.mp h₁
    obtain ⟨reply, _, rfl, h₃⟩ := Program.ends_call_iff.mp h₂
    cases reply with
    | ok url =>
      obtain ⟨told, _, rfl, h₄⟩ := Program.ends_call_iff.mp h₃
      obtain ⟨taken, _, rfl, h₅⟩ := Program.ends_call_iff.mp h₄
      obtain ⟨ended, _, rfl, h₆⟩ := Program.ends_call_iff.mp h₅
      obtain ⟨now, _, rfl, h₇⟩ := Program.ends_call_iff.mp h₆
      obtain ⟨taken', _, rfl, h₈⟩ := Program.ends_call_iff.mp h₇
      obtain ⟨rfl, heq⟩ := Program.ends_done_iff.mp h₈
      obtain ⟨rfl, rfl⟩ := Prod.mk.inj heq
      exact ⟨rfl, .stored started url told taken ended now taken'⟩
    | error fault =>
      obtain ⟨ended, _, rfl, h₄⟩ := Program.ends_call_iff.mp h₃
      obtain ⟨now, _, rfl, h₅⟩ := Program.ends_call_iff.mp h₄
      obtain ⟨taken, _, rfl, h₆⟩ := Program.ends_call_iff.mp h₅
      obtain ⟨rfl, heq⟩ := Program.ends_done_iff.mp h₆
      obtain ⟨rfl, rfl⟩ := Prod.mk.inj heq
      exact ⟨rfl, .failed started fault ended now taken⟩
  · rintro ⟨rfl, h⟩
    cases h with
    | stored =>
      exact .call (.call (.call (.call (.call (.call (.call (.refl _)))))))
    | failed => exact .call (.call (.call (.call (.call (.refl _)))))

/-- **Uploads in base 64.** An upload of bytes in base 64, under a key that is not empty, stores
exactly these bytes; when the storage service has taken them, the file is told first and the success
of the action then, and nothing else happens. And with whatever content in base 64, either the
configuration is refused, and nothing happens at all, or the bytes can be had, and they are those
that strict decoding makes of the content. -/
theorem base64_upload_is_exact (ctx : LoopContext) (nested : Dispatcher) (frame : Frame)
    (config : Fields) (s s' : LoopState) (t : List Deed) (r : Except Failure Unit) :
    (∀ key bytes, Asks config key (String.ofList (Base64.encode bytes)) → ctx.hasStorage = true →
      ((upload.execute ctx nested frame (.object config)).Ends s t r s' ↔
        s' = s ∧ Uploads ctx frame s.localLoopIndex key bytes (contentTypeOf config key) t r)) ∧
    (∀ content, Fields.get? config "content" = some (.text content) →
      Fields.get? config "encoding" = some (.text "base64") →
      (∃ error field, upload.validate (.object config) = .error (.error error) ∧
        error.kind = .actionConfig (some "r2:upload") field ∧
        ((upload.execute ctx nested frame (.object config)).Ends s t r s' ↔
          t = [] ∧ r = .error (.error error) ∧ s' = s)) ∨
      ∃ params bytes, upload.validate (.object config) = .ok params ∧
        payload params = .ok bytes ∧ Base64.decode? content.toList = some bytes) := by
  refine ⟨fun key bytes h hstorage => ?_, fun content hcontent hencoding => ?_⟩
  · refine h.ends_execute_iff ?_ hstorage
    rw [String.toList_ofList, Base64.decode?_encode]
  · cases hvalid : upload.validate (.object config) with
    | error e =>
      obtain ⟨error, field, rfl, hkind⟩ := ActionKind.validate_error hvalid
      refine .inl ⟨error, field, rfl, hkind, ?_⟩
      rw [ActionKind.execute, hvalid]
      exact Act.ends_fail_iff
    | ok params =>
      obtain ⟨rfl, hbase, hrefuse⟩ := kept_of_validate hcontent hencoding hvalid
      obtain ⟨bytes, hpayload, hdecoded⟩ := payload_of_refuse_eq_none hrefuse
      exact .inr ⟨params, bytes, rfl, hpayload, hdecoded hbase⟩

/-- The configuration of an upload of one byte. -/
def oneByte : Fields :=
  [("key", .text "a.txt"), ("content", .text "QQ=="), ("encoding", .text "base64")]

/-- This byte is stored, when the storage service takes it. -/
theorem one_byte_uploaded :
    let ctx := { Catalogue.sampleContext with hasStorage := true }
    Asks oneByte "a.txt" (String.ofList (Base64.encode [65])) ∧ ctx.hasStorage = true ∧
    ∃ t, (upload.execute ctx (fun _ _ => pure ()) {} (.object oneByte)).Ends {} t (.ok ()) {} ∧
      .call (.upload "a.txt" [65] "text/plain") (.ok "here") ∈ t := by
  intro ctx
  have hwritten : String.ofList (Base64.encode [65]) = "QQ==" := by decide +kernel
  have hasks : Asks oneByte "a.txt" (String.ofList (Base64.encode [65])) :=
    ⟨rfl, by decide, by rw [hwritten]; rfl, rfl, .inl rfl⟩
  refine ⟨hasks, rfl, _, ((base64_upload_is_exact ctx _ {} oneByte {} {} _ _).1 _ _ hasks
    rfl).mpr ⟨rfl, .stored 0 "here" 0 true 0 0 true⟩, ?_⟩
  have htype : contentTypeOf oneByte "a.txt" = "text/plain" := by decide +kernel
  rw [htype]
  simp

/-- A content without its last equals sign is refused. -/
example :
    (upload.validate (.object (Fields.set oneByte "content" (.text "QQ=")))).toOption = none := by
  decide +kernel

end StoredFiles

end Runbook
