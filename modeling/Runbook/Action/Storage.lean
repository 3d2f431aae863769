import Runbook.Action.Browser
import Runbook.Storage.ContentType
import Runbook.Text.Base64
import Runbook.Text.Utf8

/-!
# Actions on stored files

Uploading, deleting and listing files of the storage service. The content of an upload is a text,
or bytes written in base 64; that it can be decoded is part of its schema.
-/

namespace Runbook.StoredFiles

def uploadSchema : Kind :=
  Browser.model "UploadSchema" [
    Browser.filled "key",
    .required "content" (.text 0),
    .withDefault "encoding" (.choice ["text", "base64"]) (.text "text"),
    .optional "content_type" (.text 0)]

def deleteSchema : Kind := Browser.model "DeleteSchema" [Browser.filled "key"]

def listSchema : Kind :=
  Browser.model "ListSchema" [
    .withDefault "prefix" (.text 0) (.text ""),
    .optional "save_as" (.text 0),
    .withDefault "scope" (.choice ["local", "global"]) (.text "local")]

/-- Whether the parameters give their content in base 64. -/
def isBase64 (params : Fields) : Bool := Fields.textAt params "encoding" == "base64"

/-- Content in base 64 has to be just that. -/
def refuse (params : Fields) : Option String :=
  let content := (Fields.textAt params "content").toList
  if !isBase64 params then none
  else if content.any Api.beyondAscii then
    some "string argument should contain only ASCII characters"
  else if (Base64.decode? content).isNone then
    some "requires base64 'content' when encoding is base64"
  else none

/-- The bytes to be stored. -/
def payload (params : Fields) : Except Fault (List UInt8) :=
  let content := Fields.textAt params "content"
  if isBase64 params then
    match Base64.decodeLoose? content.toList with
    | some bytes => .ok bytes
    | none => .error ⟨.badValue, "Incorrect padding"⟩
  else .ok (Text.utf8 content)

/-- Refuses to go on without a storage service. -/
def requireStorage (type : String) (ctx : LoopContext) (frame : Frame) : Work Unit :=
  if ctx.hasStorage then pure ()
  else throw (.error
    (.action s!"{type} requires a storage service" (some frame.actionId) type))

/-- An action on stored files. -/
def kind (type : String) (schema : Kind) (behave : LoopContext → Frame → Fields → Work String) :
    ActionKind :=
  { type, schema
    wrap := ActionKind.plainWrap type
    behave := fun ctx _ frame params => do
      requireStorage type ctx frame
      behave ctx frame params }

def upload : ActionKind :=
  { kind "r2:upload" uploadSchema fun ctx frame params => do
      let key := Fields.textAt params "key"
      let data ← Work.lift (Act.ofExcept ((payload params).mapError .fault))
      let stated := Fields.textAt params "content_type"
      let contentType := if stated.isEmpty then ContentType.ofKey key else stated
      let url ← Work.lift (Act.attempt (Program.ask (.upload key data contentType)))
      Work.lift (Act.emitOutputFile ctx frame url)
      return s!"Successfully uploaded file to storage: {key}"
    with refuse }

def delete : ActionKind :=
  kind "r2:delete" deleteSchema fun _ _ params => do
    let key := Fields.textAt params "key"
    Work.lift (Act.attempt (Program.ask (.delete key)))
    return s!"Successfully deleted file from storage: {key}"

def list : ActionKind :=
  { kind "r2:list" listSchema fun _ _ params => do
      let beginning := Fields.textAt params "prefix"
      let keys ← Work.lift (Act.attempt (Program.ask (.list beginning)))
      let found := Json.list (keys.map .text)
      Work.report fun fields => Fields.set fields "files" found
      Browser.save params found
      return s!"Successfully listed {keys.length} files with prefix: {beginning}"
    with firstReport := [("files", .list [])] }

/-- The actions on stored files. -/
def kinds : List ActionKind := [upload, delete, list]

end Runbook.StoredFiles
