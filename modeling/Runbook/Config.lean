import Runbook.Error
import Runbook.Json.Reader
import Runbook.Json.Writer
import Runbook.Schema.Basic

/-!
# Automation settings

How an automation is to be run: its declared variables, how often and in which mode, its time
limit, its automatic screenshots and its notification channels. `AutomationConfig.parse` reads the
settings from what is stored with an automation: nothing, JSON text, or an object.
-/

namespace Runbook

/-- Where automatic screenshots go unless stated otherwise. -/
def defaultScreenshotPath : String :=
  "screenshots/\x7b\x7btimestamp\x7d\x7d-\x7b\x7bloopIndex\x7d\x7d.png"

/-- How the value of a declared variable is to be understood. -/
inductive VariableType where
  /-- The value itself. -/
  | static
  /-- A generated value. -/
  | dynamic
  /-- A template. -/
  | environment
  deriving DecidableEq, Repr

def VariableType.word : VariableType → String
  | .static => "static"
  | .dynamic => "dynamic"
  | .environment => "environment"

/-- A declared variable. -/
structure Variable where
  key : String
  type : VariableType := .static
  value : String := ""
  description : String := ""
  deriving DecidableEq, Repr

/-- The order in which loop indices run. -/
inductive RunMode where
  | sequential
  | parallel
  deriving DecidableEq, Repr

def RunMode.word : RunMode → String
  | .sequential => "sequential"
  | .parallel => "parallel"

/-- Repeated execution. -/
structure MultiRun where
  enabled : Bool := false
  mode : RunMode := .sequential
  count : Nat := 1
  delayMs : Nat := 1000
  deriving DecidableEq, Repr

/-- Automatic screenshots. -/
structure ScreenshotSettings where
  enabled : Bool := true
  onError : Bool := true
  onSuccess : Bool := false
  path : String := defaultScreenshotPath
  deriving DecidableEq, Repr

/-- The means by which a channel reaches people. -/
inductive ChannelType where
  | slack
  | email
  | webhook
  deriving DecidableEq, Repr

def ChannelType.word : ChannelType → String
  | .slack => "slack"
  | .email => "email"
  | .webhook => "webhook"

/-- A notification channel. -/
structure Channel where
  id : String := ""
  type : ChannelType
  onComplete : Bool := false
  onError : Bool := false
  config : Fields := []

/-- The settings of an automation. -/
structure AutomationConfig where
  declared : List Variable := []
  multirun : MultiRun := {}
  timeoutS : Nat := 300
  retries : Nat := 0
  screenshots : ScreenshotSettings := {}
  notifications : List Channel := []

/-- Why settings are refused. -/
inductive ConfigFault where
  | invalidJson (e : Json.ReadError)
  | notObject
  | invalid (problems : List Problem)
  /-- The value of a variable cannot be written as JSON text. -/
  | unwritable (type : String)

namespace AutomationConfig

/-- Keys that have a second spelling: the first one is the one that goes first. -/
def aliased (name otherKey : String) (kind : Kind) (default : Json) : Field :=
  .mk name (some otherKey) kind (some default) .asIs

def variableModel : Kind :=
  .model "Variable" false [
    .required "key" (.text 0),
    .withDefault "type" (.choice ["static", "dynamic", "environment"]) (.text "static"),
    .mk "value" none (.text 0) (some (.text "")) .writtenOut,
    .withDefault "description" (.text 0) (.text "")]

def multiRunModel : Kind :=
  .model "MultiRunConfig" false [
    .withDefault "enabled" .boolean (.bool false),
    .mk "mode" none (.choice ["sequential", "parallel"]) (some (.text "sequential"))
      (.normalized "sequential"),
    .withDefault "count" (.integer (some 1) (some 1000)) (.int 1),
    aliased "delay_ms" "delay" (.integer (some 0) none) (.int 1000)]

def screenshotModel : Kind :=
  .model "ScreenshotConfig" false [
    .withDefault "enabled" .boolean (.bool true),
    aliased "on_error" "onError" .boolean (.bool true),
    aliased "on_success" "onSuccess" .boolean (.bool false),
    .withDefault "path" (.text 0) (.text defaultScreenshotPath)]

def channelModel : Kind :=
  .model "NotificationChannelConfig" false [
    .withDefault "id" (.text 0) (.text ""),
    .required "type" (.choice ["slack", "email", "webhook"]),
    aliased "on_complete" "onComplete" .boolean (.bool false),
    aliased "on_error" "onError" .boolean (.bool false),
    .withDefault "config" (.dictionary .any) (.object [])]

/-- The schema of the settings. A part that is not given is null here, and stands for its
defaults. -/
def model : Kind :=
  .model "AutomationConfig" false [
    .withDefault "variables" (.list 0 variableModel) (.list []),
    .withDefault "multirun" multiRunModel .null,
    aliased "timeout_s" "timeout" (.integer (some 1) none) (.int 300),
    .withDefault "retries" (.integer (some 0) (some 10)) (.int 0),
    .withDefault "screenshots" screenshotModel .null,
    .withDefault "notifications" (.list 0 channelModel) (.list [])]

/-- A declared variable from its checked fields. -/
def variableOf (f : Fields) : Variable :=
  { key := Fields.textAt f "key"
    type := match Fields.textAt f "type" with
      | "dynamic" => .dynamic
      | "environment" => .environment
      | _ => .static
    value := Fields.textAt f "value"
    description := Fields.textAt f "description" }

/-- Repeated execution from its checked fields. -/
def multiRunOf (f : Fields) : MultiRun :=
  { enabled := Fields.boolAt f "enabled"
    mode := if Fields.textAt f "mode" = "parallel" then .parallel else .sequential
    count := ((Fields.int? f "count").getD 1).toNat
    delayMs := ((Fields.int? f "delay_ms").getD 1000).toNat }

/-- Screenshot settings from their checked fields. -/
def screenshotsOf (f : Fields) : ScreenshotSettings :=
  { enabled := Fields.boolAt f "enabled"
    onError := Fields.boolAt f "on_error"
    onSuccess := Fields.boolAt f "on_success"
    path := Fields.textAt f "path" }

/-- A channel from its checked fields. -/
def channelOf (f : Fields) : Channel :=
  { id := Fields.textAt f "id"
    type := match Fields.textAt f "type" with
      | "email" => .email
      | "webhook" => .webhook
      | _ => .slack
    onComplete := Fields.boolAt f "on_complete"
    onError := Fields.boolAt f "on_error"
    config := Fields.objectAt f "config" }

/-- The settings from their checked fields. -/
def ofFields (f : Fields) : AutomationConfig :=
  { declared := (Fields.listAt f "variables").map fun x => variableOf x.fields
    multirun := match Fields.get? f "multirun" with
      | some (.object g) => multiRunOf g
      | _ => {}
    timeoutS := ((Fields.int? f "timeout_s").getD 300).toNat
    retries := ((Fields.int? f "retries").getD 0).toNat
    screenshots := match Fields.get? f "screenshots" with
      | some (.object g) => screenshotsOf g
      | _ => {}
    notifications := (Fields.listAt f "notifications").map fun x => channelOf x.fields }

/-- The number of loop indices. -/
def runCount (c : AutomationConfig) : Nat :=
  if c.multirun.enabled then c.multirun.count else 1

/-- The mode in which they run. -/
def runMode (c : AutomationConfig) : RunMode :=
  if c.multirun.enabled && 1 < c.multirun.count then c.multirun.mode else .sequential

/-- The first declaration of a key. -/
def findVariable (c : AutomationConfig) (key : String) : Option Variable :=
  c.declared.find? fun v => v.key == key

/-- The type of the first variable value that has no JSON text. -/
def unwritableValue? (raw : Fields) : Option String :=
  (Fields.listAt raw "variables").findSome? fun v => (v.get? "value").bind Json.foreignType?

/-- Settings from an object. -/
def ofObject (raw : Fields) : Except ConfigFault AutomationConfig :=
  if raw.isEmpty then .ok {}
  else
    match unwritableValue? raw with
    | some type => .error (.unwritable type)
    | none =>
      match model.check (Json.write .spaced) (.object raw) with
      | .ok x => .ok (ofFields x.fields)
      | .error problems => .error (.invalid problems)

/-- Reads stored settings. Nothing, and text with nothing in it, stand for the defaults. -/
def parse (raw : Json) : Except ConfigFault AutomationConfig :=
  match raw with
  | .null => .ok {}
  | .text s =>
    if (Text.trimBoth Text.isBlank s.toList).isEmpty then .ok {}
    else
      match Json.read s with
      | .error e => .error (.invalidJson e)
      | .ok (.object fields) => ofObject fields
      | .ok _ => .error .notObject
  | .object fields => ofObject fields
  | _ => .error .notObject

end AutomationConfig

/-- How many problems a model has, as a phrase. -/
def problemCount (model : String) (problems : List Problem) : String :=
  Violation.counted problems.length "validation error" ++ " for " ++ model

/-- A refusal of settings as a failure. -/
def ConfigFault.toFailure : ConfigFault → Failure
  | .invalidJson e => .error (.config s!"Invalid automation config JSON: {e.message}" none)
  | .notObject => .error (.config "Automation config must be an object" none)
  | .invalid problems =>
    .error { kind := .config none
             message := "Invalid automation config: " ++ problemCount "AutomationConfig" problems
             problems := some problems }
  | .unwritable type => .fault (.unwritable type)

end Runbook
