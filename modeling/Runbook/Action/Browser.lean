import Runbook.Action.Kind
import Runbook.Json.Display
import Runbook.Number.Duration

/-!
# Actions on the page

Each of these makes one request to the page of its loop index and says how it went. They refuse to
run when the loop index has no page.
-/

namespace Runbook.Browser

/-! ### Schemas -/

/-- A schema that keeps what it does not know. -/
def model (name : String) (fields : List Field) : Kind := .model name true fields

/-- A text that must not be empty. -/
def filled (name : String) : Field := .required name (.text 1)

/-- A limit of time or a delay, in milliseconds. -/
def millis (name : String) : Field := .optional name (.number (some 0))

/-- The element, and how long to wait for it. -/
def selectorFields : List Field := [filled "selector", millis "timeout"]

/-- Where a value is to be kept. -/
def saveFields : List Field := [
  .optional "save_as" (.text 0),
  .withDefault "scope" (.choice ["local", "global"]) (.text "local")]

/-- The states of a page while it loads. -/
def loadState : Kind :=
  model "LoadStateSchema" [
    .withDefault "state" (.choice ["load", "domcontentloaded", "networkidle"]) (.text "load"),
    millis "timeout"]

/-- An element that may be pressed through others. -/
def checkable : Kind :=
  model "CheckSchema" (selectorFields ++ [.optional "force" .boolean])

/-! ### Requests -/

/-- A parameter, null when it is absent. -/
def param (params : Fields) (name : String) : Json := (Fields.get? params name).getD .null

/-- Parameters as options of the same names. -/
def options (params : Fields) (names : List String) : Fields :=
  names.map fun name => (name, param params name)

/-- Refuses to go on without a page. -/
def requirePage (type : String) (ctx : LoopContext) : Work Unit :=
  if ctx.hasPage then pure ()
  else Work.lift (Act.fail (.error
    (.browser s!"{type} requires a browser page" (some type) none)))

/-- Makes a request to the page. -/
def request (type : String) (ctx : LoopContext) (c : PageCall) : Work Json := do
  requirePage type ctx
  Work.lift (Act.attempt (Program.ask (.page ctx.loopIndex c)))

/-- An action on the page. -/
def kind (type : String) (schema : Kind) (behave : LoopContext → Frame → Fields → Work String) :
    ActionKind :=
  { type, schema
    wrap := ActionKind.browserWrap type
    behave := fun ctx _ frame params => behave ctx frame params }

/-- An action that makes one request. -/
def simple (type : String) (schema : Kind) (call : Fields → PageCall)
    (message : Fields → String) : ActionKind :=
  kind type schema fun ctx _ params => do
    let _ ← request type ctx (call params)
    return message params

/-- An action that makes one request about an element: it passes some parameters on, and what it
did is worded around the name of the element. -/
def onElement (type : String) (operation : PageOperation) (schema : Kind) (names : List String)
    (message : String → String) : ActionKind :=
  simple type schema
    (fun params => .onElement operation (Fields.textAt params "selector") (options params names))
    fun params => message (Fields.textAt params "selector")

/-- Keeps a value under the name that the parameters give, if they give one. -/
def save (params : Fields) (value : Json) : Work Unit := do
  let name := Fields.textAt params "save_as"
  if !name.isEmpty then
    Work.lift (Act.setRuntime name value (.ofWord (Fields.textAt params "scope")))

/-! ### Navigation -/

def goto : ActionKind :=
  simple "playwright:goto"
    (model "GotoSchema" [
      filled "url",
      .optional "wait_until" (.choice ["load", "domcontentloaded", "networkidle", "commit"]),
      millis "timeout"])
    (fun params => .onPage .goto (options params ["url", "wait_until", "timeout"]))
    fun params => s!"Successfully navigated to " ++ Fields.textAt params "url"

def waitForLoadState : ActionKind :=
  simple "playwright:wait_for_load_state" loadState
    (fun params => .onPage .waitForLoadState (options params ["state", "timeout"]))
    fun params => "Successfully waited for load state " ++ Fields.textAt params "state"

def reload : ActionKind :=
  simple "playwright:reload" loadState
    (fun params =>
      .onPage .reload [("wait_until", param params "state"), ("timeout", param params "timeout")])
    fun _ => "Successfully reloaded page"

def goBack : ActionKind :=
  simple "playwright:go_back" (model "ActionSchema" []) (fun _ => .onPage .goBack [])
    fun _ => "Successfully navigated back"

def goForward : ActionKind :=
  simple "playwright:go_forward" (model "ActionSchema" []) (fun _ => .onPage .goForward [])
    fun _ => "Successfully navigated forward"

def setViewport : ActionKind :=
  simple "playwright:set_viewport"
    (model "ViewportSchema" [
      .required "width" (.integer (some 1) none), .required "height" (.integer (some 1) none)])
    (fun params => .onPage .setViewportSize (options params ["width", "height"]))
    fun params => "Successfully set viewport to " ++ (param params "width").display ++ "x"
      ++ (param params "height").display

/-! ### Elements -/

def click : ActionKind :=
  onElement "playwright:click" .click
    (model "ClickSchema" (selectorFields ++ [
      .optional "force" .boolean,
      .optional "button" (.choice ["left", "right", "middle"]),
      .optional "click_count" (.integer (some 1) none)]))
    ["timeout", "force", "button", "click_count"]
    fun selector => s!"Successfully clicked element {selector}"

def fill : ActionKind :=
  onElement "playwright:fill" .fill
    (model "FillSchema" (selectorFields ++ [.required "value" (.text 0)]))
    ["value", "timeout"]
    fun selector => s!"Successfully filled element {selector} with value"

def type : ActionKind :=
  onElement "playwright:type" .type
    (model "TypeSchema" (selectorFields ++ [.required "text" (.text 0), millis "delay"]))
    ["text", "delay", "timeout"]
    fun selector => s!"Successfully typed text into element {selector}"

def press : ActionKind :=
  simple "playwright:press"
    (model "PressSchema" (selectorFields ++ [filled "key", millis "delay"]))
    (fun params => .onElement .press (Fields.textAt params "selector")
      (options params ["key", "delay", "timeout"]))
    fun params => "Successfully pressed key " ++ Fields.textAt params "key" ++ " on element "
      ++ Fields.textAt params "selector"

def check : ActionKind :=
  onElement "playwright:check" .check checkable ["force", "timeout"]
    fun selector => s!"Successfully checked element {selector}"

def uncheck : ActionKind :=
  onElement "playwright:uncheck" .uncheck checkable ["force", "timeout"]
    fun selector => s!"Successfully unchecked element {selector}"

/-- A single option may be given under `value`, and as a text rather than a list. -/
def acceptSingle : Json → Json
  | .object fields =>
    let fields :=
      if Fields.has fields "values" then fields
      else
        match Fields.get? fields "value" with
        | some x => Fields.set fields "values" x
        | none => fields
    match Fields.get? fields "values" with
    | some (.text s) => .object (Fields.set fields "values" (.list [.text s]))
    | _ => .object fields
  | x => x

def selectOption : ActionKind :=
  { simple "playwright:select_option"
      (model "SelectOptionSchema" (selectorFields ++ [.required "values" (.list 1 (.text 0))]))
      (fun params => .onElement .selectOption (Fields.textAt params "selector")
        (options params ["values", "timeout"]))
      (fun params => "Successfully selected options " ++ (param params "values").display
        ++ " in element " ++ Fields.textAt params "selector") with
    prepare := acceptSingle }

def hover : ActionKind :=
  onElement "playwright:hover" .hover (model "SelectorSchema" selectorFields) ["timeout"]
    fun selector => s!"Successfully hovered over element {selector}"

def scroll : ActionKind :=
  kind "playwright:scroll"
    (model "ScrollSchema" [
      .optional "selector" (.text 0),
      .withDefault "x" (.number none) (.int 0),
      .withDefault "y" (.number none) (.int 0)])
    fun ctx _ params => do
      let selector := Fields.textAt params "selector"
      if selector.isEmpty then
        let _ ← request "playwright:scroll" ctx (.onPage .wheel (options params ["x", "y"]))
        return "Successfully scrolled by (" ++ (param params "x").display ++ ", "
          ++ (param params "y").display ++ ")"
      else
        let _ ← request "playwright:scroll" ctx (.onElement .scrollIntoView selector [])
        return s!"Successfully scrolled element {selector} into view"

/-! ### Waiting -/

def waitForSelector : ActionKind :=
  onElement "playwright:wait_for_selector" .waitForSelector
    (model "WaitForSelectorSchema" (selectorFields ++ [
      .withDefault "state" (.choice ["attached", "detached", "visible", "hidden"])
        (.text "visible")]))
    ["state", "timeout"]
    fun selector => s!"Successfully waited for selector {selector}"

def waitForTimeout : ActionKind :=
  kind "playwright:wait_for_timeout"
    (model "WaitForTimeoutSchema" [.required "timeout" (.number (some 0))])
    fun ctx _ params => do
      let _ ← request "playwright:wait_for_timeout" ctx
        (.onPage .waitForTimeout (options params ["timeout"]))
      let ms := match param params "timeout" with
        | .float x => x
        | _ => .zero false
      Work.lift (Act.await (.sleep (Duration.ofMillis ms)))
      return s!"Successfully waited for {ms.toGeneral}ms"

/-! ### Extraction -/

def getText : ActionKind :=
  kind "playwright:get_text" (model "GetTextSchema" (saveFields ++ selectorFields))
    fun ctx _ params => do
      let selector := Fields.textAt params "selector"
      let reply ← request "playwright:get_text" ctx
        (.onElement .textContent selector (options params ["timeout"]))
      let text := if reply.truthy then reply else .text ""
      save params text
      return s!"Successfully got text from element {selector}: {text.display}"

def getAttribute : ActionKind :=
  kind "playwright:get_attribute"
    (model "GetAttributeSchema" (saveFields ++ selectorFields ++ [filled "attribute"]))
    fun ctx _ params => do
      let selector := Fields.textAt params "selector"
      let name := Fields.textAt params "attribute"
      let value ← request "playwright:get_attribute" ctx
        (.onElement .getAttribute selector
          [("name", .text name), ("timeout", param params "timeout")])
      save params value
      let shown := match value with
        | .null => ""
        | x => x.display
      return s!"Successfully got attribute {name} from element {selector}: {shown}"

def evaluate : ActionKind :=
  kind "playwright:evaluate" (model "EvaluateSchema" (saveFields ++ [filled "expression"]))
    fun ctx _ params => do
      let result ← request "playwright:evaluate" ctx
        (.onPage .evaluate (options params ["expression"]))
      save params result
      return s!"Successfully evaluated expression, result: {result.display}"

/-! ### Output -/

/-- The first text among parameters that says something. -/
def firstText? (params : Fields) (names : List String) : Option String :=
  (names.filterMap (Fields.text? params)).find? fun s => !s.isEmpty

def screenshot : ActionKind :=
  kind "playwright:screenshot"
    (model "ScreenshotSchema" [
      .optional "path" (.text 0), .optional "r2_key" (.text 0),
      .withDefault "full_page" .boolean (.bool false)])
    fun ctx frame params => do
      let type := "playwright:screenshot"
      if !ctx.hasStorage then
        Work.lift (Act.fail (.error
          (.browser s!"{type} requires a storage service" (some type) none)))
      requirePage type ctx
      let data ← Work.lift (Act.attempt (Program.ask
        (.screenshot ctx.loopIndex (options params ["full_page"]))))
      let key ← match firstText? params ["r2_key", "path"] with
        | some key => pure key
        | none => Work.lift (Act.resolving ctx fun env =>
            Template.resolveText env defaultScreenshotPath)
      let url ← Work.lift (Act.attempt (Program.ask (.upload key data "image/png")))
      Work.lift (Act.emitOutputFile ctx frame url)
      return s!"Successfully took screenshot and uploaded to {url}"

/-- The level that a word of the log action names. -/
def levelOf : String → LogLevel
  | "debug" => .debug
  | "warn" | "warning" => .warning
  | "error" => .error
  | _ => .info

/-- Writes a message into the log. It needs no page. -/
def log : ActionKind :=
  { type := "playwright:log"
    schema := model "LogSchema" [
      .required "message" (.text 0),
      .withDefault "level" (.choice ["debug", "info", "warn", "warning", "error"]) (.text "info")]
    wrap := ActionKind.plainWrap "playwright:log"
    behave := fun ctx _ frame params => do
      let message := Fields.textAt params "message"
      let level := Fields.textAt params "level"
      Work.lift (Act.logBound ctx (levelOf level) "automation_log"
        [("message", .text message), ("action_id", .text frame.actionId)])
      return s!"[{level.toUpper}] {message}" }

/-- The actions on the page. -/
def kinds : List ActionKind := [
  goto, click, fill, type, press, check, uncheck, selectOption, waitForSelector, waitForTimeout,
  screenshot, evaluate, hover, scroll, getText, getAttribute, waitForLoadState, setViewport,
  reload, goBack, goForward, log]

end Runbook.Browser
