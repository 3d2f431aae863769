import Runbook.Condition.Element
import Runbook.Json.Basic

/-!
# Requests to a page

What a run may ask of a browser page: a named operation, the element it is about if any, and its
options. An option that is not set is left out. The page answers with a document: the text of an
element, the value of an attribute, the result of an expression, or null.
-/

namespace Runbook

/-- An operation of a page. -/
inductive PageOperation where
  | goto
  | reload
  | goBack
  | goForward
  | setViewportSize
  | setDefaultTimeout
  | waitForLoadState
  | waitForSelector
  | waitForTimeout
  | evaluate
  | wheel
  | screenshot
  | click
  | fill
  | type
  | press
  | check
  | uncheck
  | selectOption
  | hover
  | scrollIntoView
  | textContent
  | getAttribute
  /-- Whether an element is in a state. -/
  | state (s : ElementState)
  deriving DecidableEq, Repr

/-- The name of an operation. -/
def PageOperation.word : PageOperation → String
  | goto => "goto"
  | reload => "reload"
  | goBack => "go_back"
  | goForward => "go_forward"
  | setViewportSize => "set_viewport_size"
  | setDefaultTimeout => "set_default_timeout"
  | waitForLoadState => "wait_for_load_state"
  | waitForSelector => "wait_for_selector"
  | waitForTimeout => "wait_for_timeout"
  | evaluate => "evaluate"
  | wheel => "wheel"
  | screenshot => "screenshot"
  | click => "click"
  | fill => "fill"
  | type => "type"
  | press => "press"
  | check => "check"
  | uncheck => "uncheck"
  | selectOption => "select_option"
  | hover => "hover"
  | scrollIntoView => "scroll_into_view"
  | textContent => "text_content"
  | getAttribute => "get_attribute"
  | state s => s.word

/-- A request to a page. -/
structure PageCall where
  operation : PageOperation
  /-- The element it is about: a text, unless a definition gives something else. -/
  selector : Option Json := none
  options : Fields := []

namespace PageCall

/-- The options that are set. -/
def given (options : Fields) : Fields :=
  options.filter fun
    | (_, .null) => false
    | _ => true

/-- A request about the page as a whole. -/
def onPage (operation : PageOperation) (options : Fields) : PageCall :=
  { operation, options := given options }

/-- A request about an element. -/
def onElement (operation : PageOperation) (selector : String) (options : Fields) : PageCall :=
  { operation, selector := some (.text selector), options := given options }

end PageCall

end Runbook
