import Runbook.Error
import Runbook.Json.Display
import Runbook.Page.Call

/-!
# Scripted pages

A page that answers from a script. The script says in which states its elements are, what a series
of questions about an element brings one after another, which texts and attributes there are, and
what fails. The page notes every request that it carries out; questions about states leave no note.
-/

namespace Runbook.Rehearsal

/-- What a page is to answer. -/
structure PageScript where
  /-- The states of each element. -/
  states : Fields := []
  /-- Answers to questions about the state of an element, one after another; the last one stays. -/
  series : Fields := []
  texts : Fields := []
  attributes : Fields := []
  /-- Elements that are not there. -/
  missing : List String := []
  /-- Requests about the whole page that fail. -/
  failing : List String := []
  /-- Operations that the page cannot carry out at all, each with the failure that it brings. -/
  unsupported : List (PageOperation × Fault) := []
  result : Json := .null

/-- A scripted page in use. -/
structure Page where
  script : PageScript := {}
  /-- The requests that were carried out. -/
  calls : List Json := []
  /-- The questions that were answered from a series. -/
  asked : List (String × String) := []

namespace PageScript

/-- The texts in a list. -/
def textsIn (items : List Json) : List String := items.filterMap Json.text?

/-- A script from a document. -/
def ofJson (x : Json) : PageScript :=
  let f := x.fields
  { states := Fields.objectAt f "states"
    series := Fields.objectAt f "sequence"
    texts := Fields.objectAt f "texts"
    attributes := Fields.objectAt f "attributes"
    missing := textsIn (Fields.listAt f "failing")
    failing := textsIn (Fields.listAt f "failing_calls")
    result := (Fields.get? f "eval_result").getD .null }

/-- The answers to a question that come one after another. -/
def seriesOf (script : PageScript) (selector state : String) : List Json :=
  Fields.listAt (Fields.objectAt script.series selector) state

end PageScript

namespace Page

/-- The failure when an element is not there. -/
def notFound (selector : String) : Fault := .failure s!"element {selector} not found"

/-- What a script says about the state of an element. -/
def stateOf (p : Page) (selector state : String) : Except Fault Json × Page :=
  if p.script.missing.contains selector then (.error (notFound selector), p)
  else
    match p.script.seriesOf selector state with
    | [] =>
      let states := PageScript.textsIn (Fields.listAt p.script.states selector)
      (.ok (.bool (states.contains state)), p)
    | items =>
      let position := (p.asked.filter (· == (selector, state))).length
      let p := { p with asked := (selector, state) :: p.asked }
      match items[min position (items.length - 1)]? with
      | some (.text s) => (.error (.failure s), p)
      | some x => (.ok x, p)
      | none => (.ok (.bool false), p)

/-- Notes a request. -/
def note (p : Page) (c : PageCall) : Page :=
  { p with calls := p.calls ++ [
      .list [.text c.operation.word, c.selector.getD .null, .object c.options]] }

/-- What a request brings. -/
def reply (p : Page) (c : PageCall) (selector : String) : Json :=
  match c.operation with
  | .textContent => (Fields.get? p.script.texts selector).getD .null
  | .getAttribute =>
    (Fields.get? (Fields.objectAt p.script.attributes selector)
      (Fields.textAt c.options "name")).getD .null
  | .evaluate => p.script.result
  | _ => .null

/-- Why a request fails, if it does. -/
def refusal? (p : Page) (c : PageCall) : Option Fault :=
  match c.selector with
  | none =>
    if p.script.failing.contains c.operation.word then
      some (.failure s!"{c.operation.word} failed")
    else none
  | some x =>
    let selector := x.display
    let isMissing := p.script.missing.contains selector
    match c.operation with
    | .waitForSelector =>
      if p.script.failing.contains c.operation.word then
        some (.failure s!"{c.operation.word} failed")
      else if isMissing then some (.failure s!"Timeout waiting for {selector}")
      else none
    | _ => if isMissing then some (notFound selector) else none

/-- Carries out a request. -/
def request (p : Page) (c : PageCall) : Except Fault Json × Page :=
  let selector := (c.selector.map Json.display).getD ""
  match p.script.unsupported.lookup c.operation with
  | some f => (.error f, p)
  | none =>
    match c.operation with
    | .state s => p.stateOf selector s.word
    | _ =>
      match p.refusal? c with
      | some f => (.error f, p)
      | none => (.ok (p.reply c selector), p.note c)

/-- The bytes of every picture. -/
def picture : List UInt8 := [80, 78, 71]

/-- Takes a picture. -/
def screenshot (p : Page) (options : Fields) : Except Fault (List UInt8) × Page :=
  let (result, p) := p.request { operation := .screenshot, options }
  (result.map fun _ => picture, p)

end Page

end Runbook.Rehearsal
