import Runbook.Action.Api
import Runbook.Action.LoopUntil
import Runbook.Action.Storage

/-!
# The catalogue

All built-in kinds of action, and the registry that holds them.
-/

namespace Runbook.Catalogue

/-- The built-in kinds. -/
def kinds : List ActionKind :=
  Browser.kinds ++ [IfElse.kind, LoopUntil.kind] ++ Api.kinds ++ StoredFiles.kinds

/-- A registry that holds some kinds and takes no more. -/
def registryOf (kinds : List ActionKind) : Registry ActionKind :=
  Registry.freeze
    (kinds.foldl (fun r k => { r with entries := Registry.put k.type k r.entries }) {})

/-- The built-in registry. -/
def registry : Registry ActionKind := registryOf kinds

end Runbook.Catalogue
