import Memorist.Text.Unicode

/-!
The scope of a preflight (`memory_control/full_retrieval.py`).

* `PreflightScope`: the session of a preflight, with its project, its workspace and the text of its
  message;
* `PreflightScope.admits`: what belongs to the session, its project or its workspace.
-/

namespace Memorist

/-- The row of `_scope`. -/
structure PreflightScope where
  sessionUuid : String
  projectUuid : Option String := none
  workspaceUuid : Option String := none
  rawText : Text := []
  deriving DecidableEq

/-- Whether a scope is the session, its project or its workspace. -/
def PreflightScope.admits (scope : PreflightScope) (scopeType : String)
    (scopeUuid : Option String) : Bool :=
  (scopeType = "session" && scopeUuid = some scope.sessionUuid) ||
    (scopeType = "project" && scope.projectUuid.isSome && scopeUuid = scope.projectUuid) ||
    (scopeType = "workspace" && scope.workspaceUuid.isSome && scopeUuid = scope.workspaceUuid)

end Memorist
