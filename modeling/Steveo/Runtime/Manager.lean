/-!
# The manager

The manager holds the state that the runner of an instance polls, and everyone may set it.
-/

namespace Steveo

/-- The states of the manager. -/
inductive RunnerState
  | running
  | paused
  | terminating
  | terminated
  deriving DecidableEq

/-- Whether the manager wants the runners to stop. -/
def RunnerState.shouldTerminate : RunnerState → Bool
  | .terminating | .terminated => true
  | .running | .paused => false

end Steveo
