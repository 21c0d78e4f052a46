import Mathlib.Data.List.Basic

/-!
# Asynchronous waits

The waits on a timer or on a file descriptor.  A wait is pending until its event
occurs, when its completion is queued, or until it is cancelled; cancelling does
not reach a completion which is already queued.
-/

namespace Rousette.Library

/-- Progress of an asynchronous wait. -/
inductive WaitStatus where
  | pending
  /-- the completion is queued, and will run with success -/
  | expired
  | aborted
  deriving DecidableEq, Repr

/-- Cancel a wait. -/
def WaitStatus.cancel : WaitStatus → WaitStatus
  | .pending => .aborted
  | .expired => .expired
  | .aborted => .aborted

end Rousette.Library
