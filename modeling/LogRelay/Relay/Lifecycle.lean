/-!
# The life of a relay

A relay is created, runs after it has been started, and stops once.
-/

namespace LogRelay

/-- Misuse of the relay's life. -/
inductive LifecycleError where
  | alreadyStarted
  | alreadyStopped
  /-- It is to be stopped without having been started. -/
  | notStarted
deriving DecidableEq, Inhabited

namespace LifecycleError

/-- The message of an error. -/
def message : LifecycleError → String
  | alreadyStarted => "Broadcaster is already started"
  | alreadyStopped => "Broadcaster is already stopped"
  | notStarted => "Broadcaster was never started"

/-- The error as diagnostics show it. -/
def report : LifecycleError → String
  | alreadyStarted => "AlreadyStarted"
  | alreadyStopped => "AlreadyStopped"
  | notStarted => "NotStarted"

end LifecycleError

/-- Where a relay stands in its life. -/
inductive Lifecycle where
  | created
  | running
  | stopped
deriving DecidableEq, Inhabited

namespace Lifecycle

/-- What starting does. -/
def start? : Lifecycle → Except LifecycleError Lifecycle
  | created => .ok running
  | _ => .error .alreadyStarted

/-- What stopping does. -/
def stop? : Lifecycle → Except LifecycleError Lifecycle
  | created => .error .notStarted
  | running => .ok stopped
  | stopped => .error .alreadyStopped

end Lifecycle

end LogRelay
