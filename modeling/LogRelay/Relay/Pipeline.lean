import LogRelay.Relay.Subscription

/-!
# The log stream

The relay reads its logs from a pipeline of stages.  Every stage first forwards what
is left of the stages before it and then the logs of a source of its own: a batch of
fetched logs or a live subscription.  It holds at most one log in its hands, and puts
it into an outlet of limited room, from which the next stage, or the relay itself,
takes it.

A pipeline is the list of its stages, the newest first, so that the stages which a
stage reads from are the rest of the list.  Once they are exhausted they are dropped.
All stages stop when the shutdown signal is raised.
-/

namespace LogRelay

/-- Where a stage has its own logs from. -/
inductive LogSource where
  /-- Logs that were fetched. -/
  | batch (logs : List RawLog)
  /-- The live subscription with the given number. -/
  | live (subscription : Nat)
deriving Inhabited

/-- A stage of the pipeline. -/
structure Stage where
  id : Nat
  source : LogSource
  /-- The log in its hands. -/
  held : Option RawLog := none
  /-- The logs that can be taken from it, the oldest first. -/
  outlet : List RawLog := []
  finished : Bool := false
deriving Inhabited

/-- The stages, the newest first. -/
abbrev Pipeline := List Stage

/-- The live subscriptions, by number. -/
abbrev Subscriptions := List ClientSubscription

namespace Subscriptions

/-- Changes the subscription with the given number. -/
def change (f : ClientSubscription → ClientSubscription) (number : Nat)
    (subscriptions : Subscriptions) : Subscriptions :=
  subscriptions.modify number f

end Subscriptions

namespace LogSource

/-- Lets go of the source. -/
def drop (source : LogSource) (subscriptions : Subscriptions) : Subscriptions :=
  match source with
  | batch _ => subscriptions
  | live number => subscriptions.change ClientSubscription.dropLogs number

/-- Looks for a log. -/
def receive (source : LogSource) (subscriptions : Subscriptions) :
    ClientSubscription.Arrival × LogSource × Subscriptions :=
  match source with
  | batch [] => (.ended, batch [], subscriptions)
  | batch (log :: rest) => (.log log, batch rest, subscriptions)
  | live number =>
      match subscriptions[number]? with
      | none => (.ended, source, subscriptions)
      | some subscription =>
          let (arrival, subscription) := subscription.receive
          (arrival, source, subscriptions.set number subscription)

end LogSource

namespace Stage

/-- A stage that stops at once, letting go of everything but its outlet. -/
def stop (stage : Stage) : Stage :=
  { stage with held := none, source := .batch [], finished := true }

end Stage

namespace Pipeline

/-- What a reader of the pipeline finds. -/
def receive : Pipeline → ClientSubscription.Arrival × Pipeline
  | [] => (.ended, [])
  | stage :: before =>
      match stage.outlet with
      | log :: rest => (.log log, { stage with outlet := rest } :: before)
      | [] => if stage.finished then (.ended, []) else (.nothing, stage :: before)

/-- One step of the newest stage, reading from the stages before it; `none` if it has to
wait. -/
def stepNewest? (raised : Bool) (room : Nat) (stage : Stage) (before : Pipeline)
    (subscriptions : Subscriptions) : Option (Pipeline × Subscriptions) :=
  if stage.finished then none
  else if raised then some (stage.stop :: before, stage.source.drop subscriptions)
  else
    match stage.held with
    | some log =>
        if stage.outlet.length < room then
          some ({ stage with outlet := stage.outlet ++ [log], held := none } :: before,
            subscriptions)
        else none
    | none =>
        match before with
        | [] =>
            match stage.source.receive subscriptions with
            | (.log log, source, subscriptions) =>
                some ([{ stage with source, held := some log }], subscriptions)
            | (.ended, source, subscriptions) =>
                some ([stage.stop], source.drop subscriptions)
            | (.nothing, _, _) => none
        | before =>
            match receive before with
            | (.log log, before) => some ({ stage with held := some log } :: before, subscriptions)
            | (.ended, _) => some ([stage], subscriptions)
            | (.nothing, _) => none

/-- One step of the stage with the given number; `none` if it has to wait or does not exist. -/
def step? (raised : Bool) (room id : Nat) (subscriptions : Subscriptions) :
    Pipeline → Option (Pipeline × Subscriptions)
  | [] => none
  | stage :: before =>
      if stage.id = id then stepNewest? raised room stage before subscriptions
      else (step? raised room id subscriptions before).map fun (before, subscriptions) =>
        (stage :: before, subscriptions)

/-- Whether the stage with the given number is about to take a log from a batch. -/
def takesFromBatch (id : Nat) : Pipeline → Bool
  | [] => false
  | stage :: before =>
      if stage.id = id then
        before.isEmpty && stage.held.isNone &&
          match stage.source with
          | .batch logs => !logs.isEmpty
          | .live _ => false
      else takesFromBatch id before

/-- Whether all stages have stopped. -/
def allFinished (pipeline : Pipeline) : Bool := pipeline.all (·.finished)

/-- Stops all stages at once. -/
def abort (pipeline : Pipeline) (subscriptions : Subscriptions) : Pipeline × Subscriptions :=
  (pipeline.map Stage.stop,
    pipeline.foldl (fun subscriptions stage => stage.source.drop subscriptions) subscriptions)

end Pipeline

end LogRelay
