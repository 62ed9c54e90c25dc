import LogRelay.Scenario.Client

/-!
# A relay and its client, taking turns

The tasks of the relay take turns in a queue.  A task joins the queue when it comes into
being, and later whenever it becomes able to go on; of the tasks that join at the same
time those that have just come into being are first.  A turn lasts until the task has to
wait, or until it has done as much as one turn allows; the task then joins the queue again at
the end of the round, which is when the queue is empty or after a limited number of
turns.  No time passes while there is a task that can go on.
-/

namespace LogRelay

/-- An answer that the client will give. -/
structure DueAnswer where
  request : ClientRequest
  number : Nat
  time : Nat
  outcome : Outcome

/-- A relay and its client. -/
structure World where
  machine : Machine
  client : ScriptedClient := {}
  /-- The answer that the client will give. -/
  due : Option DueAnswer := none
  /-- The tasks that wait for their turn, the next one first. -/
  queue : List Task := []
  /-- The tasks that have done as much as one turn allows, until the end of the round. -/
  spent : List Task := []

namespace World

/-- How much work a turn can have. -/
def workPerTurn : Nat := 128

/-- The number of turns in a round. -/
def turnsPerRound : Nat := 61

/-- The number of turns after which a relay that never comes to rest is left alone. -/
def turnLimit : Nat := 1000000

/-- Lets the tasks join the queue that are not among those `before`, and those that can go on
now. -/
def refresh (world : World) (before : List Task) (running : Option Task) : World :=
  let (old, new) := world.machine.tasks.partition before.contains
  let joins (task : Task) : Bool :=
    running != some task && !world.queue.contains task && !world.spent.contains task &&
      world.machine.canStep task
  { world with queue := world.queue ++ new ++ old.filter joins }

/-- Changes the relay from outside. -/
def act (world : World) (change : Machine → Machine) : World :=
  { world with machine := change world.machine }.refresh world.machine.tasks none

/-- The client takes note of the last request of the relay. -/
def consult (world : World) : World :=
  match world.machine.phase.attempt? with
  | some (.asking request number _) =>
      let (outcome, client) := world.client.next request
      if outcome.delay = 0 then
        { world with
          client
          machine := client.answer world.machine request number outcome.final
          due := none }
      else
        { world with
          client
          due := some ⟨request, number, world.machine.now + outcome.delay, outcome.final⟩ }
  | _ => world

/-- One step of a task. -/
def step? (world : World) (task : Task) : Option World := do
  let machine ← world.machine.step? task
  let after := { world with machine }
  let after :=
    if machine.requestCount = world.machine.requestCount then after else after.consult
  return after.refresh world.machine.tasks (some task)

/-- Whether the next step of a task is no work: a stage that takes a log from a batch. -/
def isFree (world : World) : Task → Bool
  | .stage id => world.machine.pipeline.takesFromBatch id
  | _ => false

/-- A turn of a task with so much work left; `steps` is a bound on the number of steps. -/
def turn (task : Task) : (steps work : Nat) → World → World
  | _, 0, world | 0, _, world =>
      if world.machine.canStep task then { world with spent := world.spent ++ [task] } else world
  | steps + 1, work + 1, world =>
      match world.step? task with
      | none => world
      | some after => turn task steps (if world.isFree task then work + 1 else work) after

/-- Turns until no task can go on; `left` turns are left in the round. -/
def settle : (turns left : Nat) → World → World
  | 0, _, world => world
  | turns + 1, left, world =>
      match world.queue, left with
      | task :: queue, left + 1 =>
          settle turns left (turn task (2 * workPerTurn + 1) workPerTurn { world with queue })
      | queue, _ =>
          if queue.isEmpty && world.spent.isEmpty then world
          else settle turns turnsPerRound { world with queue := queue ++ world.spent, spent := [] }

/-- Turns until no task can go on. -/
def rest (world : World) : World := settle turnLimit turnsPerRound world

/-- The client gives the answer that is due. -/
def deliver (world : World) : World :=
  match world.due with
  | none => world
  | some due =>
      if due.time ≤ world.machine.now && world.machine.awaits due.number then
        { world with due := none }.act fun machine =>
          world.client.answer machine due.request due.number due.outcome
      else world

/-- The next time at which something happens by itself. -/
def nextTime? (world : World) : Option Nat :=
  let answer := world.due.bind fun due =>
    if world.machine.awaits due.number then some due.time else none
  match answer, world.machine.nextWakeUp? with
  | some first, some second => some (min first second)
  | first, second => first.or second

/-- Lets time pass up to `time`, stopping whenever something happens. -/
def passTo (time : Nat) : (stops : Nat) → World → World
  | 0, world => world
  | stops + 1, world =>
      match world.nextTime? with
      | some next =>
          if next ≤ time then
            passTo time stops ((world.act fun machine => machine.advanceTo next).deliver.rest)
          else world.act fun machine => machine.advanceTo time
      | none => world.act fun machine => machine.advanceTo time

/-- Lets so many milliseconds pass. -/
def pass (world : World) (millis : Nat) : World :=
  passTo (world.machine.now + millis) (millis + turnLimit) world

end World

end LogRelay
