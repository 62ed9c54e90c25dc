import LogRelay.Relay.Control

/-!
# The steps of a relay

The tasks of a relay are the control task, the stages of its log stream and the calls
that are being made to it.  A task that can go on takes one step at a time, in any
order (`Machine.step?`).  Between the steps the world outside acts on the relay: time
passes, calls are made, and the client answers, sends logs and reports failures.
-/

namespace LogRelay

/-- A task of a relay. -/
inductive Task where
  | control
  /-- The stage of the log stream with the given number. -/
  | stage (id : Nat)
  /-- The call with the given number. -/
  | caller (id : CallerId)
deriving DecidableEq, Inhabited

namespace Machine

/-! ## Calls -/

/-- What a call returns when its request is not handled. -/
def refusal : Command → CallResult
  | .register .. => .registered false
  | .unregister .. => .unregistered

/-- What a call returns when its request was handled. -/
def acceptance (connected : Bool) : Command → CallResult
  | .register .. => .registered connected
  | .unregister .. => .unregistered

/-- Moves a call on. -/
def progress (machine : Machine) (id : CallerId) (progress : CallProgress CallResult) : Machine :=
  machine.changeCaller (fun caller => { caller with progress }) id

/-- One step of a call with a request. -/
def stepCommand? (machine : Machine) (id : CallerId) (command : Command)
    (progress : CallProgress CallResult) : Option Machine :=
  let refused : Machine :=
    { machine with mailbox := machine.mailbox.leave id }.progress id (.done (refusal command))
  let posted : Machine :=
    { machine with mailbox := machine.mailbox.put id command }.progress id .posted
  match progress with
  | .fresh =>
      if machine.signalled || !machine.mailbox.isOpen then some refused
      else if machine.mailbox.hasRoom then some posted
      else
        some ({ machine with mailbox := machine.mailbox.enqueue id }.progress id .inLine)
  | .inLine =>
      if machine.signalled || !machine.mailbox.isOpen then some refused
      else if machine.mailbox.granted.contains id then some posted
      else none
  | .posted => if machine.signalled then some refused else none
  | .answered answer =>
      if machine.signalled then some refused
      else some (machine.progress id (.done (acceptance (answer.getD false) command)))
  | .joining | .done _ => none

/-- One step of a call that stops the relay. -/
def stepStop? (machine : Machine) (id : CallerId) (progress : CallProgress CallResult) :
    Option Machine :=
  match progress with
  | .fresh =>
      match machine.lifecycle.stop? with
      | .error error => some (machine.progress id (.done (.stopped (.error error))))
      | .ok lifecycle => some ({ machine with lifecycle, raised := true }.progress id .joining)
  | .joining =>
      if machine.phase.isOver then some (machine.progress id (.done (.stopped (.ok ()))))
      else none
  | _ => none

/-- One step of a call. -/
def stepCaller? (machine : Machine) (id : CallerId) : Option Machine := do
  let caller ← machine.callers[id]?
  match caller.request with
  | .command command => machine.stepCommand? id command caller.progress
  | .stop => machine.stepStop? id caller.progress

/-! ## Tasks -/

/-- One step of a stage. -/
def stepStage? (machine : Machine) (id : Nat) : Option Machine := do
  let (pipeline, subscriptions) ←
    machine.pipeline.step? machine.signalled machine.parameters.logRoom id machine.subscriptions
  return { machine with pipeline, subscriptions }

/-- One step of a task; `none` if it has to wait or is over. -/
def step? (machine : Machine) : Task → Option Machine
  | .control => machine.stepControl?
  | .stage id => machine.stepStage? id
  | .caller id => machine.stepCaller? id

/-- Whether a task can go on. -/
def canStep (machine : Machine) (task : Task) : Bool := (machine.step? task).isSome

/-- All tasks: the stages and the calls in the order in which they came into being, and
the control task. -/
def tasks (machine : Machine) : List Task :=
  .control :: (machine.pipeline.reverse.map fun stage => .stage stage.id) ++
    (List.range machine.callers.length).map .caller

/-! ## The world outside -/

/-- Starts the relay. -/
def start (machine : Machine) : Except LifecycleError Machine := do
  let lifecycle ← machine.lifecycle.start?
  return { machine with lifecycle, phase := .waiting }

/-- A call is made; its number is the number of calls before it. -/
def call (machine : Machine) (request : CallRequest) : Machine :=
  { machine with callers := machine.callers ++ [{ request }] }

/-- Time passes. -/
def advanceTo (machine : Machine) (time : Nat) : Machine :=
  { machine with now := max machine.now time }

/-- The last handle is given up. -/
def release (machine : Machine) : Machine := { machine with held := false }

/-- Whether the request with the given number waits for its answer. -/
def awaits (machine : Machine) (number : Nat) : Bool :=
  match machine.phase.attempt? with
  | some (.asking _ asked _) => asked == number && machine.answer.isNone
  | _ => false

/-- The client answers a request; an answer that nobody waits for is ignored. -/
def reply (machine : Machine) (number : Nat) (answer : ClientAnswer) : Machine :=
  if machine.awaits number then { machine with answer := some answer } else machine

/-- The client makes a subscription, whose number is the number of those before it. -/
def openSubscription (machine : Machine) (room : ChannelRoom) : Machine :=
  { machine with subscriptions := machine.subscriptions ++ [{ room }] }

/-- The client sends a log. -/
def push (machine : Machine) (number : Nat) (log : RawLog) : SendResult × Machine :=
  match machine.subscriptions[number]? with
  | none => (.missing, machine)
  | some subscription =>
      match subscription.push log with
      | (.taken, subscription) =>
          (.taken,
            { machine with subscriptions := machine.subscriptions.set number subscription }.emit
              (.accepted number log))
      | (result, _) => (result, machine)

/-- The client reports a failure. -/
def fail (machine : Machine) (number : Nat) (error : ClientError) : SendResult × Machine :=
  match machine.subscriptions[number]? with
  | none => (.missing, machine)
  | some subscription =>
      let (result, subscription) := subscription.fail error
      (result, { machine with subscriptions := machine.subscriptions.set number subscription })

/-- More services are declared; `none` if they are too many. -/
def addDependents? (machine : Machine) (count : Nat) : Option Machine := do
  return { machine with dependents := ← machine.dependents.add? count }

/-- One service reports that it is ready. -/
def dependentReady (machine : Machine) : Machine :=
  { machine with dependents := machine.dependents.ready }

/-- The relay as diagnostics show it. -/
def report (machine : Machine) : String :=
  Text.reportPart "Broadcaster"
    [("connected", toString machine.connected),
     ("pending_dependents", toString machine.dependents.pending)]

end Machine

end LogRelay
