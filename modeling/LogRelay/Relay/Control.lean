import LogRelay.Relay.Machine

/-!
# The control task

One step of the control task does what is possible now and most urgent.  While the
relay waits for other services that is, in this order: ending, beginning the first
pass, and handling requests.  While it processes: ending, noting that the subscription
is lost, looking at whether the addresses have changed, handling requests, and
delivering logs.  Requests wait while it subscribes or fetches.

Registering a listener twice for the same address breaks the control task down, as do
a listener that breaks down on a log, a debounce time of zero, and a room for logs that no
channel can have.
-/

namespace LogRelay.Machine

/-! ## Notifications -/

/-- Emits one effect for each pair of the registry. -/
def emitForAll (machine : Machine) (effect : Address → ListenerId → Effect) : Machine :=
  machine.registry.pairs.foldl (fun machine pair => machine.emit (effect pair.1 pair.2)) machine

/-- Says from now on that the relay is connected, or that it is not. -/
def switch (machine : Machine) (connected : Bool) : Machine :=
  { machine with connected }.emit (.switched connected)

/-- Tells all listeners that they are connected. -/
def notifyConnected (machine : Machine) : Machine :=
  (machine.switch true).emitForAll .connected

/-- Tells all listeners that they are disconnected. -/
def notifyDisconnected (machine : Machine) : Machine :=
  (machine.switch false).emitForAll .disconnected

/-! ## Subscriptions -/

/-- Closes a subscription and has the client tear it down, unless that was done before. -/
def unsubscribe (machine : Machine) (number : Nat) : Machine :=
  match machine.subscriptions[number]? with
  | none => machine
  | some subscription =>
      if subscription.unsubscribed then machine
      else (machine.changeSubscription ClientSubscription.close number).emit (.unsubscribed number)

/-- Closes a subscription, if there is one, and lets go of its failures. -/
def discard (machine : Machine) : Option Nat → Machine
  | none => machine
  | some number => (machine.unsubscribe number).changeSubscription .dropFailures number

/-- Closes a subscription whose logs have not become part of the log stream. -/
def discardUnused (machine : Machine) : Option Nat → Machine
  | none => machine
  | some number => (machine.discard (some number)).changeSubscription .dropLogs number

/-! ## Ends -/

/-- Answers a call whose request is in the mailbox. -/
def answerCaller (machine : Machine) (answer : Option Bool) (caller : CallerId) : Machine :=
  machine.changeCaller (fun caller =>
    match caller.progress with
    | .posted => { caller with progress := .answered answer }
    | _ => caller) caller

/-- Takes out no more requests and gives up those that are there. -/
def closeMailbox (machine : Machine) : Machine :=
  machine.mailbox.requests.foldl (fun machine request => machine.answerCaller none request.1)
    { machine with mailbox := machine.mailbox.close }

/-- The control task breaks down; `fresh` is a subscription that is not in use yet. -/
def crash (machine : Machine) (fresh : Option Nat) : Machine :=
  let machine := (machine.discardUnused fresh).discard machine.current
  let (pipeline, subscriptions) := machine.pipeline.abort machine.subscriptions
  { machine with pipeline, subscriptions, phase := .crashed }.closeMailbox

/-- The control task begins to end; `fresh` is a subscription that is not in use yet. -/
def leave (machine : Machine) (fresh : Option Nat) : Machine :=
  let machine := machine.discardUnused fresh
  let machine := if machine.connected then machine.notifyDisconnected else machine
  { machine.discard machine.current with phase := .joining }

/-! ## Passes -/

/-- Adds a stage to the log stream. -/
def appendStage (machine : Machine) (source : LogSource) : Machine :=
  { machine with
    pipeline := { id := machine.stageCount, source } :: machine.pipeline
    stageCount := machine.stageCount + 1 }

/-- Where the logs of a subscription come from. -/
def sourceOf : Option Nat → LogSource
  | none => .batch []
  | some number => .live number

/-- Takes a new subscription and earlier logs into use: both become part of the log stream, the
subscription before is closed, and all listeners are told that they are connected. -/
def adopt (machine : Machine) (fresh : Option Nat) (logs : List RawLog) : Machine :=
  let machine := (machine.appendStage (.batch logs)).appendStage (sourceOf fresh)
  { machine.discard machine.current with current := fresh }.notifyConnected

/-- Begins to process with a new subscription and earlier logs. -/
def completePass (machine : Machine) (fresh : Option Nat) (logs : List RawLog) : Machine :=
  let machine := machine.emit (.gathered logs fresh)
  if RelayParameters.greatestRoom < machine.parameters.logRoom then machine.crash fresh
  else
    let machine := machine.adopt fresh logs
    if machine.parameters.debounce = 0 then machine.crash none
    else
      { machine with phase := .processing (machine.now + machine.parameters.debounce) false true }

/-- Begins a pass.  Without addresses there is nothing to ask the client for. -/
def beginPass (machine : Machine) : Machine :=
  let addresses := machine.registry.addresses
  let machine := machine.emit (.began addresses)
  if addresses.isEmpty then machine.completePass none []
  else { machine with phase := .subscribing addresses 0 .due }

/-! ## Attempts -/

/-- The greatest number of failures that is told apart. -/
def greatestFailureCount : Nat := 4294967295

/-- The number of failures after one more. -/
def oneMore (failures : Nat) : Nat := min (failures + 1) greatestFailureCount

/-- When the next attempt begins. -/
def restUntil (machine : Machine) (failures : Nat) : Attempt :=
  .resting (machine.now + machine.parameters.delay failures)

/-- Makes a request to the client. -/
def ask (machine : Machine) (request : ClientRequest) (deadline : Nat)
    (phase : Attempt → Phase) : Machine :=
  { machine.emit (.asked request) with
    phase := phase (.asking request machine.requestCount deadline)
    requestCount := machine.requestCount + 1
    answer := none }

/-- The first block of interest below the head. -/
def startBlock (head depth : Nat) : Nat := head - depth

/-- Waits before it subscribes again. -/
def retrySubscribing (machine : Machine) (addresses : List Address) (failures : Nat) : Machine :=
  { machine with
    phase := .subscribing addresses (oneMore failures) (machine.restUntil (oneMore failures)) }

/-- One step of subscribing. -/
def stepSubscribing? (machine : Machine) (addresses : List Address) (failures : Nat) :
    Attempt → Option Machine
  | .due =>
      some (machine.ask (.subscribe (.ofAddresses addresses))
        (machine.now + machine.parameters.createTimeout) (.subscribing addresses failures))
  | .resting wakeUp =>
      if wakeUp ≤ machine.now then
        some { machine with phase := .subscribing addresses failures .due }
      else none
  | .asking request _ deadline =>
      match machine.answer with
      | some (.subscribed number) =>
          some { machine.emit (.answered request (.subscribed number)) with
            phase := .backfilling (some number) machine.registry.addresses 0 .due }
      | some answer =>
          some ((machine.emit (.answered request answer)).retrySubscribing addresses failures)
      | none =>
          if deadline ≤ machine.now then
            some ((machine.emit (.gaveUp request)).retrySubscribing addresses failures)
          else none

/-- Waits before it fetches again. -/
def retryBackfilling (machine : Machine) (fresh : Option Nat) (addresses : List Address)
    (failures : Nat) : Machine :=
  { machine with
    phase := .backfilling fresh addresses (oneMore failures)
      (machine.restUntil (oneMore failures)) }

/-- One step of fetching. -/
def stepBackfilling? (machine : Machine) (fresh : Option Nat) (addresses : List Address)
    (failures : Nat) : Attempt → Option Machine
  | .due =>
      some (machine.ask .header (machine.now + machine.parameters.requestTimeout)
        (.backfilling fresh addresses failures))
  | .resting wakeUp =>
      if wakeUp ≤ machine.now then
        some { machine with phase := .backfilling fresh addresses failures .due }
      else none
  | .asking request _ deadline =>
      match machine.answer with
      | some answer =>
          let machine := machine.emit (.answered request answer)
          match request, answer with
          | .header, .header (some header) =>
              let start := startBlock header.number.toNat machine.parameters.depth
              let query := (FilterQuery.ofAddresses addresses).startingAt (UInt64.ofNat start)
              some (machine.ask (.filter query) deadline (.backfilling fresh addresses failures))
          | .filter _, .logs logs => some (machine.completePass fresh logs)
          | _, _ => some (machine.retryBackfilling fresh addresses failures)
      | none =>
          if deadline ≤ machine.now then
            some ((machine.emit (.gaveUp request)).retryBackfilling fresh addresses failures)
          else none

/-! ## Requests and logs -/

/-- Handles a request and tells whether the addresses have changed; `none` if the control task
breaks down. -/
def handle? (machine : Machine) (caller : CallerId) (command : Command) :
    Option (Bool × Machine) :=
  let machine := machine.emit (.handled caller command)
  match command with
  | .register address listener => do
      let (changed, registry) ← machine.registry.add? address listener
      return (changed, { machine with registry }.answerCaller (some machine.connected) caller)
  | .unregister address listener =>
      let machine := machine.emit (.disconnected address listener)
      let (changed, registry) := machine.registry.remove address listener
      some (changed, { machine with registry }.answerCaller (some machine.connected) caller)

/-- Takes a request out of the mailbox and handles it; `next` says what follows. -/
def stepMailbox? (machine : Machine) (next : Bool → Machine → Machine) : Option Machine := do
  let ((caller, command), mailbox) ← machine.mailbox.take?
  match { machine with mailbox }.handle? caller command with
  | some (changed, machine) => some (next changed machine)
  | none =>
      let machine := { machine with mailbox }.emit (.handled caller command)
      some ((machine.answerCaller none caller).crash none)

/-- Delivers a log to listeners one after the other.  If one of them breaks down, so does the
control task. -/
def deliverTo (log : RawLog) : List ListenerId → Machine → Machine
  | [], machine => machine
  | listener :: rest, machine =>
      if machine.breaksOn listener log then machine.crash none
      else deliverTo log rest (machine.emit (.delivered listener log))

/-- Delivers a log to the listeners of its address, unless the log was taken back. -/
def dispatch (machine : Machine) (log : RawLog) : Machine :=
  if log.removed then machine
  else deliverTo log (machine.registry.listenersAt log.address) machine

/-- How much too late a look at the addresses may be without shifting those after it. -/
def tickTolerance : Nat := 5

/-- When to look at the addresses next. -/
def tickAfter (machine : Machine) (tick : Nat) : Nat :=
  (if tick + tickTolerance < machine.now then machine.now else tick) + machine.parameters.debounce

/-- What is wrong with the subscription, if anything. -/
def failure? (machine : Machine) : Option (ClientError × Machine) := do
  let number ← machine.current
  let subscription ← machine.subscriptions[number]?
  let (error, subscription) ← subscription.failure?
  return (error,
    { machine with subscriptions := machine.subscriptions.set number subscription })

/-- Takes a log from the log stream. -/
def stepLogs? (machine : Machine) (nextTick : Nat) (stale : Bool) : Option Machine :=
  match machine.pipeline.receive with
  | (.log log, pipeline) => some (({ machine with pipeline }.emit (.took log)).dispatch log)
  | (.ended, pipeline) =>
      some { machine with pipeline, phase := .processing nextTick stale false }
  | (.nothing, _) => none

/-- One step of processing. -/
def stepProcessing? (machine : Machine) (nextTick : Nat) (stale logsOpen : Bool) :
    Option Machine :=
  match machine.failure? with
  | some (error, machine) => some ((machine.emit (.lost error)).notifyDisconnected.beginPass)
  | none =>
      if nextTick ≤ machine.now then
        if stale then some machine.beginPass
        else
          some { machine with
            phase := .processing (machine.tickAfter nextTick) stale logsOpen }
      else
        (machine.stepMailbox? fun changed machine =>
          { machine with phase := .processing nextTick (stale || changed) logsOpen }).or
        (if logsOpen then machine.stepLogs? nextTick stale else none)

/-- One step of the control task; `none` if it has to wait or is over. -/
def stepControl? (machine : Machine) : Option Machine :=
  match machine.phase with
  | .idle | .ended | .crashed => none
  | .waiting =>
      if machine.signalled then some { machine with phase := .joining }
      else if machine.dependents.areReady then some machine.beginPass
      else machine.stepMailbox? fun _ machine => machine
  | .subscribing addresses failures attempt =>
      if machine.signalled then some (machine.leave none)
      else machine.stepSubscribing? addresses failures attempt
  | .backfilling fresh addresses failures attempt =>
      if machine.signalled then some (machine.leave fresh)
      else machine.stepBackfilling? fresh addresses failures attempt
  | .processing nextTick stale logsOpen =>
      if machine.signalled then some (machine.leave none)
      else machine.stepProcessing? nextTick stale logsOpen
  | .joining =>
      if machine.pipeline.allFinished then some { machine.closeMailbox with phase := .ended }
      else none

/-- The next time at which the control task has something to do by itself. -/
def nextWakeUp? (machine : Machine) : Option Nat :=
  match machine.phase with
  | .subscribing _ _ (.asking _ _ deadline) => some deadline
  | .subscribing _ _ (.resting wakeUp) => some wakeUp
  | .backfilling _ _ _ (.asking _ _ deadline) => some deadline
  | .backfilling _ _ _ (.resting wakeUp) => some wakeUp
  | .processing nextTick _ _ => some nextTick
  | _ => none

end LogRelay.Machine
