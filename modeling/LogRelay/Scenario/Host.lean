import LogRelay.Listener.Endpoint
import LogRelay.Listener.Payload
import LogRelay.Marker.Ledger
import LogRelay.Scenario.World

/-!
# Scenarios

A scenario is a list of actions on a relay, its client, its listeners and its store of
markers.  After every action the relay runs until it comes to rest, and what could be
seen of it since the last action is reported.  The actions of a batch follow each other
without anything happening between them.

The relay stands alone with a store in memory, or belongs to a node with a store on
disk, which starts it.
-/

namespace LogRelay

/-! ## Stores -/

/-- The store of a scenario. -/
inductive ScenarioStore where
  /-- A store in memory. -/
  | memory (store : MemoryStore)
  /-- A store on disk. -/
  | disk (store : Ledger)
deriving Inhabited

namespace ScenarioStore

/-- Passes an operation on to the store behind. -/
def perform {α : Type} (onMemory : StoreStep MemoryStore α) (onDisk : StoreStep Ledger α) :
    StoreStep ScenarioStore α
  | memory store =>
      let (result, store) := onMemory store
      (result, memory store)
  | disk store =>
      let (result, store) := onDisk store
      (result, disk store)

instance : MarkerStore ScenarioStore :=
  .ofKeyed (fun key => perform (MarkerStore.has key) (MarkerStore.has key))
    (fun key block => perform (MarkerStore.mark key block) (MarkerStore.mark key block))

/-- The number of markers. -/
def size : ScenarioStore → Nat
  | memory store => store.size
  | disk store => store.size

/-- The number of the block that a marker holds. -/
def blockOf (key : MarkerKey) : ScenarioStore → Except StoreError (Option UInt64)
  | memory store => .ok (store.get? key)
  | disk store => (store.marker? key).map fun marker => marker.map (·.blockNumber)

/-- The store after it was closed and opened again. -/
def reopen : ScenarioStore → ScenarioStore
  | memory store => memory store
  | disk store => disk store.reopen

end ScenarioStore

/-! ## Actions -/

/-- A change of what the client is going to do. -/
structure ScriptChange where
  head : Option UInt64 := none
  backfill : Option (List RawLog) := none
  dropsOld : Option Bool := none
  subscribes : List Outcome := []
  headers : List Outcome := []
  filters : List Outcome := []
deriving Inhabited

/-- Applies a change. -/
def ScriptedClient.change (client : ScriptedClient) (change : ScriptChange) : ScriptedClient where
  head := change.head.or client.head
  backfill := change.backfill.getD client.backfill
  dropsOld := change.dropsOld.getD client.dropsOld
  subscribes := client.subscribes ++ change.subscribes
  headers := client.headers ++ change.headers
  filters := client.filters ++ change.filters

/-- Something done to a broadcast that a listener has received. -/
inductive BroadcastAction where
  | look
  | wasConsumed
  | mark
  | attach (payload : Payload)
deriving Inhabited

/-- An action. -/
inductive Action where
  | start
  | call (request : CallRequest)
  /-- Shuts the node down. -/
  | shutdown
  /-- Gives up the last handle. -/
  | release
  /-- Shows the relay. -/
  | report
  | addDependents (count : Nat)
  | dependentReady
  | pass (millis : Nat)
  /-- Changes what the client is going to do. -/
  | script (change : ScriptChange)
  /-- The client sends logs, on the latest subscription if no other is named. -/
  | push (logs : List RawLog) (number : Option Nat)
  /-- The client reports a failure. -/
  | fail (error : ClientError) (number : Option Nat)
  /-- The client gives up a subscription's logs, its failures, or both. -/
  | giveUp (logs failures : Bool) (number : Option Nat)
  /-- Asks whether the relay has closed a subscription's logs. -/
  | isClosed (number : Option Nat)
  /-- Does something to the log with the given place among those a listener has received. -/
  | onBroadcast (listener : ListenerId) (place : Nat) (action : BroadcastAction)
  /-- Asks a listener for decoded logs how many logs it has dropped. -/
  | dropped (listener : ListenerId)
  | closeInbox (listener : ListenerId)
  | storeSize
  /-- Opens the store again and forgets all received logs. -/
  | reopen
  /-- Asks for the block number of a marker. -/
  | marker (key : MarkerKey)
  | batch (actions : List Action)
deriving Inhabited

/-- What an action returns. -/
inductive ActionResult where
  | nothing
  | ok
  /-- The relay's life does not allow it. -/
  | refused (error : LifecycleError)
  | storeFailed (error : StoreError)
  /-- A broadcast could not be changed. -/
  | undecoded (error : DecodeError)
  | call (id : CallerId)
  | text (value : String)
  | sent (result : SendResult)
  | sentAll (results : List SendResult)
  | flag (value : Bool)
  | number (value : Nat)
  /-- Numbers of dropped logs, by reason. -/
  | dropped (missingTopics unregisteredEvents : UInt64)
  | noSuchLog
  | broadcast (broadcast : Broadcast Payload)
  | all (results : List ActionResult)
  /-- The number of services is too large. -/
  | tooMany

/-! ## Hosts -/

/-- What a scenario acts on. -/
structure Host where
  world : World
  /-- The listeners, by number. -/
  endpoints : List (Endpoint Payload) := []
  /-- The logs that each listener has received. -/
  deliveries : List (List (Broadcast Payload)) := []
  store : ScenarioStore := .memory {}
  /-- How many calls have been reported as returned. -/
  returned : List CallerId := []
  /-- The call that shuts the node down. -/
  shutdown : Option CallerId := none

/-- What could be seen in one step of a scenario. -/
structure StepReport where
  time : Nat
  /-- Whether the relay says that it is connected, while there is a handle. -/
  connected : Option Bool
  result : ActionResult
  /-- The calls that have returned. -/
  resolved : List (CallerId × CallResult)
  /-- The calls that have not returned. -/
  waiting : List CallerId
  /-- The requests to the client, with their times. -/
  requests : List (Nat × Effect)
  /-- What happened to each listener, by number. -/
  events : List (List (ListenerEvent Payload))

namespace Host

/-- A relay that stands alone and was not started; `none` if its mailbox would be too large. -/
def create? (config : RelayConfig) (endpoints : List (Endpoint Payload)) : Option Host :=
  let parameters := RelayParameters.ofConfig config
  if RelayParameters.greatestRoom < parameters.commandRoom then none
  else
    some {
      world.machine := { Machine.create parameters with
        breaksOn := fun listener log => endpoints[listener]?.any (·.breaksOn log) }
      endpoints
      deliveries := endpoints.map fun _ => [] }

/-- Changes the relay from outside. -/
def act (host : Host) (change : Machine → Machine) : Host :=
  { host with world := host.world.act change }

/-- Changes the relay from outside and returns something. -/
def actWith {α : Type} (host : Host) (change : Machine → α × Machine) : α × Host :=
  let (result, machine) := change host.world.machine
  (result, host.act fun _ => machine)

/-- Starts the relay. -/
def start (host : Host) : ActionResult × Host :=
  match host.world.machine.start with
  | .ok machine => (.ok, host.act fun _ => machine)
  | .error error => (.refused error, host)

/-- Makes the relay part of a node whose database is at `place`, and starts it. -/
def startNode (host : Host) (place : String) (isFile : Bool) : Except StoreError Host :=
  if isFile then .error (.cannotOpen place)
  else .ok { host with store := .disk {} }.start.2

/-- The number of the latest subscription, unless another one is named. -/
def subscriptionNumber (host : Host) (number : Option Nat) : Nat :=
  number.getD (host.world.machine.subscriptions.length - 1)

/-- Does something to a broadcast. -/
def onBroadcast (host : Host) (listener place : Nat) (broadcast : Broadcast Payload) :
    BroadcastAction → ActionResult × Host
  | .look => (.broadcast broadcast, host)
  | .wasConsumed =>
      match broadcast.wasConsumed host.store with
      | (.ok consumed, store) => (.flag consumed, { host with store })
      | (.error error, store) => (.storeFailed error, { host with store })
  | .mark =>
      match broadcast.markConsumed host.store with
      | (.ok (), store) => (.ok, { host with store })
      | (.error error, store) => (.storeFailed error, { host with store })
  | .attach payload =>
      match broadcast.attach payload with
      | .ok broadcast =>
          let deliveries := host.deliveries.modify listener fun broadcasts =>
            broadcasts.set place broadcast
          (.ok, { host with deliveries })
      | .error error => (.undecoded error, host)

/-- Sends logs one after the other. -/
def pushAll (number : Nat) : List RawLog → Machine → List SendResult × Machine
  | [], machine => ([], machine)
  | log :: rest, machine =>
      let (result, machine) := machine.push number log
      let (results, machine) := pushAll number rest machine
      (result :: results, machine)

/-- Gives up the channels of a subscription. -/
def giveUp (logs failures : Bool) (subscription : ClientSubscription) : ClientSubscription :=
  let subscription := if logs then subscription.endLogs else subscription
  if failures then subscription.endFailures else subscription

/-- Makes the call that shuts the node down and waits for it. -/
def shutDown (host : Host) : ActionResult × Host :=
  let id := host.world.machine.callers.length
  let host := host.act fun machine => machine.call .stop
  let host := { host with world := host.world.rest, shutdown := some id }
  let result := match host.world.machine.callers[id]?.map (·.progress) with
    | some (.done (.stopped (.error _))) =>
        ActionResult.storeFailed (.fault "Failed to stop the log broadcaster")
    | _ => .ok
  (result, host.act Machine.release)

mutual

/-- Performs an action. -/
def perform (host : Host) : Action → ActionResult × Host
  | .start => host.start
  | .call request =>
      (.call host.world.machine.callers.length, host.act fun machine => machine.call request)
  | .shutdown => host.shutDown
  | .release => (.ok, host.act Machine.release)
  | .report => (.text host.world.machine.report, host)
  | .addDependents count =>
      match host.world.machine.addDependents? count with
      | some machine => (.ok, host.act fun _ => machine)
      | none => (.tooMany, host)
  | .dependentReady => (.ok, host.act Machine.dependentReady)
  | .pass millis => (.nothing, { host with world := host.world.pass millis })
  | .script change =>
      (.ok, { host with world.client := host.world.client.change change })
  | .push logs number =>
      let (results, host) := host.actWith (pushAll (host.subscriptionNumber number) logs)
      (.sentAll results, host)
  | .fail error number =>
      let (result, host) := host.actWith fun machine =>
        machine.fail (host.subscriptionNumber number) error
      (.sent result, host)
  | .giveUp logs failures number =>
      (.ok, host.act fun machine =>
        machine.changeSubscription (giveUp logs failures) (host.subscriptionNumber number))
  | .isClosed number =>
      let subscription := host.world.machine.subscriptions[host.subscriptionNumber number]?
      ((subscription.bind ClientSubscription.isClosed?).elim .nothing .flag, host)
  | .onBroadcast listener place action =>
      match (host.deliveries[listener]?.getD [])[place]? with
      | some broadcast => host.onBroadcast listener place broadcast action
      | none => (.noSuchLog, host)
  | .dropped listener =>
      match host.endpoints[listener]? with
      | some endpoint => (.dropped endpoint.dropped.1 endpoint.dropped.2, host)
      | none => (.nothing, host)
  | .closeInbox listener =>
      (.ok, { host with endpoints := host.endpoints.modify listener Endpoint.close })
  | .storeSize => (.number host.store.size, host)
  | .reopen =>
      (.ok, { host with
        store := host.store.reopen
        deliveries := host.deliveries.map fun _ => [] })
  | .marker key =>
      match host.store.blockOf key with
      | .ok block => (block.elim .nothing fun block => .number block.toNat, host)
      | .error error => (.storeFailed error, host)
  | .batch actions =>
      let (results, host) := host.performAll actions
      (.all results, host)

/-- Performs actions one after the other. -/
def performAll (host : Host) : List Action → List ActionResult × Host
  | [] => ([], host)
  | action :: rest =>
      let (result, host) := host.perform action
      let (results, host) := host.performAll rest
      (result :: results, host)

end

/-! ## Reports -/

/-- What an effect does to the listeners. -/
def notify (endpoints : List (Endpoint Payload)) : Effect → List (Endpoint Payload)
  | .connected _ listener => endpoints.modify listener Endpoint.connect
  | .disconnected _ listener => endpoints.modify listener Endpoint.disconnect
  | .delivered listener log =>
      endpoints.modify listener fun endpoint => (endpoint.deliver? log).getD endpoint
  | _ => endpoints

/-- Whether an effect is a request to the client. -/
def isRequest : Effect → Bool
  | .asked _ | .unsubscribed _ => true
  | _ => false

/-- The broadcast of an event, if it has one. -/
def broadcastOf? : ListenerEvent Payload → Option (Broadcast Payload)
  | .log broadcast => some broadcast
  | _ => none

/-- The calls that have returned, with their results. -/
def returnedCalls (host : Host) : List (CallerId × CallResult) :=
  (host.world.machine.callers.zipIdx).filterMap fun (caller, id) =>
    match caller.progress with
    | .done result => if host.shutdown = some id then none else some (id, result)
    | _ => none

/-- Takes what could be seen since the last report. -/
def takeReport (host : Host) (result : ActionResult) : StepReport × Host :=
  let machine := host.world.machine
  let effects := machine.trace.reverse
  let endpoints := (effects.map (·.2)).foldl notify host.endpoints
  let events := endpoints.map (·.received)
  let resolved := host.returnedCalls.filter fun call => !host.returned.contains call.1
  let waiting := (machine.callers.zipIdx).filterMap fun (caller, id) =>
    if caller.isDone || host.shutdown = some id then none else some id
  let report : StepReport :=
    { time := machine.now
      connected := if machine.held then some machine.connected else none
      result, resolved, waiting, events
      requests := effects.filter fun effect => isRequest effect.2 }
  (report,
    { host with
      world.machine.trace := []
      endpoints := endpoints.map fun endpoint => { endpoint with received := [] }
      deliveries := host.deliveries.zipWith (fun earlier events =>
        earlier ++ events.filterMap broadcastOf?) events
      returned := host.returned ++ resolved.map (·.1) })

/-- One step of a scenario. -/
def step (host : Host) (action : Action) : StepReport × Host :=
  let (result, host) := host.perform action
  { host with world := host.world.rest }.takeReport result

/-- A scenario: its steps one after the other. -/
def run (host : Host) : List Action → List StepReport
  | [] => []
  | action :: rest =>
      let (report, host) := host.step action
      report :: host.run rest

end Host

end LogRelay
