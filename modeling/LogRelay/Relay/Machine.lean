import LogRelay.Relay.Dependents
import LogRelay.Relay.Lifecycle
import LogRelay.Relay.Mailbox
import LogRelay.Relay.Pipeline
import LogRelay.Settings.Relay

/-!
# The state of a relay

A relay consists of one *control task*, which owns the registry and the subscription,
of the stages of its log stream, and of the calls that are being made to it.  The
tasks share the mailbox, the shutdown signal and the channels, and take turns in steps
that are defined elsewhere.  Everything that can be seen from outside (requests to the
client, notifications, delivered logs) or in diagnostics (passes, fetched logs) is kept
in a trace.

The control task goes round in passes: it subscribes to the registered addresses,
fetches earlier logs, appends both to the log stream, closes the subscription it had
before, tells all listeners that they are connected, and then processes requests and
logs until the addresses have changed or the subscription is lost.
-/

namespace LogRelay

/-! ## Parameters -/

/-- What a relay is run with. -/
structure RelayParameters where
  /-- How many blocks before the head fetching starts. -/
  depth : Nat
  /-- How long a header and the logs after it may take, in milliseconds. -/
  requestTimeout : Nat
  /-- How long an attempt to subscribe may take, in milliseconds. -/
  createTimeout : Nat
  /-- The time between two looks at whether the addresses have changed, in milliseconds. -/
  debounce : Nat
  /-- The delay after each failure, counted from one, in milliseconds. -/
  delay : Nat → Nat
  commandRoom : Nat
  /-- The room of each stage of the log stream. -/
  logRoom : Nat
deriving Inhabited

namespace RelayParameters

/-- The greatest room that a channel can have. -/
def greatestRoom : Nat := Nat.pow 2 61 - 1

/-- The parameters that the settings ask for; there is room for one at least. -/
def ofConfig (config : RelayConfig) : RelayParameters where
  depth := config.backfill.depth.toNat
  requestTimeout := config.requestTimeout.toMillis
  createTimeout := config.createTimeout.toMillis
  debounce := config.debounce.toMillis
  delay := Backoff.delayMillis config.retry
  commandRoom := max config.channels.commandBuffer.toNat 1
  logRoom := max config.channels.logBuffer.toNat 1

end RelayParameters

/-! ## The client -/

/-- A request to the chain client. -/
inductive ClientRequest where
  /-- A live subscription to the logs of the addresses. -/
  | subscribe (query : FilterQuery)
  | header
  /-- Earlier logs. -/
  | filter (query : FilterQuery)
deriving DecidableEq, Inhabited

/-- An answer of the chain client. -/
inductive ClientAnswer where
  | failed (error : ClientError)
  /-- There is a live subscription, which has this number. -/
  | subscribed (number : Nat)
  /-- The latest header, if the client has one. -/
  | header (header : Option Header)
  | logs (logs : List RawLog)
deriving Inhabited

/-- Where an attempt to get something from the client stands. -/
inductive Attempt where
  /-- It can begin. -/
  | due
  /-- The request with the given number was made; without an answer the attempt fails at the
  deadline. -/
  | asking (request : ClientRequest) (number deadline : Nat)
  /-- The last attempt failed; the next one begins at the given time. -/
  | resting (wakeUp : Nat)
deriving Inhabited

/-! ## The control task -/

/-- What the control task is doing. -/
inductive Phase where
  | idle
  /-- It waits for services that the relay depends on. -/
  | waiting
  /-- It subscribes to the addresses; so many attempts have failed. -/
  | subscribing (addresses : List Address) (failures : Nat) (attempt : Attempt)
  /-- It fetches earlier logs for the addresses; so many attempts have failed.  The new
  subscription, if there is one, is live already. -/
  | backfilling (fresh : Option Nat) (addresses : List Address) (failures : Nat)
      (attempt : Attempt)
  /-- It processes requests and logs.  `stale` says whether the addresses have changed since
  this began, and `logsOpen` whether the log stream goes on. -/
  | processing (nextTick : Nat) (stale logsOpen : Bool)
  /-- It waits for the stages of the log stream to stop. -/
  | joining
  | ended
  | crashed
deriving Inhabited

namespace Phase

/-- Whether the control task is no more. -/
def isOver : Phase → Bool
  | ended | crashed => true
  | _ => false

/-- The attempt that is being made, if any. -/
def attempt? : Phase → Option Attempt
  | subscribing _ _ attempt => some attempt
  | backfilling _ _ _ attempt => some attempt
  | _ => none

end Phase

/-! ## What happens -/

/-- What happens to a relay, as far as it can be seen from outside or in its diagnostics. -/
inductive Effect where
  /-- It begins a pass for these addresses. -/
  | began (addresses : List Address)
  /-- It makes a request to the client. -/
  | asked (request : ClientRequest)
  /-- It takes the answer to a request. -/
  | answered (request : ClientRequest) (answer : ClientAnswer)
  /-- It gives a request up, to which no answer came in time. -/
  | gaveUp (request : ClientRequest)
  /-- It has fetched these earlier logs in a pass, which has led to a new subscription, or to
  none. -/
  | gathered (logs : List RawLog) (fresh : Option Nat)
  /-- It accepts a log that the client sends on the subscription with this number. -/
  | accepted (number : Nat) (log : RawLog)
  /-- It tells the client to tear a subscription down. -/
  | unsubscribed (number : Nat)
  /-- It finds that the subscription is lost. -/
  | lost (error : ClientError)
  /-- It says from now on that it is connected, or that it is not. -/
  | switched (connected : Bool)
  /-- It tells a listener of an address that it is connected. -/
  | connected (address : Address) (listener : ListenerId)
  /-- It tells a listener of an address that it is disconnected. -/
  | disconnected (address : Address) (listener : ListenerId)
  /-- It takes a log from its log stream. -/
  | took (log : RawLog)
  /-- It delivers a log to a listener. -/
  | delivered (listener : ListenerId) (log : RawLog)
  /-- It handles a request that a caller has made. -/
  | handled (caller : CallerId) (command : Command)
deriving Inhabited

/-- What a call returns. -/
inductive CallResult where
  /-- Whether the relay was connected when the listener was registered; also `false` if it was
  not registered. -/
  | registered (connected : Bool)
  | unregistered
  /-- The relay has stopped, or could not be stopped. -/
  | stopped (result : Except LifecycleError Unit)
deriving Inhabited

/-- A call to the relay. -/
structure Caller where
  request : CallRequest
  progress : CallProgress CallResult := .fresh
deriving Inhabited

/-- Whether the call has returned. -/
def Caller.isDone (caller : Caller) : Bool :=
  match caller.progress with
  | .done _ => true
  | _ => false

/-! ## The state -/

/-- The state of a relay. -/
structure Machine where
  parameters : RelayParameters
  /-- Whether a listener breaks down when it is handed a log. -/
  breaksOn : ListenerId → RawLog → Bool := fun _ _ => false
  /-- The time in milliseconds. -/
  now : Nat := 0
  /-- Whether the shutdown signal was raised. -/
  raised : Bool := false
  /-- Whether somebody still holds a handle of the relay. -/
  held : Bool := true
  /-- Whether the relay says that it is connected. -/
  connected : Bool := false
  dependents : Dependents := .empty
  lifecycle : Lifecycle := .created
  mailbox : Mailbox
  phase : Phase := .idle
  registry : Registry := {}
  /-- The subscription; without one there are no addresses. -/
  current : Option Nat := none
  /-- The log stream, if there was a pass. -/
  pipeline : Pipeline := []
  /-- The number of stages that there have been. -/
  stageCount : Nat := 0
  /-- All subscriptions that the client has made. -/
  subscriptions : Subscriptions := []
  callers : List Caller := []
  requestCount : Nat := 0
  /-- The answer to the last request, if it came. -/
  answer : Option ClientAnswer := none
  /-- What has happened, the latest first, with the time. -/
  trace : List (Nat × Effect) := []
deriving Inhabited

namespace Machine

/-- A relay that was not started. -/
def create (parameters : RelayParameters) : Machine :=
  { parameters, mailbox := { room := parameters.commandRoom } }

/-- Whether the tasks see the shutdown signal: it was raised, or nobody is left who could
raise it. -/
def signalled (machine : Machine) : Bool :=
  machine.raised || (!machine.held && machine.callers.all Caller.isDone)

/-- Adds something to the trace. -/
def emit (machine : Machine) (effect : Effect) : Machine :=
  { machine with trace := (machine.now, effect) :: machine.trace }

/-- Changes the subscription with the given number. -/
def changeSubscription (machine : Machine) (f : ClientSubscription → ClientSubscription)
    (number : Nat) : Machine :=
  { machine with subscriptions := machine.subscriptions.change f number }

/-- Changes the call with the given number. -/
def changeCaller (machine : Machine) (f : Caller → Caller) (caller : CallerId) : Machine :=
  { machine with callers := machine.callers.modify caller f }

end Machine

end LogRelay
