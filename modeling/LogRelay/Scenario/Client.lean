import LogRelay.Relay.Step

/-!
# A client that follows a script

The client answers each request as the next outcome in a queue for requests of this
kind says, and well if the queue is empty.  What a good answer contains follows from a
head, a list of logs that can be fetched, and the subscriptions that it makes.
-/

namespace LogRelay

/-- What comes of a request. -/
inductive Outcome where
  | good
  | failed (error : ClientError)
  /-- No answer ever. -/
  | silent
  /-- Another outcome, after so many milliseconds. -/
  | delayed (millis : Nat) (outcome : Outcome)
  /-- An answer without a header. -/
  | noHeader
  /-- The header of the block with this number. -/
  | header (number : UInt64)
  | logs (logs : List RawLog)
deriving Inhabited

namespace Outcome

/-- The sum of all delays. -/
def delay : Outcome → Nat
  | delayed millis outcome => millis + outcome.delay
  | _ => 0

/-- What comes after all delays. -/
def final : Outcome → Outcome
  | delayed _ outcome => outcome.final
  | outcome => outcome

end Outcome

/-- A client that follows a script. -/
structure ScriptedClient where
  head : Option UInt64 := none
  /-- The logs that can be fetched. -/
  backfill : List RawLog := []
  /-- Whether a new subscription makes the client give up all earlier ones. -/
  dropsOld : Bool := false
  subscribes : List Outcome := []
  headers : List Outcome := []
  filters : List Outcome := []
deriving Inhabited

namespace ScriptedClient

/-- The outcome of a request, and the client after it. -/
def next (client : ScriptedClient) : ClientRequest → Outcome × ScriptedClient
  | .subscribe _ =>
      (client.subscribes.headD .good, { client with subscribes := client.subscribes.tail })
  | .header => (client.headers.headD .good, { client with headers := client.headers.tail })
  | .filter _ => (client.filters.headD .good, { client with filters := client.filters.tail })

/-- The room in every subscription. -/
def room : ChannelRoom := ⟨1024, 8, by decide, by decide⟩

/-- Gives up all subscriptions. -/
def giveUp (machine : Machine) : Machine :=
  { machine with
    subscriptions := machine.subscriptions.map fun subscription =>
      subscription.endLogs.endFailures }

/-- Answers the request with the given number; `outcome` is what comes after all delays. -/
def answer (client : ScriptedClient) (machine : Machine) (request : ClientRequest) (number : Nat)
    (outcome : Outcome) : Machine :=
  match outcome, request with
  | .silent, _ => machine
  | .failed error, _ => machine.reply number (.failed error)
  | .noHeader, .header => machine.reply number (.header none)
  | .header block, .header => machine.reply number (.header (some { number := block }))
  | .logs logs, .filter _ => machine.reply number (.logs logs)
  | _, .header =>
      machine.reply number (.header (client.head.map fun block => { number := block }))
  | _, .filter query => machine.reply number (.logs (client.backfill.filter query.selects))
  | _, .subscribe _ =>
      let machine := if client.dropsOld then giveUp machine else machine
      (machine.openSubscription room).reply number (.subscribed machine.subscriptions.length)

end ScriptedClient

end LogRelay
