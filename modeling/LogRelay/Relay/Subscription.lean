import LogRelay.Chain.Failure
import LogRelay.Chain.Log

/-!
# Live subscriptions

A subscription has two channels of limited room, one for logs and one for failures.
The client keeps the sending ends for as long as the subscription is healthy; giving
one up means that the subscription is lost.  The relay keeps the receiving ends.

The relay closes a subscription when it no longer needs it: the reader of its logs then
takes what is there and stops.  When the reader finds that the client has given up the
logs before the relay closed the subscription, it notes that the logs have ended, which
counts as a failure.
-/

namespace LogRelay

/-- What came of sending something on a channel. -/
inductive SendResult where
  | taken
  | full
  /-- The receiving end is gone. -/
  | closed
  /-- The sending end is gone, or there never was a channel. -/
  | missing
deriving DecidableEq, Inhabited

/-- How much the channels of a subscription hold, which the client chooses. -/
structure ChannelRoom where
  /-- The room for logs. -/
  logs : Nat
  /-- The room for failures. -/
  failures : Nat
  logs_pos : 0 < logs
  failures_pos : 0 < failures

instance : Inhabited ChannelRoom := ⟨⟨1, 1, Nat.one_pos, Nat.one_pos⟩⟩

/-- A live subscription, seen from both ends. -/
structure ClientSubscription where
  room : ChannelRoom
  /-- The logs on their way, the oldest first. -/
  logs : List RawLog := []
  /-- The failures on their way, the oldest first. -/
  failures : List ClientError := []
  sendsLogs : Bool := true
  sendsFailures : Bool := true
  /-- Whether the relay still accepts logs. -/
  acceptsLogs : Bool := true
  /-- Whether the relay still hears of failures. -/
  acceptsFailures : Bool := true
  /-- Whether the relay has closed the subscription. -/
  closed : Bool := false
  /-- Whether the reader of the logs has noted that they ended. -/
  ended : Bool := false
  /-- Whether the client was told to tear the subscription down. -/
  unsubscribed : Bool := false
deriving Inhabited

namespace ClientSubscription

/-- A subscription as diagnostics show it. -/
def report : String := Text.reportPart "ClientSubscription" []

/-- The client sends a log. -/
def push (subscription : ClientSubscription) (log : RawLog) : SendResult × ClientSubscription :=
  if !subscription.sendsLogs then (.missing, subscription)
  else if !subscription.acceptsLogs then (.closed, subscription)
  else if subscription.room.logs ≤ subscription.logs.length then (.full, subscription)
  else (.taken, { subscription with logs := subscription.logs ++ [log] })

/-- The client reports a failure. -/
def fail (subscription : ClientSubscription) (error : ClientError) :
    SendResult × ClientSubscription :=
  if !subscription.sendsFailures then (.missing, subscription)
  else if !subscription.acceptsFailures then (.closed, subscription)
  else if subscription.room.failures ≤ subscription.failures.length then (.full, subscription)
  else (.taken, { subscription with failures := subscription.failures ++ [error] })

/-- The client gives up sending logs. -/
def endLogs (subscription : ClientSubscription) : ClientSubscription :=
  { subscription with sendsLogs := false }

/-- The client gives up reporting failures. -/
def endFailures (subscription : ClientSubscription) : ClientSubscription :=
  { subscription with sendsFailures := false }

/-- Whether the client sees that nobody accepts its logs, if it still sends them. -/
def isClosed? (subscription : ClientSubscription) : Option Bool :=
  if subscription.sendsLogs then some (!subscription.acceptsLogs) else none

/-- The relay closes the subscription. -/
def close (subscription : ClientSubscription) : ClientSubscription :=
  { subscription with closed := true, unsubscribed := true }

/-- The relay lets go of the failures. -/
def dropFailures (subscription : ClientSubscription) : ClientSubscription :=
  { subscription with acceptsFailures := false }

/-- The relay lets go of the logs. -/
def dropLogs (subscription : ClientSubscription) : ClientSubscription :=
  { subscription with acceptsLogs := false }

/-- What the reader of the logs finds. -/
inductive Arrival where
  | log (log : RawLog)
  | ended
  /-- Nothing yet. -/
  | nothing

/-- The reader looks for a log.  A log that is there is taken even after closing; once none is
left the reader stops, and no more logs are accepted. -/
def receive (subscription : ClientSubscription) : Arrival × ClientSubscription :=
  match subscription.logs with
  | log :: rest => (.log log, { subscription with logs := rest })
  | [] =>
      if !subscription.sendsLogs then
        (.ended, { subscription with ended := subscription.ended || !subscription.closed })
      else if subscription.closed then (.ended, subscription.dropLogs)
      else (.nothing, subscription)

/-- What is wrong with a subscription: the first failure that was reported, or that one of the
channels has ended.  Taking a reported failure uses it up. -/
def failure? (subscription : ClientSubscription) : Option (ClientError × ClientSubscription) :=
  match subscription.failures with
  | error :: rest => some (error, { subscription with failures := rest })
  | [] =>
      if !subscription.sendsFailures then
        some (.subscriptionDropped "error channel closed", subscription)
      else if subscription.ended then
        some (.subscriptionDropped "log stream ended", subscription)
      else none

end ClientSubscription

end LogRelay
