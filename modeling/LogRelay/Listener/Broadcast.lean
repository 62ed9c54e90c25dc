import LogRelay.Chain.Undecoded
import LogRelay.Marker.Store

/-!
# What a listener receives

A log reaches each listener as a broadcast of its own, so that a decoded payload
attached to one broadcast is never seen on another.  Because a log may arrive more
than once, a broadcast also knows how to ask whether the job of its listener has
processed the log, and how to record that it has.
-/

namespace LogRelay

/-- A log on its way to one listener, with payloads of type `δ`. -/
structure Broadcast (δ : Type) where
  log : RawLog
  job : JobIdentity
  /-- The payload, once it was attached. -/
  decoded : Option δ := none
deriving Inhabited

namespace Broadcast

variable {δ : Type}

/-- Attaches a payload; a broadcast accepts only one. -/
def attach (broadcast : Broadcast δ) (payload : δ) : Except DecodeError (Broadcast δ) :=
  match broadcast.decoded with
  | none => .ok { broadcast with decoded := some payload }
  | some _ => .error .alreadyDecoded

/-- The key of the marker for this log and this job. -/
def markerKey (broadcast : Broadcast δ) : MarkerKey :=
  ⟨broadcast.log.blockHash, broadcast.log.logIndex, broadcast.job⟩

/-- Whether the job has processed the log. -/
def wasConsumed {σ : Type} [MarkerStore σ] (broadcast : Broadcast δ) : StoreStep σ Bool :=
  MarkerStore.has broadcast.markerKey

/-- Records that the job has processed the log. -/
def markConsumed {σ : Type} [MarkerStore σ] (broadcast : Broadcast δ) : StoreStep σ Unit :=
  MarkerStore.mark broadcast.markerKey broadcast.log.blockNumber

/-- The broadcast as diagnostics show it. -/
def report (broadcast : Broadcast δ) : String :=
  Text.reportRecord "LogBroadcast"
    [("raw_log", broadcast.log.report), ("decoded", toString broadcast.decoded.isSome),
     ("job", broadcast.job.report)]

end Broadcast

/-- What happens to a listener. -/
inductive ListenerEvent (δ : Type) where
  /-- A subscription that covers its addresses is live. -/
  | connected
  /-- The subscription is lost, the relay stops or the listener was unregistered. -/
  | disconnected
  | log (broadcast : Broadcast δ)
  /-- A log could not be prepared. -/
  | undecoded (error : DecodeError)
deriving Inhabited

/-- The event that hands over a log or the reason why there is none. -/
def ListenerEvent.ofResult {δ : Type} : Except DecodeError (Broadcast δ) → ListenerEvent δ
  | .ok broadcast => .log broadcast
  | .error error => .undecoded error

end LogRelay
