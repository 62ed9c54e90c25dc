import LogRelay.Listener.Decoding

/-!
# Listeners with an inbox

A listener that keeps what happens to it in an inbox, until whoever reads the inbox
goes away.  A listener for decoded logs may stand before the inbox.
-/

namespace LogRelay

/-- A listener with an inbox, for payloads of type `δ`. -/
structure Endpoint (δ : Type) where
  job : JobIdentity
  /-- The listener for decoded logs before the inbox. -/
  decoding : Option (DecodingListener δ) := none
  isOpen : Bool := true
  /-- What is in the inbox, the oldest first. -/
  received : List (ListenerEvent δ) := []

namespace Endpoint

variable {δ : Type}

/-- Puts something into the inbox, if it is still read. -/
def forward (endpoint : Endpoint δ) (event : ListenerEvent δ) : Endpoint δ :=
  if endpoint.isOpen then { endpoint with received := endpoint.received ++ [event] } else endpoint

/-- A subscription that covers the listener is live. -/
def connect (endpoint : Endpoint δ) : Endpoint δ := endpoint.forward .connected

/-- The subscription is lost. -/
def disconnect (endpoint : Endpoint δ) : Endpoint δ := endpoint.forward .disconnected

/-- Hands over a log or the reason why there is none; `none` if the listener breaks down. -/
def handle? (endpoint : Endpoint δ) (result : Except DecodeError (Broadcast δ)) :
    Option (Endpoint δ) :=
  match endpoint.decoding with
  | none => some (endpoint.forward (.ofResult result))
  | some listener => do
      let (passed, listener) ← listener.handle? result
      let endpoint := { endpoint with decoding := some listener }
      return match passed with
        | none => endpoint
        | some result => endpoint.forward (.ofResult result)

/-- Hands over a log in a fresh broadcast; `none` if the listener breaks down. -/
def deliver? (endpoint : Endpoint δ) (log : RawLog) : Option (Endpoint δ) :=
  endpoint.handle? (.ok { log, job := endpoint.job })

/-- Whether the listener breaks down when it is handed the log. -/
def breaksOn (endpoint : Endpoint δ) (log : RawLog) : Bool := (endpoint.deliver? log).isNone

/-- The inbox is no longer read. -/
def close (endpoint : Endpoint δ) : Endpoint δ := { endpoint with isOpen := false }

/-- How many logs were dropped: those without topics and those with other selectors. -/
def dropped (endpoint : Endpoint δ) : UInt64 × UInt64 :=
  match endpoint.decoding with
  | none => (0, 0)
  | some listener => (listener.missingTopics, listener.unregisteredEvents)

end Endpoint

end LogRelay
