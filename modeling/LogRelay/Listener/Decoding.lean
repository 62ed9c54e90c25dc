import LogRelay.Abi.Codec
import LogRelay.Listener.Broadcast

/-!
# Listeners for decoded logs

Such a listener stands before another one.  A table says for the selectors it cares
about how the fields of a log become a payload.  Logs without topics and logs whose
selector is not in the table are dropped and counted; all other logs are passed on,
with their payload or with the reason why there is none.  A log whose decoding breaks down
breaks the listener down.
-/

namespace LogRelay

/-- How a payload is made from a log and its fields. -/
abbrev PayloadReader (δ : Type) := RawLog → LogFields → Except DecodeError δ

/-- A listener for decoded logs, with payloads of type `δ`. -/
structure DecodingListener (δ : Type) where
  codec : ContractCodec
  /-- The table of selectors; the entry made last is in front and hides earlier ones. -/
  readers : List (Hash × PayloadReader δ) := []
  /-- How many logs without topics were dropped, modulo `2 ^ 64`. -/
  missingTopics : UInt64 := 0
  /-- How many logs with other selectors were dropped, modulo `2 ^ 64`. -/
  unregisteredEvents : UInt64 := 0

namespace DecodingListener

variable {δ : Type}

/-- Enters a selector into the table. -/
def withSelector (listener : DecodingListener δ) (selector : Hash) (reader : PayloadReader δ) :
    DecodingListener δ :=
  { listener with readers := (selector, reader) :: listener.readers }

/-- Enters the selector of the event with the given name. -/
def withEvent (listener : DecodingListener δ) (name : String) (reader : PayloadReader δ) :
    Except DecodeError (DecodingListener δ) := do
  return listener.withSelector (← listener.codec.selectorOf name) reader

/-- Decodes the log of a broadcast and attaches the payload; `none` if the decoding breaks
down. -/
def prepare? (listener : DecodingListener δ) (reader : PayloadReader δ)
    (broadcast : Broadcast δ) : Option (Except DecodeError (Broadcast δ)) := do
  let unpacked ← listener.codec.unpack? broadcast.log
  return do broadcast.attach (← reader broadcast.log (← unpacked))

/-- What is passed on for a log, if anything; `none` if the listener breaks down.  The reason
why there is no log is passed on unchanged. -/
def handle? (listener : DecodingListener δ) :
    Except DecodeError (Broadcast δ) →
      Option (Option (Except DecodeError (Broadcast δ)) × DecodingListener δ)
  | .error error => some (some (.error error), listener)
  | .ok broadcast =>
      match broadcast.log.eventId? with
      | none => some (none, { listener with missingTopics := listener.missingTopics + 1 })
      | some selector =>
          match listener.readers.lookup selector with
          | none =>
              some (none, { listener with unregisteredEvents := listener.unregisteredEvents + 1 })
          | some reader =>
              (listener.prepare? reader broadcast).map fun result => (some result, listener)

end DecodingListener

end LogRelay
