import LogRelay.Chain.Log

/-!
# Why a log was not decoded

A listener that asked for decoded logs receives one of these in place of a log that
could not be prepared for it.
-/

namespace LogRelay

/-- Why a log could not be decoded. -/
inductive DecodeError where
  /-- The contract has no event with this selector. -/
  | unknownEvent (selector : Hash)
  /-- The contract has no event with this name. -/
  | unknownEventName (name : String)
  /-- Topics or data do not fit the event. -/
  | malformed (cause : String)
  /-- A field of the event is missing or has another type than expected. -/
  | invalidField (field reason : String)
  /-- The log already carries a decoded payload. -/
  | alreadyDecoded
deriving DecidableEq, Inhabited

namespace DecodeError

/-- The message of an error. -/
def message : DecodeError → String
  | unknownEvent selector => "event " ++ selector.text ++ " is not part of the contract ABI"
  | unknownEventName name => "no event named '" ++ name ++ "' in the contract ABI"
  | malformed cause => "failed to decode log: " ++ cause
  | invalidField field reason => "invalid field '" ++ field ++ "': " ++ reason
  | alreadyDecoded => "decoded log was already set on this broadcast"

/-- The error as diagnostics show it. -/
def report : DecodeError → String
  | unknownEvent selector => Text.reportCase "UnknownEvent" selector.text
  | unknownEventName name => Text.reportCase "UnknownEventName" (Text.quoted name)
  | malformed cause => Text.reportCase "Abi" (Text.quoted cause)
  | invalidField field reason =>
      Text.reportRecord "InvalidField"
        [("field", Text.quoted field), ("reason", Text.quoted reason)]
  | alreadyDecoded => "AlreadyDecoded"

end DecodeError

end LogRelay
