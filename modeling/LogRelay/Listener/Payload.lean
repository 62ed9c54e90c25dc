import LogRelay.Listener.Decoding

/-!
# Payloads

What listeners attach to their logs: a request for randomness, all fields of an
event, the answers to a list of questions about its fields, or a plain value.
-/

namespace LogRelay

/-! ## Requests for randomness -/

/-- A request for randomness, as the coordinator contract emits it. -/
structure RandomnessRequest where
  /-- The log that holds the request. -/
  log : RawLog
  /-- The key with which the answer is to be made. -/
  keyHash : Word 32
  seed : Nat
  /-- The job that is asked. -/
  jobId : Word 32
  /-- Who asks. -/
  sender : Word 20
  fee : Nat
  requestId : Word 32
deriving Inhabited

/-- Reads a request from the fields of its event. -/
def RandomnessRequest.ofFields : PayloadReader RandomnessRequest := fun log fields => do
  let keyHash ← fields.bytes32 "keyHash"
  let seed ← fields.uint "seed"
  let jobId ← fields.bytes32 "jobID"
  let sender ← fields.address "sender"
  let fee ← fields.uint "fee"
  let requestId ← fields.bytes32 "requestID"
  return { log, keyHash, seed, jobId, sender, fee, requestId }

/-! ## Questions about fields -/

/-- What a question expects of a field. -/
inductive FieldKind where
  | uint
  | address
  | bytes32
  | bytes
  /-- Anything; the field may be missing. -/
  | any
deriving DecidableEq, Inhabited

/-- A question about a field. -/
structure FieldQuestion where
  kind : FieldKind
  name : String

/-- The answer to a question. -/
inductive FieldAnswer where
  | number (value : Nat)
  | bytes (value : Bytes)
  /-- The value, if there is one. -/
  | value (value : Option AbiValue)

/-- Answers a question. -/
def LogFields.answer (fields : LogFields) (question : FieldQuestion) :
    Except DecodeError FieldAnswer :=
  match question.kind with
  | .uint => (fields.uint question.name).map .number
  | .address => (fields.address question.name).map fun word => .bytes word.bytes
  | .bytes32 => (fields.bytes32 question.name).map fun word => .bytes word.bytes
  | .bytes => (fields.bytes question.name).map .bytes
  | .any => .ok (.value (fields.value? question.name))

/-! ## Payloads -/

/-- A payload. -/
inductive Payload where
  | number (value : UInt64)
  | text (value : String)
  | flag (value : Bool)
  | request (request : RandomnessRequest)
  | fields (fields : LogFields)
  | answers (answers : List FieldAnswer)
deriving Inhabited

namespace Payload

/-- The number, if the payload is one. -/
def number? : Payload → Option UInt64
  | number value => some value
  | _ => none

/-- The text, if the payload is one. -/
def text? : Payload → Option String
  | text value => some value
  | _ => none

/-- Reads a request for randomness. -/
def ofRequest : PayloadReader Payload := fun log fields =>
  (RandomnessRequest.ofFields log fields).map request

/-- Takes all fields. -/
def ofFields : PayloadReader Payload := fun _ fields => .ok (.fields fields)

/-- Answers questions until one has no answer. -/
def ofQuestions (questions : List FieldQuestion) : PayloadReader Payload := fun _ fields =>
  (questions.mapM fields.answer).map answers

/-- Takes no log at all. -/
def rejected : PayloadReader Payload := fun _ _ => .error (.invalidField "self" "rejected")

end Payload

end LogRelay
