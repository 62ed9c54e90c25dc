import LogRelay.Abi.Contract
import LogRelay.Abi.Decode
import LogRelay.Abi.Fields

/-!
# Decoding the logs of a contract

The first topic of a log selects the event.  The further topics are the values of the
indexed parameters, the data holds the others, and the decoded log brings both back
into the order of the declaration.
-/

namespace LogRelay

/-! ## What can be wrong with a log -/

/-- Why a log does not fit its event. -/
inductive LogFault where
  /-- A parameter has no type. -/
  | type (error : TypeError)
  /-- The number of topics is not the expected one. -/
  | topicCount (expected actual : Nat)
  /-- The first topic is not the selector of the event. -/
  | selectorMismatch (expected actual : Hash)
  /-- The data cannot be decoded. -/
  | data (error : DataError)
  /-- There is no value for a parameter. -/
  | missingValue (name : String)
deriving DecidableEq, Inhabited

/-- The message of a fault. -/
def LogFault.message : LogFault → String
  | type error => error.message
  | topicCount expected actual =>
      "invalid log topic list length: expected " ++ toString expected ++ " topics, got " ++
        toString actual
  | selectorMismatch expected actual =>
      "invalid event signature: expected " ++ expected.text ++ ", got " ++ actual.text
  | data error => error.message
  | missingValue name => "missing value for parameter '" ++ name ++ "'"

/-! ## Decoding for one event -/

/-- An event whose parameters have types. -/
structure TypedEvent where
  /-- The types of the indexed parameters. -/
  indexed : List AbiType
  /-- The types of the other parameters. -/
  body : List AbiType

namespace Event

/-- The greatest number of topics of a log. -/
def greatestTopicCount : Nat := 4

/-- The event with the types of its parameters, if they leave room for the selector. -/
def typed (event : Event) : Except LogFault TypedEvent := do
  let types ← match Param.resolveAll (event.inputs.map (·.param)) with
    | .ok types => pure types
    | .error error => .error (.type error)
  let marked := event.inputs.zip types
  let select (indexed : Bool) :=
    (marked.filter fun pair => pair.1.indexed == indexed).map (·.2)
  let typed : TypedEvent := ⟨select true, select false⟩
  let needed := typed.indexed.length + 1
  if greatestTopicCount < needed then .error (.topicCount greatestTopicCount needed)
  else return typed

/-- The values in the order of the parameters, each list being used up from its front. -/
def arrange : List EventParam → (indexed body : List AbiValue) →
    Except LogFault (List (String × AbiValue))
  | [], _, _ => .ok []
  | input :: rest, indexed, body =>
      let missing := LogFault.missingValue input.param.name
      if input.indexed then
        match indexed with
        | [] => .error missing
        | value :: indexed => do
            return (input.param.name, value) :: (← arrange rest indexed body)
      else
        match body with
        | [] => .error missing
        | value :: body => do
            return (input.param.name, value) :: (← arrange rest indexed body)

/-- What is wrong with the topics of a log, if anything is: their number, or the first. -/
def topicFault? (event : Event) (typed : TypedEvent) (topics : List Hash) : Option LogFault :=
  let needed := typed.indexed.length + 1
  if topics.length ≠ needed then some (.topicCount needed topics.length)
  else topics.head?.bind fun selector =>
    if selector ≠ event.selector then some (.selectorMismatch event.selector selector) else none

/-- Decodes a log of an event that is not anonymous; `none` if the decoding breaks down. -/
def decode? (event : Event) (log : RawLog) : Option (Except LogFault LogFields) :=
  match event.typed with
  | .error fault => some (.error fault)
  | .ok typed =>
      match event.topicFault? typed log.topics with
      | some fault => some (.error fault)
      | none =>
          let indexed := typed.indexed.zipWith AbiType.ofTopic log.topics.tail
          match AbiType.decodeAll typed.body log.data with
          | .ok body =>
              some ((arrange event.inputs indexed body).map fun fields => ⟨event.name, fields⟩)
          | .error (.fault error) => some (.error (.data error))
          | .error .uncountable | .error .exhausted => none

end Event

/-! ## Decoding for a contract -/

/-- The events of a contract under their selectors. -/
structure ContractCodec where
  abi : ContractAbi
  /-- The events that are not anonymous, the last one first. -/
  table : List (Hash × Event)
deriving Inhabited

namespace ContractCodec

/-- The codec of an interface. -/
def ofAbi (abi : ContractAbi) : ContractCodec :=
  let selectable := abi.events.filter fun event => !event.anonymous
  ⟨abi, (selectable.map fun event => (event.selector, event)).reverse⟩

/-- The event with a selector; of several the last. -/
def eventById? (codec : ContractCodec) (selector : Hash) : Option Event :=
  codec.table.lookup selector

/-- The selector of the first event with a name that is not anonymous. -/
def selectorOf (codec : ContractCodec) (name : String) : Except DecodeError Hash :=
  match codec.abi.events.find? fun event => event.name == name && !event.anonymous with
  | some event => .ok event.selector
  | none => .error (.unknownEventName name)

/-- Decodes a log; `none` if the decoding breaks down, because a size is uncountable or the memory
is used up. -/
def unpack? (codec : ContractCodec) (log : RawLog) : Option (Except DecodeError LogFields) :=
  match log.eventId? with
  | none => some (.error (.invalidField "topics" "log has no topics"))
  | some selector =>
      match codec.eventById? selector with
      | none => some (.error (.unknownEvent selector))
      | some event =>
          (event.decode? log).map fun result =>
            result.mapError fun fault => .malformed fault.message

end ContractCodec

end LogRelay
