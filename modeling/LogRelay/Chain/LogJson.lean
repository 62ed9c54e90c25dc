import LogRelay.Chain.Log
import LogRelay.Chain.Job
import LogRelay.Json.Reader
import LogRelay.Json.Writer

/-!
# Logs and jobs in JSON

A log is an object with nine members, all of which have to be there; byte strings
are hexadecimal texts.  Reading also takes a list of the nine values in their order,
lists of byte values in place of hexadecimal text, and members it does not know.  A list
of a fixed number of bytes may end in one item more that is no byte.
A job of the first scheme is the long form of its identifier, and the identity of a
job is an object with one member that names the scheme.
-/

namespace LogRelay

/-! ## Byte strings -/

/-- Any number of bytes. -/
def bytesOfJson? : Json → Option Bytes
  | .string text => Hex.decode? text
  | .list items => items.mapM Json.byte?
  | _ => none

/-- Exactly `size` bytes. -/
def wordOfJson? (size : Nat) (json : Json) : Option (Word size) := do
  Word.ofBytes? size (← bytesOfJson? json)

/-- A whole number of 64 bits. -/
def uint64OfJson? (json : Json) : Option UInt64 := json.nat?.map UInt64.ofNat

/-- A whole number of 32 bits with its sign. -/
def int32OfJson? (json : Json) : Option Int32 := do
  let value ← json.int?
  if -2147483648 ≤ value ∧ value ≤ 2147483647 then some (Int32.ofInt value) else none

/-! ## Logs -/

namespace RawLog

/-- The members, in their order, and what they hold. -/
def form : Json.Form :=
  .record
    [("address", .word 20), ("topics", .list (.word 32)), ("data", .any), ("blockNumber", .any),
     ("blockHash", .word 32), ("transactionHash", .word 32), ("transactionIndex", .any),
     ("logIndex", .any), ("removed", .any)]

/-- The names of the members, in their order. -/
def memberNames : List String :=
  ["address", "topics", "data", "blockNumber", "blockHash", "transactionHash",
   "transactionIndex", "logIndex", "removed"]

/-- Reads a log. -/
def ofJson? (json : Json) : Option RawLog := do
  match ← Json.record? memberNames json with
  | [address, topics, data, blockNumber, blockHash, transactionHash, transactionIndex,
     logIndex, removed] =>
      return {
        address := ← Field.required (wordOfJson? 20) address
        topics := ← Field.required (Json.list? (wordOfJson? 32)) topics
        data := ← Field.required bytesOfJson? data
        blockNumber := ← Field.required uint64OfJson? blockNumber
        blockHash := ← Field.required (wordOfJson? 32) blockHash
        transactionHash := ← Field.required (wordOfJson? 32) transactionHash
        transactionIndex := ← Field.required uint64OfJson? transactionIndex
        logIndex := ← Field.required uint64OfJson? logIndex
        removed := ← Field.required Json.bool? removed }
  | _ => none

/-- The members of a log, in their order. -/
def toMembers (log : RawLog) : List (String × Json) :=
  [("address", .string log.address.text),
   ("topics", .list (log.topics.map fun topic => .string topic.text)),
   ("data", .string (Hex.encode log.data)),
   ("blockNumber", .number (.ofNat log.blockNumber.toNat)),
   ("blockHash", .string log.blockHash.text),
   ("transactionHash", .string log.transactionHash.text),
   ("transactionIndex", .number (.ofNat log.transactionIndex.toNat)),
   ("logIndex", .number (.ofNat log.logIndex.toNat)),
   ("removed", .bool log.removed)]

/-- A log as a JSON object. -/
def toJson (log : RawLog) : Json := .object log.toMembers

/-- The text of a log. -/
def serialize (log : RawLog) : String := log.toJson.render

/-- Reads the text of a log. -/
def deserialize? (text : String) : Option RawLog := do ofJson? (← Json.read? form text)

end RawLog

/-! ## Jobs -/

namespace Uuid

/-- Reads an identifier. -/
def ofJson? (json : Json) : Option Uuid := json.text?.bind parse?

/-- An identifier in its long form. -/
def toJson (uuid : Uuid) : Json := .string (long uuid)

/-- The text of an identifier. -/
def serialize (uuid : Uuid) : String := (toJson uuid).render

/-- Reads the text of an identifier. -/
def deserialize? (text : String) : Option Uuid := do ofJson? (← Json.parse? text)

end Uuid

namespace JobIdentity

/-- Reads the identity of a job. -/
def ofJson? : Json → Option JobIdentity
  | .object [("V1", id)] => (Uuid.ofJson? id).map v1
  | .object [("V2", id)] => (int32OfJson? id).map v2
  | _ => none

/-- The identity of a job as a JSON object. -/
def toJson : JobIdentity → Json
  | v1 id => .object [("V1", Uuid.toJson id)]
  | v2 id => .object [("V2", .number (.ofInt id.toInt))]

/-- The text of the identity of a job. -/
def serialize (job : JobIdentity) : String := job.toJson.render

/-- Reads the text of the identity of a job. -/
def deserialize? (text : String) : Option JobIdentity := do ofJson? (← Json.parse? text)

end JobIdentity

end LogRelay
