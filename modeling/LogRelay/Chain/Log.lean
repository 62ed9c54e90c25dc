import LogRelay.Hex
import LogRelay.Text.Report

/-!
# Logs, headers and queries

What the chain client reports and what it is asked for: a log as a contract emitted
it, the part of a block header that backfilling needs, and a query for the logs of a
set of contract addresses.
-/

namespace LogRelay

/-- The address of a contract. -/
abbrev Address := Word 20

/-- A hash or a topic. -/
abbrev Hash := Word 32

/-- A contract log exactly as it came from the chain client. -/
structure RawLog where
  /-- The contract that emitted the log. -/
  address : Address := default
  /-- The event selector, if there are topics at all, and the indexed parameters. -/
  topics : List Hash := []
  /-- The encoded parameters that are not indexed. -/
  data : Bytes := []
  blockNumber : UInt64 := 0
  blockHash : Hash := default
  transactionHash : Hash := default
  /-- The place of the transaction in its block. -/
  transactionIndex : UInt64 := 0
  /-- The place of the log in its block. -/
  logIndex : UInt64 := 0
  /-- Whether a reorganisation of the chain has taken the log back. -/
  removed : Bool := false
deriving DecidableEq, Inhabited

namespace RawLog

/-- The selector of the event: the first topic. -/
def eventId? (log : RawLog) : Option Hash := log.topics.head?

/-- The log as diagnostics show it. -/
def report (log : RawLog) : String :=
  Text.reportRecord "RawLog"
    [("address", log.address.text), ("topics", Text.reportList (log.topics.map Word.text)),
     ("data", Hex.encode log.data), ("block_number", toString log.blockNumber),
     ("block_hash", log.blockHash.text), ("transaction_hash", log.transactionHash.text),
     ("transaction_index", toString log.transactionIndex),
     ("log_index", toString log.logIndex), ("removed", toString log.removed)]

end RawLog

/-- The part of a block header that backfilling needs. -/
structure Header where
  number : UInt64
  hash : Hash := default
deriving DecidableEq, Inhabited

/-- The header as diagnostics show it. -/
def Header.report (header : Header) : String :=
  Text.reportRecord "Header" [("number", toString header.number), ("hash", header.hash.text)]

/-- A query for the logs of some contracts. -/
structure FilterQuery where
  /-- The first block of interest; without one the query starts at the current head. -/
  fromBlock : Option UInt64 := none
  addresses : List Address := []
deriving DecidableEq, Inhabited

namespace FilterQuery

/-- A query that starts at the current head. -/
def ofAddresses (addresses : List Address) : FilterQuery := { addresses }

/-- The same query from another block on. -/
def startingAt (query : FilterQuery) (block : UInt64) : FilterQuery :=
  { query with fromBlock := some block }

/-- The query as diagnostics show it. -/
def report (query : FilterQuery) : String :=
  Text.reportRecord "FilterQuery"
    [("from_block", Text.reportOption (query.fromBlock.map toString)),
     ("addresses", Text.reportList (query.addresses.map Word.text))]

/-- Whether the query asks for this log: its contract is listed and its block is not before
the first one. -/
def selects (query : FilterQuery) (log : RawLog) : Bool :=
  query.addresses.contains log.address && (query.fromBlock.getD 0) ≤ log.blockNumber

end FilterQuery

end LogRelay
