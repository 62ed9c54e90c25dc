import LogRelay.Marker.Store
import LogRelay.Timestamp
import LogRelay.Varint
import LogRelay.Text.Utf8

/-!
# The store on disk

A database is an ordered map from byte strings to byte strings.  The written form of
a marker under its key is the block number and the length of a text, both of variable
length, and the text: the time of the marking.  Whether a marker is set is decided by
its key alone, so a marker that cannot be read counts as set.
-/

namespace LogRelay

/-! ## Ordered maps -/

/-- A map from byte strings to byte strings. -/
structure ByteMap where
  /-- The entries, in the order of their keys. -/
  entries : List (Bytes × Bytes) := []
deriving Inhabited

namespace ByteMap

/-- The entries with `key` set to `value`, each key keeping its place in the order. -/
def insertInto (key value : Bytes) : List (Bytes × Bytes) → List (Bytes × Bytes)
  | [] => [(key, value)]
  | entry :: rest =>
      if key < entry.1 then (key, value) :: entry :: rest
      else if key = entry.1 then (key, value) :: rest
      else entry :: insertInto key value rest

/-- The map with `key` set to `value`. -/
def insert (map : ByteMap) (key value : Bytes) : ByteMap := ⟨insertInto key value map.entries⟩

/-- The value of a key. -/
def get? (map : ByteMap) (key : Bytes) : Option Bytes := map.entries.lookup key

/-- The keys in ascending order. -/
def keys (map : ByteMap) : List Bytes := map.entries.map (·.1)

/-- The number of entries. -/
def size (map : ByteMap) : Nat := map.entries.length

/-- Whether there are no entries. -/
def isEmpty (map : ByteMap) : Bool := map.entries.isEmpty

end ByteMap

/-! ## Markers -/

/-- What is kept about a processed log. -/
structure Marker where
  blockNumber : UInt64
  consumedAt : Timestamp
deriving DecidableEq, Inhabited

namespace Marker

/-- The written form of a marker. -/
def encode (marker : Marker) : Bytes :=
  let time := Text.encode marker.consumedAt.text
  Varint.encode marker.blockNumber.toNat ++ (Varint.encode time.length ++ time)

/-- Reads a marker; what follows it is ignored. -/
def decode? (bytes : Bytes) : Option Marker := do
  let (block, rest) ← Varint.decode? bytes
  let (length, rest) ← Varint.decode? rest
  if rest.length < length then none
  else
    let time ← Text.decode? (rest.take length)
    return ⟨UInt64.ofNat block, ← Timestamp.parse? time⟩

end Marker

/-! ## The store -/

/-- The store on disk. -/
structure Ledger where
  records : ByteMap := {}
  /-- The time that new markers carry. -/
  clock : Timestamp := ⟨0, 0⟩
deriving Inhabited

namespace Ledger

/-- The collections of the database: one that every database has, and the markers. -/
def collections : List String := ["__sled__default", "consumed_logs"]

/-- Whether a marker is set. -/
def isMarked (ledger : Ledger) (key : MarkerKey) : Bool := (ledger.records.get? key.encode).isSome

/-- Sets a marker. -/
def insert (ledger : Ledger) (key : MarkerKey) (block : UInt64) : Ledger :=
  { ledger with
    records := ledger.records.insert key.encode (Marker.encode ⟨block, ledger.clock⟩) }

/-- Writes any bytes under any key. -/
def putRaw (ledger : Ledger) (key value : Bytes) : Ledger :=
  { ledger with records := ledger.records.insert key value }

/-- The marker under a key, if there is one. -/
def marker? (ledger : Ledger) (key : MarkerKey) : Except StoreError (Option Marker) :=
  match ledger.records.get? key.encode with
  | none => .ok none
  | some bytes =>
      match Marker.decode? bytes with
      | some marker => .ok (some marker)
      | none => .error .corruptMarker

/-- The number of records. -/
def size (ledger : Ledger) : Nat := ledger.records.size

/-- Whether there are no records. -/
def isEmpty (ledger : Ledger) : Bool := ledger.records.isEmpty

/-- The database once everything written so far is on the disk. -/
def flush (ledger : Ledger) : Ledger := ledger

/-- The database after it was closed and opened again: everything that was written is there. -/
def reopen (ledger : Ledger) : Ledger := ledger

instance : MarkerStore Ledger :=
  .ofKeyed (fun key ledger => (.ok (ledger.isMarked key), ledger))
    (fun key block ledger => (.ok (), ledger.insert key block))

end Ledger

end LogRelay
