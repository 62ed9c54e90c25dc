import LogRelay.Marker.Key

/-!
# Stores of markers

A store answers whether a marker was set and sets markers, with an operation of its
own for each scheme of jobs.  Every operation may fail.  The store in memory never
does.
-/

namespace LogRelay

/-- Why a store failed. -/
inductive StoreError where
  /-- A marker is there but cannot be read. -/
  | corruptMarker
  /-- The database at the given place cannot be opened. -/
  | cannotOpen (place : String)
  /-- Any other failure, in its own words. -/
  | fault (cause : String)
deriving DecidableEq, Inhabited

/-- The message of a failure. -/
def StoreError.message : StoreError → String
  | corruptMarker => "Corrupt consumed-log marker"
  | cannotOpen place => "Failed to open sled database at " ++ place
  | fault cause => cause

/-- A step on a store: it changes the store and has a result or fails. -/
abbrev StoreStep (σ α : Type) := σ → Except StoreError α × σ

/-- What a relay asks of a store of markers. -/
class MarkerStore (σ : Type) where
  /-- Whether a job of the first scheme has processed a log. -/
  hasV1 (blockHash : Hash) (logIndex : UInt64) (job : Uuid) : StoreStep σ Bool
  /-- Whether a job of the second scheme has processed a log. -/
  hasV2 (blockHash : Hash) (logIndex : UInt64) (job : Int32) : StoreStep σ Bool
  /-- Records that a job of the first scheme has processed a log. -/
  markV1 (blockHash : Hash) (logIndex : UInt64) (job : Uuid) (block : UInt64) : StoreStep σ Unit
  /-- Records that a job of the second scheme has processed a log. -/
  markV2 (blockHash : Hash) (logIndex : UInt64) (job : Int32) (block : UInt64) : StoreStep σ Unit

namespace MarkerStore

variable {σ : Type}

/-- A store whose two schemes are handled alike. -/
@[reducible] def ofKeyed (has : MarkerKey → StoreStep σ Bool)
    (mark : MarkerKey → UInt64 → StoreStep σ Unit) : MarkerStore σ where
  hasV1 blockHash logIndex job := has ⟨blockHash, logIndex, .v1 job⟩
  hasV2 blockHash logIndex job := has ⟨blockHash, logIndex, .v2 job⟩
  markV1 blockHash logIndex job := mark ⟨blockHash, logIndex, .v1 job⟩
  markV2 blockHash logIndex job := mark ⟨blockHash, logIndex, .v2 job⟩

variable [MarkerStore σ]

/-- Whether a marker was set, asked through the scheme of its job. -/
def has (key : MarkerKey) : StoreStep σ Bool :=
  match key.job with
  | .v1 job => hasV1 key.blockHash key.logIndex job
  | .v2 job => hasV2 key.blockHash key.logIndex job

/-- Sets a marker through the scheme of its job. -/
def mark (key : MarkerKey) (block : UInt64) : StoreStep σ Unit :=
  match key.job with
  | .v1 job => markV1 key.blockHash key.logIndex job block
  | .v2 job => markV2 key.blockHash key.logIndex job block

end MarkerStore

/-! ## The store in memory -/

/-- Markers in memory: for each key the number of the block with which it was marked last. -/
structure MemoryStore where
  /-- The keys, each of them once, with their block numbers. -/
  markers : List (MarkerKey × UInt64) := []
deriving Inhabited

namespace MemoryStore

/-- The block number of a marker. -/
def get? (store : MemoryStore) (key : MarkerKey) : Option UInt64 := store.markers.lookup key

/-- Sets a marker. -/
def insert (store : MemoryStore) (key : MarkerKey) (block : UInt64) : MemoryStore :=
  ⟨(key, block) :: store.markers.filter fun marker => marker.1 ≠ key⟩

/-- The number of markers. -/
def size (store : MemoryStore) : Nat := store.markers.length

/-- Whether there are no markers. -/
def isEmpty (store : MemoryStore) : Bool := store.markers.isEmpty

instance : MarkerStore MemoryStore :=
  .ofKeyed (fun key store => (.ok (store.get? key).isSome, store))
    (fun key block store => (.ok (), store.insert key block))

end MemoryStore

end LogRelay
