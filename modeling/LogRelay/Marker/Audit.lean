import LogRelay.Marker.Store

/-!
# A store under observation

A store that notes every operation before passing it on, and that can be told to
fail.  A failing operation is noted too but does not reach the store behind.
-/

namespace LogRelay

/-- An operation on a store. -/
inductive StoreCall where
  | hasV1 (blockHash : Hash) (logIndex : UInt64) (job : Uuid)
  | hasV2 (blockHash : Hash) (logIndex : UInt64) (job : Int32)
  | markV1 (blockHash : Hash) (logIndex : UInt64) (job : Uuid) (block : UInt64)
  | markV2 (blockHash : Hash) (logIndex : UInt64) (job : Int32) (block : UInt64)
deriving DecidableEq

/-- A store together with the operations that were asked of it. -/
structure Audit (σ : Type) where
  store : σ
  /-- With a text every operation fails with this message. -/
  fault : Option String := none
  /-- The operations so far, the latest one last. -/
  journal : List StoreCall := []

namespace Audit

variable {σ α : Type}

/-- Notes an operation and performs it, unless the store is told to fail. -/
def perform (call : StoreCall) (step : StoreStep σ α) : StoreStep (Audit σ) α := fun audit =>
  let audit := { audit with journal := audit.journal ++ [call] }
  match audit.fault with
  | some cause => (.error (.fault cause), audit)
  | none =>
      let (result, store) := step audit.store
      (result, { audit with store })

instance [MarkerStore σ] : MarkerStore (Audit σ) where
  hasV1 blockHash logIndex job :=
    perform (.hasV1 blockHash logIndex job) (MarkerStore.hasV1 blockHash logIndex job)
  hasV2 blockHash logIndex job :=
    perform (.hasV2 blockHash logIndex job) (MarkerStore.hasV2 blockHash logIndex job)
  markV1 blockHash logIndex job block :=
    perform (.markV1 blockHash logIndex job block)
      (MarkerStore.markV1 blockHash logIndex job block)
  markV2 blockHash logIndex job block :=
    perform (.markV2 blockHash logIndex job block)
      (MarkerStore.markV2 blockHash logIndex job block)

end Audit

end LogRelay
