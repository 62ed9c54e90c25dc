import LogRelay.Marker.Audit
import LogRelay.Proofs.MarkerStores
import LogRelay.Proofs.TextBytes
import LogRelay.Proofs.TimestampText
import Mathlib.Data.Finset.Card

/-!
# The store on disk does what the store in memory does

Both stores start empty and are asked the same things in the same order.  `Refines` says
what they hold then, in terms of the marks made so far: every key with the block of its
last mark, in memory as such and on disk in the written form of a marker of that block.
Each operation keeps this (`Refines.perform`), and under it both stores reply alike
(`Refines.reply_eq`).

The keys on disk are counted through `MarkerKey.encode_inj`, and the markers are read
back by `Marker.decode?_encode`, for which the text of a time must be shorter than
`2 ^ 64` bytes (`Timestamp.length_text_le`).
-/

namespace LogRelay

/-! ## Reading a marker back -/

/-- The written form of a marker reads back as the marker. -/
theorem Marker.decode?_encode {marker : Marker} (h : marker.consumedAt.IsOnCalendar) :
    decode? (encode marker) = some marker := by
  have hbytes := Text.length_encode_le marker.consumedAt.text
  have hchars := Timestamp.length_text_le h
  have hlength : (Text.encode marker.consumedAt.text).length < 2 ^ 64 := by omega
  have hrest := Varint.decode?_encode_append hlength (Text.encode marker.consumedAt.text)
  simp only [decode?, encode, Varint.decode?_encode_append marker.blockNumber.toNat_lt, hrest,
    Option.bind_eq_bind, Option.bind_some, Nat.lt_irrefl, if_false, List.take_length,
    Text.decode?_encode, Timestamp.parse?_text h, UInt64.ofNat_toNat]
  rfl

/-! ## Operations -/

/-- What is asked of a store. -/
inductive StoreOperation where
  | call (call : StoreCall)
  | size
  | isEmpty
  /-- Everything is to be on the disk; in memory there is nothing to do. -/
  | flush
  /-- The database is closed and opened again; in memory there is nothing to do. -/
  | reopen
  /-- It is a later or, where the clock was set back, an earlier time. -/
  | pass (now : { time : Timestamp // time.IsOnCalendar })

/-- What a store replies. -/
inductive StoreReply where
  | flag (result : Except StoreError Bool)
  | done (result : Except StoreError Unit)
  | size (number : Nat)
  | isEmpty (yes : Bool)
  | silent

/-- Makes a call on a store. -/
def StoreCall.perform {σ : Type} [MarkerStore σ] (call : StoreCall) (store : σ) :
    StoreReply × σ :=
  match call with
  | hasV1 blockHash logIndex job =>
      let (result, store) := MarkerStore.hasV1 blockHash logIndex job store
      (.flag result, store)
  | hasV2 blockHash logIndex job =>
      let (result, store) := MarkerStore.hasV2 blockHash logIndex job store
      (.flag result, store)
  | markV1 blockHash logIndex job block =>
      let (result, store) := MarkerStore.markV1 blockHash logIndex job block store
      (.done result, store)
  | markV2 blockHash logIndex job block =>
      let (result, store) := MarkerStore.markV2 blockHash logIndex job block store
      (.done result, store)

/-- Asks the store in memory. -/
def MemoryStore.perform (operation : StoreOperation) (store : MemoryStore) :
    StoreReply × MemoryStore :=
  match operation with
  | .call call => call.perform store
  | .size => (.size store.size, store)
  | .isEmpty => (.isEmpty store.isEmpty, store)
  | .flush => (.silent, store)
  | .reopen => (.silent, store)
  | .pass _ => (.silent, store)

/-- Asks the store on disk. -/
def Ledger.perform (operation : StoreOperation) (ledger : Ledger) : StoreReply × Ledger :=
  match operation with
  | .call call => call.perform ledger
  | .size => (.size ledger.size, ledger)
  | .isEmpty => (.isEmpty ledger.isEmpty, ledger)
  | .flush => (.silent, ledger.flush)
  | .reopen => (.silent, ledger.reopen)
  | .pass now => (.silent, { ledger with clock := now })

namespace StoreOperation

variable {σ : Type}

/-- The store after operations one after the other. -/
def after (perform : StoreOperation → σ → StoreReply × σ) (operations : List StoreOperation)
    (start : σ) : σ :=
  operations.foldl (fun store operation => (perform operation store).2) start

/-- What a store replies to operations one after the other. -/
def replies (perform : StoreOperation → σ → StoreReply × σ) :
    List StoreOperation → σ → List StoreReply
  | [], _ => []
  | operation :: rest, store =>
      let (reply, store) := perform operation store
      reply :: replies perform rest store

/-- The mark that an operation makes: its key and the number of the block. -/
def mark? : StoreOperation → Option (MarkerKey × UInt64)
  | call (.markV1 blockHash logIndex job block) => some (⟨blockHash, logIndex, .v1 job⟩, block)
  | call (.markV2 blockHash logIndex job block) => some (⟨blockHash, logIndex, .v2 job⟩, block)
  | _ => none

/-- The keys that operations mark. -/
def marked (operations : List StoreOperation) : Finset MarkerKey :=
  ((operations.filterMap mark?).map (·.1)).toFinset

/-- The block of the last mark of a key. -/
def lastBlock? (operations : List StoreOperation) (key : MarkerKey) : Option UInt64 :=
  (operations.filterMap mark?).reverse.lookup key

theorem after_concat (perform : StoreOperation → σ → StoreReply × σ)
    (operations : List StoreOperation) (operation : StoreOperation) (start : σ) :
    after perform (operations ++ [operation]) start =
      (perform operation (after perform operations start)).2 := by
  simp [after]

theorem replies_append (perform : StoreOperation → σ → StoreReply × σ)
    (first second : List StoreOperation) (start : σ) :
    replies perform (first ++ second) start =
      replies perform first start ++ replies perform second (after perform first start) := by
  induction first generalizing start with
  | nil => rfl
  | cons operation rest ih => simp [replies, after, ih]

theorem lastBlock?_concat_of_none {operation : StoreOperation} (h : operation.mark? = none)
    (operations : List StoreOperation) (key : MarkerKey) :
    lastBlock? (operations ++ [operation]) key = lastBlock? operations key := by
  simp [lastBlock?, h]

theorem lastBlock?_concat_of_some {operation : StoreOperation} {key : MarkerKey}
    {block : UInt64} (h : operation.mark? = some (key, block)) (operations : List StoreOperation)
    (other : MarkerKey) :
    lastBlock? (operations ++ [operation]) other =
      if other = key then some block else lastBlock? operations other := by
  have hreverse : ((operations ++ [operation]).filterMap mark?).reverse =
      (key, block) :: (operations.filterMap mark?).reverse := by
    simp [h]
  rw [lastBlock?, hreverse]
  by_cases hother : other = key
  · simp [hother]
  · rw [lookup_cons_of_ne hother, if_neg hother, lastBlock?]

theorem mem_marked {operations : List StoreOperation} {key : MarkerKey} :
    key ∈ marked operations ↔ (lastBlock? operations key).isSome := by
  simp [marked, lastBlock?]

theorem marked_subset (operations later : List StoreOperation) :
    marked operations ⊆ marked (operations ++ later) := by
  intro key hkey
  simp only [marked, List.filterMap_append, List.map_append, List.toFinset_append,
    Finset.mem_union]
  exact .inl hkey

/-- An operation marks a key in both stores, or it changes the markers of neither. -/
theorem marks_or_not (operation : StoreOperation) (store : MemoryStore) (ledger : Ledger) :
    (∃ key block, operation.mark? = some (key, block) ∧
      store.perform operation = (.done (.ok ()), store.insert key block) ∧
      ledger.perform operation = (.done (.ok ()), ledger.insert key block)) ∨
    (operation.mark? = none ∧ (store.perform operation).2 = store ∧
      (ledger.perform operation).2.records = ledger.records ∧
      (ledger.clock.IsOnCalendar → (ledger.perform operation).2.clock.IsOnCalendar)) := by
  cases operation with
  | call call =>
      cases call with
      | hasV1 => exact .inr ⟨rfl, rfl, rfl, id⟩
      | hasV2 => exact .inr ⟨rfl, rfl, rfl, id⟩
      | markV1 => exact .inl ⟨_, _, rfl, rfl, rfl⟩
      | markV2 => exact .inl ⟨_, _, rfl, rfl, rfl⟩
  | size => exact .inr ⟨rfl, rfl, rfl, id⟩
  | isEmpty => exact .inr ⟨rfl, rfl, rfl, id⟩
  | flush => exact .inr ⟨rfl, rfl, rfl, id⟩
  | reopen => exact .inr ⟨rfl, rfl, rfl, id⟩
  | pass now => exact .inr ⟨rfl, rfl, rfl, fun _ => now.2⟩

end StoreOperation

/-! ## What both stores hold -/

open StoreOperation (marked lastBlock? after replies)

/-- Both stores hold the marks of the operations so far. -/
structure Refines (operations : List StoreOperation) (store : MemoryStore) (ledger : Ledger) :
    Prop where
  get?_eq : ∀ key, store.get? key = lastBlock? operations key
  nodup : store.keys.Nodup
  record_none : ∀ key, lastBlock? operations key = none → ledger.records.get? key.encode = none
  record_some : ∀ key block, lastBlock? operations key = some block → ∃ time : Timestamp,
    time.IsOnCalendar ∧ ledger.records.get? key.encode = some (Marker.encode ⟨block, time⟩)
  encoded : ∀ bytes ∈ ledger.records.keys, ∃ key : MarkerKey, key.encode = bytes
  ascending : ledger.records.Ascending
  clock : ledger.clock.IsOnCalendar

namespace Refines

variable {operations : List StoreOperation} {store : MemoryStore} {ledger : Ledger}

theorem empty : Refines [] {} {} where
  get?_eq _ := rfl
  nodup := List.nodup_nil
  record_none _ _ := rfl
  record_some _ _ h := by simp [lastBlock?] at h
  encoded _ h := by simp [ByteMap.keys] at h
  ascending := List.Pairwise.nil
  clock := ⟨by decide, by decide, by decide⟩

theorem mem_keys (h : Refines operations store ledger) (key : MarkerKey) :
    key ∈ store.keys ↔ key ∈ marked operations := by
  rw [store.mem_keys_iff, h.get?_eq, StoreOperation.mem_marked]

theorem isMarked_iff (h : Refines operations store ledger) (key : MarkerKey) :
    ledger.isMarked key = true ↔ key ∈ marked operations := by
  rw [StoreOperation.mem_marked, Ledger.isMarked]
  cases hlast : lastBlock? operations key with
  | none => simp [h.record_none key hlast]
  | some block =>
      obtain ⟨time, -, hrecord⟩ := h.record_some key block hlast
      simp [hrecord]

/-- Both stores hold as many entries as keys were marked. -/
theorem size_eq (h : Refines operations store ledger) :
    store.size = (marked operations).card ∧ ledger.size = (marked operations).card := by
  constructor
  · have hkeys : store.keys.toFinset = marked operations := by
      ext key
      rw [List.mem_toFinset, h.mem_keys]
    rw [← hkeys, List.toFinset_card_of_nodup h.nodup, MemoryStore.keys, List.length_map]
    rfl
  · have hkeys : ledger.records.keys.toFinset = (marked operations).image MarkerKey.encode := by
      ext bytes
      rw [List.mem_toFinset, Finset.mem_image]
      constructor
      · intro hmem
        obtain ⟨key, rfl⟩ := h.encoded bytes hmem
        exact ⟨key, (h.isMarked_iff key).mp (ByteMap.mem_keys_iff.mp hmem), rfl⟩
      · rintro ⟨key, hmem, rfl⟩
        exact ByteMap.mem_keys_iff.mpr ((h.isMarked_iff key).mpr hmem)
    have hinjective : Function.Injective MarkerKey.encode := fun _ _ => MarkerKey.encode_inj
    rw [← Finset.card_image_of_injective _ hinjective, ← hkeys,
      List.toFinset_card_of_nodup h.ascending.nodup_keys, ByteMap.keys, List.length_map]
    rfl

theorem isEmpty_eq (h : Refines operations store ledger) :
    store.isEmpty = decide (marked operations = ∅) ∧
      ledger.isEmpty = decide (marked operations = ∅) := by
  obtain ⟨hstore, hledger⟩ := h.size_eq
  have hlength : ∀ {α : Type} (entries : List α), entries.length = (marked operations).card →
      entries.isEmpty = decide (marked operations = ∅) := by
    intro α entries hcard
    rw [Bool.eq_iff_iff, List.isEmpty_iff, decide_eq_true_eq, ← Finset.card_eq_zero, ← hcard,
      List.length_eq_zero_iff]
  exact ⟨hlength store.markers hstore, hlength ledger.records.entries hledger⟩

theorem isMarked_eq (h : Refines operations store ledger) (key : MarkerKey) :
    LawfulStore.isMarked store key = decide (key ∈ marked operations) ∧
      LawfulStore.isMarked ledger key = decide (key ∈ marked operations) := by
  constructor
  · rw [Bool.eq_iff_iff, decide_eq_true_eq, ← h.mem_keys, store.mem_keys_iff]
    rfl
  · rw [Bool.eq_iff_iff, decide_eq_true_eq, ← h.isMarked_iff]
    rfl

/-- Under the same marks both stores reply alike. -/
theorem reply_eq (h : Refines operations store ledger) (operation : StoreOperation) :
    (ledger.perform operation).1 = (store.perform operation).1 := by
  have hhas : ∀ key, (store.get? key).isSome = ledger.isMarked key := fun key =>
    (h.isMarked_eq key).1.trans (h.isMarked_eq key).2.symm
  cases operation with
  | call call =>
      cases call with
      | hasV1 blockHash logIndex job =>
          exact congrArg (fun yes => StoreReply.flag (.ok yes))
            (hhas ⟨blockHash, logIndex, .v1 job⟩).symm
      | hasV2 blockHash logIndex job =>
          exact congrArg (fun yes => StoreReply.flag (.ok yes))
            (hhas ⟨blockHash, logIndex, .v2 job⟩).symm
      | markV1 => rfl
      | markV2 => rfl
  | size =>
      obtain ⟨hstore, hledger⟩ := h.size_eq
      simp only [Ledger.perform, MemoryStore.perform, hstore, hledger]
  | isEmpty =>
      obtain ⟨hstore, hledger⟩ := h.isEmpty_eq
      simp only [Ledger.perform, MemoryStore.perform, hstore, hledger]
  | flush => rfl
  | reopen => rfl
  | pass => rfl

/-- Every operation keeps what the stores hold in step with the marks. -/
theorem perform (h : Refines operations store ledger) (operation : StoreOperation) :
    Refines (operations ++ [operation]) (store.perform operation).2
      (ledger.perform operation).2 := by
  rcases operation.marks_or_not store ledger with
    ⟨key, block, hmark, hstore, hledger⟩ | ⟨hmark, hstore, hledger, hclock⟩
  · have hlast := StoreOperation.lastBlock?_concat_of_some hmark operations
    rw [hstore, hledger]
    constructor
    case get?_eq =>
      intro other
      rw [store.get?_insert, hlast, h.get?_eq]
    case nodup => exact MemoryStore.nodup_keys_insert h.nodup key block
    case record_none =>
      intro other hnone
      rw [hlast] at hnone
      split at hnone
      · cases hnone
      · rename_i hother
        rw [ledger.get?_insert, if_neg hother]
        exact h.record_none other hnone
    case record_some =>
      intro other last hsome
      rw [hlast] at hsome
      split at hsome
      · rename_i hother
        cases hsome
        exact ⟨ledger.clock, h.clock, by rw [ledger.get?_insert, if_pos hother]⟩
      · rename_i hother
        rw [ledger.get?_insert, if_neg hother]
        exact h.record_some other last hsome
    case encoded =>
      intro bytes hmem
      rcases ByteMap.mem_keys_insert.mp hmem with rfl | hold
      · exact ⟨key, rfl⟩
      · exact h.encoded bytes hold
    case ascending => exact h.ascending.insert _ _
    case clock => exact h.clock
  · have hlast := StoreOperation.lastBlock?_concat_of_none hmark operations
    rw [hstore]
    constructor
    case get?_eq =>
      intro key
      rw [hlast, h.get?_eq]
    case nodup => exact h.nodup
    case record_none =>
      intro key hnone
      rw [hledger]
      exact h.record_none key (hlast key ▸ hnone)
    case record_some =>
      intro key block hsome
      rw [hledger]
      exact h.record_some key block (hlast key ▸ hsome)
    case encoded =>
      rw [hledger]
      exact h.encoded
    case ascending =>
      rw [hledger]
      exact h.ascending
    case clock => exact hclock h.clock

/-- What both stores hold after any operations on empty stores. -/
theorem of_operations (operations : List StoreOperation) :
    Refines operations (after MemoryStore.perform operations {})
      (after Ledger.perform operations {}) := by
  induction operations using List.reverseRecOn with
  | nil => exact empty
  | append_singleton operations operation ih =>
      rw [StoreOperation.after_concat, StoreOperation.after_concat]
      exact ih.perform operation

theorem replies_eq (operations : List StoreOperation) :
    replies Ledger.perform operations {} = replies MemoryStore.perform operations {} := by
  induction operations using List.reverseRecOn with
  | nil => rfl
  | append_singleton operations operation ih =>
      have hreply := (of_operations operations).reply_eq operation
      rw [StoreOperation.replies_append, StoreOperation.replies_append, ih]
      simp only [replies, hreply]

theorem marker?_of_not_mem (h : Refines operations store ledger) {key : MarkerKey}
    (hkey : key ∉ marked operations) : ledger.marker? key = .ok none := by
  rw [StoreOperation.mem_marked, Option.not_isSome_iff_eq_none] at hkey
  rw [Ledger.marker?, h.record_none key hkey]

/-- The record of a marked key reads back as a marker of the block of its last mark. -/
theorem marker?_of_mem (h : Refines operations store ledger) {key : MarkerKey}
    (hkey : key ∈ marked operations) : ∃ marker, ledger.marker? key = .ok (some marker) ∧
      lastBlock? operations key = some marker.blockNumber := by
  obtain ⟨block, hlast⟩ := Option.isSome_iff_exists.mp (StoreOperation.mem_marked.mp hkey)
  obtain ⟨time, htime, hrecord⟩ := h.record_some key block hlast
  have hread : Marker.decode? (Marker.encode ⟨block, time⟩) = some ⟨block, time⟩ :=
    Marker.decode?_encode htime
  refine ⟨⟨block, time⟩, ?_, hlast⟩
  rw [Ledger.marker?, hrecord]
  simp only [hread]

end Refines

/-- **The store on disk refines the store in memory.**  Both reply alike to any operations; a
marker is set exactly if it was marked, now and after any later operations; both hold as many
entries as keys were marked; and on disk there is, for exactly the marked keys, a marker that
reads back with the block of the last mark. -/
theorem Ledger.refines_memory (operations : List StoreOperation) :
    let store := after MemoryStore.perform operations {}
    let ledger := after Ledger.perform operations {}
    replies Ledger.perform operations {} = replies MemoryStore.perform operations {} ∧
    (∀ key, (MarkerStore.has key ledger).1 = .ok (decide (key ∈ marked operations)) ∧
      (MarkerStore.has key store).1 = .ok (decide (key ∈ marked operations))) ∧
    (∀ key ∈ marked operations, ∀ later,
      (MarkerStore.has key (after Ledger.perform (operations ++ later) {})).1 = .ok true ∧
      (MarkerStore.has key (after MemoryStore.perform (operations ++ later) {})).1 = .ok true) ∧
    ledger.size = (marked operations).card ∧ store.size = (marked operations).card ∧
    ledger.isEmpty = decide (marked operations = ∅) ∧
    store.isEmpty = decide (marked operations = ∅) ∧
    (∀ key ∉ marked operations, ledger.marker? key = .ok none) ∧
    ∀ key ∈ marked operations, ∃ marker, ledger.marker? key = .ok (some marker) ∧
      lastBlock? operations key = some marker.blockNumber := by
  have hrefines := Refines.of_operations operations
  have hhas : ∀ (operations : List StoreOperation) (key : MarkerKey),
      (MarkerStore.has key (after Ledger.perform operations {})).1 =
          .ok (decide (key ∈ marked operations)) ∧
        (MarkerStore.has key (after MemoryStore.perform operations {})).1 =
          .ok (decide (key ∈ marked operations)) := by
    intro operations key
    obtain ⟨hstore, hledger⟩ := (Refines.of_operations operations).isMarked_eq key
    rw [LawfulStore.has_eq, LawfulStore.has_eq, hstore, hledger]
    exact ⟨rfl, rfl⟩
  refine ⟨Refines.replies_eq operations, hhas operations, ?_, hrefines.size_eq.2,
    hrefines.size_eq.1, hrefines.isEmpty_eq.2, hrefines.isEmpty_eq.1,
    fun _ => hrefines.marker?_of_not_mem, fun _ => hrefines.marker?_of_mem⟩
  intro key hkey later
  have hlater : key ∈ marked (operations ++ later) :=
    StoreOperation.marked_subset operations later hkey
  simpa [hlater] using hhas (operations ++ later) key

end LogRelay
