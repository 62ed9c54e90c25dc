import LogRelay.Marker.Ledger
import LogRelay.Proofs.MarkerKeys

/-!
# What setting a marker changes

In memory and on disk alike, a key that is set has the new value (`get?_insert`), every
other key keeps its own, and the keys are those before and the one that was set
(`mem_keys_insert`), each of them once (`nodup_keys_insert`, `Ascending.insert`).  On
disk the keys are written down, so this rests on `MarkerKey.encode_inj`.

`LawfulStore` is what both have in common: a question is answered from the markers
and changes none, and a marker is set without failing and for good.
-/

namespace LogRelay

theorem lookup_cons_of_ne {α β : Type} [BEq α] [LawfulBEq α] {key other : α}
    (h : other ≠ key) (value : β) (rest : List (α × β)) :
    ((key, value) :: rest).lookup other = rest.lookup other := by
  have hne : (other == key) = false := beq_false_of_ne h
  rw [List.lookup_cons, hne]

theorem lookup_filter_ne {α β : Type} [BEq α] [LawfulBEq α] [DecidableEq α] {key other : α}
    (h : other ≠ key) (entries : List (α × β)) :
    (entries.filter fun entry => entry.1 ≠ key).lookup other = entries.lookup other := by
  induction entries with
  | nil => rfl
  | cons entry rest ih =>
      obtain ⟨first, value⟩ := entry
      by_cases hfirst : first = key
      · subst hfirst
        rw [List.filter_cons_of_neg (by simp), lookup_cons_of_ne h, ih]
      · rw [List.filter_cons_of_pos (by simp [hfirst]), List.lookup_cons, List.lookup_cons, ih]

/-! ## In memory -/

namespace MemoryStore

variable (store : MemoryStore)

/-- The keys of the markers. -/
def keys : List MarkerKey := store.markers.map (·.1)

theorem get?_insert (key other : MarkerKey) (block : UInt64) :
    (store.insert key block).get? other = if other = key then some block else store.get? other := by
  by_cases h : other = key
  · simp [get?, insert, h]
  · rw [if_neg h, get?, insert, lookup_cons_of_ne h]
    exact lookup_filter_ne h store.markers

theorem keys_insert (key : MarkerKey) (block : UInt64) :
    (store.insert key block).keys = key :: store.keys.filter (· ≠ key) := by
  simp only [keys, insert, List.map_cons, List.filter_map]
  rfl

theorem mem_keys_iff {key : MarkerKey} : key ∈ store.keys ↔ (store.get? key).isSome := by
  simp [keys, get?]

theorem mem_keys_insert {key other : MarkerKey} {block : UInt64} :
    other ∈ (store.insert key block).keys ↔ other = key ∨ other ∈ store.keys := by
  rw [keys_insert]
  by_cases h : other = key <;> simp [h]

variable {store}

theorem nodup_keys_insert (h : store.keys.Nodup) (key : MarkerKey) (block : UInt64) :
    (store.insert key block).keys.Nodup := by
  rw [keys_insert, List.nodup_cons]
  exact ⟨by simp, h.filter _⟩

end MemoryStore

/-! ## On disk -/

namespace ByteMap

variable {map : ByteMap} {key other value : Bytes}

theorem lookup_insertInto (key other value : Bytes) (entries : List (Bytes × Bytes)) :
    (insertInto key value entries).lookup other =
      if other = key then some value else entries.lookup other := by
  induction entries with
  | nil =>
      by_cases h : other = key
      · simp [insertInto, h]
      · rw [insertInto, lookup_cons_of_ne h, if_neg h]
  | cons entry rest ih =>
      obtain ⟨first, kept⟩ := entry
      simp only [insertInto]
      split
      · by_cases h : other = key
        · simp [h]
        · rw [lookup_cons_of_ne h, if_neg h]
      split
      · rename_i heq
        subst heq
        by_cases h : other = key
        · simp [h]
        · rw [lookup_cons_of_ne h, lookup_cons_of_ne h, if_neg h]
      · rename_i hne
        by_cases h : other = first
        · have hother : first ≠ key := fun h' => hne h'.symm
          simp [h, hother]
        · rw [lookup_cons_of_ne h, lookup_cons_of_ne h, ih]

theorem get?_insert (map : ByteMap) (key other value : Bytes) :
    (map.insert key value).get? other = if other = key then some value else map.get? other :=
  lookup_insertInto key other value map.entries

theorem mem_keys_iff : key ∈ map.keys ↔ (map.get? key).isSome := by
  simp [keys, get?]

theorem mem_keys_insert : other ∈ (map.insert key value).keys ↔ other = key ∨ other ∈ map.keys := by
  rw [mem_keys_iff, get?_insert, mem_keys_iff]
  by_cases h : other = key <;> simp [h]

theorem lt_of_not_lt_of_ne {first second : Bytes} (h : ¬ first < second) (hne : first ≠ second) :
    second < first := by
  apply Classical.byContradiction
  intro hnot
  exact hne (List.le_antisymm (List.not_lt.mp hnot) (List.not_lt.mp h))

/-- The entries are in the order of their keys, and no key is there twice. -/
def Ascending (map : ByteMap) : Prop := map.entries.Pairwise fun first second => first.1 < second.1

theorem Ascending.insertInto {entries : List (Bytes × Bytes)}
    (h : entries.Pairwise fun first second => first.1 < second.1) (key value : Bytes) :
    (insertInto key value entries).Pairwise fun first second => first.1 < second.1 := by
  induction entries with
  | nil => exact List.pairwise_singleton ..
  | cons entry rest ih =>
      obtain ⟨hhead, htail⟩ := List.pairwise_cons.mp h
      simp only [ByteMap.insertInto]
      split
      · rename_i hlt
        refine List.pairwise_cons.mpr ⟨?_, h⟩
        intro candidate hmem
        rcases List.mem_cons.mp hmem with rfl | hmem
        · exact hlt
        · exact List.lt_trans hlt (hhead candidate hmem)
      split
      · rename_i heq
        exact List.pairwise_cons.mpr ⟨heq ▸ hhead, htail⟩
      · rename_i hle hne
        refine List.pairwise_cons.mpr ⟨?_, ih htail⟩
        intro candidate hmem
        -- A key of the longer list is the new one or an old one; both come after the first.
        have hkey : candidate.1 ∈ (ByteMap.insert ⟨rest⟩ key value).keys :=
          List.mem_map_of_mem hmem
        rcases mem_keys_insert.mp hkey with heq | hold
        · rw [heq]
          exact lt_of_not_lt_of_ne hle hne
        · obtain ⟨old, hmem, heq⟩ := List.mem_map.mp hold
          exact heq ▸ hhead old hmem

theorem Ascending.insert (h : map.Ascending) (key value : Bytes) :
    (map.insert key value).Ascending :=
  Ascending.insertInto h key value

theorem Ascending.nodup_keys (h : map.Ascending) : map.keys.Nodup := by
  refine (List.pairwise_map.mpr h).imp ?_
  intro first second hlt heq
  exact List.lt_irrefl second (heq ▸ hlt)

end ByteMap

namespace Ledger

variable (ledger : Ledger)

theorem get?_insert (key other : MarkerKey) (block : UInt64) :
    (ledger.insert key block).records.get? other.encode =
      if other = key then some (Marker.encode ⟨block, ledger.clock⟩)
      else ledger.records.get? other.encode := by
  have hencode : other.encode = key.encode ↔ other = key :=
    ⟨MarkerKey.encode_inj, fun h => by rw [h]⟩
  simp only [insert, ByteMap.get?_insert, hencode]

theorem isMarked_insert (key other : MarkerKey) (block : UInt64) :
    (ledger.insert key block).isMarked other = (decide (other = key) || ledger.isMarked other) := by
  rw [isMarked, get?_insert]
  by_cases h : other = key <;> simp [h, isMarked]

end Ledger

/-! ## What both do -/

/-- A store that keeps the markers that are set. -/
class LawfulStore (σ : Type) [MarkerStore σ] where
  /-- Whether a marker is set. -/
  isMarked : σ → MarkerKey → Bool
  has_eq (store : σ) (key : MarkerKey) :
    MarkerStore.has key store = (.ok (isMarked store key), store)
  mark_eq (store : σ) (key : MarkerKey) (block : UInt64) :
    (MarkerStore.mark key block store).1 = .ok ()
  isMarked_mark (store : σ) (key other : MarkerKey) (block : UInt64) :
    isMarked (MarkerStore.mark key block store).2 other =
      (decide (other = key) || isMarked store other)

instance : LawfulStore MemoryStore where
  isMarked store key := (store.get? key).isSome
  has_eq store key := by cases key with | mk _ _ job => cases job <;> rfl
  mark_eq store key block := by cases key with | mk _ _ job => cases job <;> rfl
  isMarked_mark store key other block := by
    have hmark : (MarkerStore.mark key block store).2 = store.insert key block := by
      cases key with | mk _ _ job => cases job <;> rfl
    rw [hmark, MemoryStore.get?_insert]
    by_cases h : other = key <;> simp [h]

instance : LawfulStore Ledger where
  isMarked := Ledger.isMarked
  has_eq store key := by cases key with | mk _ _ job => cases job <;> rfl
  mark_eq store key block := by cases key with | mk _ _ job => cases job <;> rfl
  isMarked_mark store key other block := by
    have hmark : (MarkerStore.mark key block store).2 = store.insert key block := by
      cases key with | mk _ _ job => cases job <;> rfl
    rw [hmark]
    exact store.isMarked_insert key other block

end LogRelay
