import LogRelay.Proofs.MarkerOrder
import LogRelay.Proofs.StoreRefinement

/-!
# The markers of a block in the database

Since the tag stands before the block, the keys of a block lie together only within a scheme.
Between the last key of a block in the first scheme and its first key in the second scheme lie the
keys of the later blocks in the first scheme and those of the earlier blocks in the second one
(`MarkerKey.Parts`), and no others.

In a database, which is in ascending order, elements stand together exactly if nothing else lies
between two of them (`isRange_iff`).  So the markers of a block and a scheme are always a range of
the database, and all markers of a block are one unless another marker parts them.
-/

namespace LogRelay

/-! ## Ranges of ascending lists -/

/-- The elements with the property stand together. -/
def IsRange {α : Type} (property : α → Prop) (list : List α) : Prop :=
  ∃ before range after, list = before ++ (range ++ after) ∧ (∀ x ∈ range, property x) ∧
    (∀ x ∈ before, ¬property x) ∧ ∀ x ∈ after, ¬property x

theorem IsRange.cons_of_not {α : Type} {property : α → Prop} {list : List α}
    (h : IsRange property list) {x : α} (hx : ¬property x) : IsRange property (x :: list) := by
  obtain ⟨before, range, after, rfl, hrange, hbefore, hafter⟩ := h
  exact ⟨x :: before, range, after, rfl, hrange, List.forall_mem_cons.mpr ⟨hx, hbefore⟩, hafter⟩

/-- In an ascending list elements stand together exactly if nothing else lies between them. -/
theorem isRange_iff {property : Bytes → Prop} {list : List Bytes} (h : list.Pairwise (· < ·)) :
    IsRange property list ↔ ∀ first ∈ list, ∀ middle ∈ list, ∀ last ∈ list,
      first ≤ middle → middle ≤ last → property first → property last → property middle := by
  constructor
  · rintro ⟨before, range, after, rfl, hrange, hbefore, hafter⟩ first hfirst middle hmiddle last
      hlast hle hle' hp hp'
    obtain ⟨-, htail, hcross⟩ := List.pairwise_append.mp h
    obtain ⟨-, -, hcross'⟩ := List.pairwise_append.mp htail
    have hinside : ∀ x ∈ before ++ (range ++ after), property x → x ∈ range := by
      intro x hx hpx
      rcases List.mem_append.mp hx with hmem | hmem
      · exact absurd hpx (hbefore x hmem)
      · exact (List.mem_append.mp hmem).resolve_right fun hmem => hafter x hmem hpx
    have hfirst := hinside first hfirst hp
    have hlast := hinside last hlast hp'
    -- A key before the range is below `first`, and one after it is above `last`.
    rcases List.mem_append.mp hmiddle with hmem | hmem
    · have hlt := hcross middle hmem first (List.mem_append_left _ hfirst)
      exact absurd hlt (List.not_lt.mpr hle)
    rcases List.mem_append.mp hmem with hmem | hmem
    · exact hrange middle hmem
    · exact absurd (hcross' last hlast middle hmem) (List.not_lt.mpr hle')
  · intro hbetween
    induction list with
    | nil => exact ⟨[], [], [], rfl, by simp, by simp, by simp⟩
    | cons x rest ih =>
        obtain ⟨hhead, htail⟩ := List.pairwise_cons.mp h
        have hrest := ih htail fun first hfirst middle hmiddle last hlast =>
          hbetween first (List.mem_cons_of_mem _ hfirst) middle (List.mem_cons_of_mem _ hmiddle)
            last (List.mem_cons_of_mem _ hlast)
        by_cases hx : property x
        · obtain ⟨before, range, after, rfl, hrange, hbefore, hafter⟩ := hrest
          cases range with
          | nil =>
              refine ⟨[], [x], before ++ after, rfl, by simpa using hx, by simp, ?_⟩
              intro y hy
              exact (List.mem_append.mp hy).elim (hbefore y) (hafter y)
          | cons first range =>
              have hnone : before = [] := by
                -- What stands between `x` and the range would have the property as well.
                refine List.eq_nil_iff_forall_not_mem.mpr fun y hy => hbefore y hy ?_
                have hlt := hhead y (by simp [hy])
                have hlt' := (List.pairwise_append.mp htail).2.2 y hy first (by simp)
                exact hbetween x (by simp) y (by simp [hy]) first (by simp)
                  (List.le_of_lt hlt) (List.le_of_lt hlt') hx (hrange first (by simp))
              subst hnone
              exact ⟨[], x :: first :: range, after, rfl, List.forall_mem_cons.mpr ⟨hx, hrange⟩,
                by simp, hafter⟩
        · exact hrest.cons_of_not hx

/-! ## Keys between keys of one block -/

namespace MarkerKey

variable {first middle last : MarkerKey}

theorem position_lt_position_iff (h : first.blockHash ≠ last.blockHash) :
    first.position < last.position ↔ first.blockHash < last.blockHash := by
  have hbytes : first.blockHash.bytes ≠ last.blockHash.bytes := fun heq => h (Word.ext heq)
  rw [position, position, Prod.Lex.toLex_lt_toLex, Word.lt_def]
  simp [hbytes]

/-- Keys of different blocks are ordered by their schemes, then by their blocks. -/
theorem encode_le_encode_iff (h : first.blockHash ≠ last.blockHash) :
    first.encode ≤ last.encode ↔
      if first.job.isFirst = last.job.isFirst then first.blockHash < last.blockHash
      else first.job.isFirst = true := by
  have hbytes : first.blockHash.bytes ≠ last.blockHash.bytes := fun heq => h (Word.ext heq)
  have hflip : ¬last.blockHash < first.blockHash ↔ first.blockHash < last.blockHash :=
    ⟨fun hnot => ByteMap.lt_of_not_lt_of_ne hnot hbytes.symm, List.lt_asymm⟩
  rw [← List.not_lt, encode_lt_encode_iff, position_lt_position_iff h.symm]
  cases first.job.isFirst <;> cases last.job.isFirst <;> simp [hflip]

/-- The key lies between keys of both schemes that are of one other block: it is one of a later
block in the first scheme or of an earlier block in the second one. -/
structure Parts (middle first last : MarkerKey) : Prop where
  schemes : first.job.isFirst = true ∧ last.job.isFirst = false
  block : if middle.job.isFirst then first.blockHash < middle.blockHash
    else middle.blockHash < last.blockHash

/-- Exactly such keys lie between keys of one other block. -/
theorem parts_iff (h : first.blockHash = last.blockHash) :
    middle.Parts first last ↔ first.encode ≤ middle.encode ∧ middle.encode ≤ last.encode ∧
      middle.blockHash ≠ first.blockHash := by
  constructor
  · rintro ⟨⟨hfirst, hlast⟩, hblock⟩
    have hne : first.blockHash ≠ middle.blockHash := by
      intro heq
      rw [← h, ← heq, ite_self] at hblock
      exact List.lt_irrefl _ hblock
    refine ⟨(encode_le_encode_iff hne).mpr ?_, (encode_le_encode_iff (h ▸ hne.symm)).mpr ?_,
      hne.symm⟩
    · cases hscheme : middle.job.isFirst <;> simp_all
    · cases hscheme : middle.job.isFirst <;> simp_all
  · rintro ⟨hle, hle', hne⟩
    rw [encode_le_encode_iff hne.symm] at hle
    rw [encode_le_encode_iff (h ▸ hne)] at hle'
    -- In one scheme the key would be of a block that is before and after the other one.
    have hnot : ¬(first.blockHash < middle.blockHash ∧ middle.blockHash < last.blockHash) :=
      fun ⟨hlt, hlt'⟩ => List.lt_asymm hlt (h ▸ hlt')
    have hschemes : first.job.isFirst = true ∧ last.job.isFirst = false := by
      cases hfirst : first.job.isFirst <;> cases hmiddle : middle.job.isFirst <;>
        cases hlast : last.job.isFirst <;> simp_all
    refine ⟨hschemes, ?_⟩
    rw [hschemes.1] at hle
    rw [hschemes.2] at hle'
    cases hmiddle : middle.job.isFirst
    · simpa [hmiddle] using hle'
    · simpa [hmiddle] using hle

/-- Between keys of one scheme there are only keys of that scheme. -/
theorem isFirst_of_between (hle : first.encode ≤ middle.encode)
    (hle' : middle.encode ≤ last.encode) (h : first.job.isFirst = last.job.isFirst) :
    middle.job.isFirst = last.job.isFirst := by
  rw [← List.not_lt, encode_lt_encode_iff] at hle hle'
  cases hmiddle : middle.job.isFirst <;> cases hlast : last.job.isFirst <;> simp_all

/-- The written form of a key of the block. -/
def OfBlock (block : Hash) (bytes : Bytes) : Prop :=
  ∃ key : MarkerKey, key.blockHash = block ∧ key.encode = bytes

/-- The written form of a key of the block whose job is of the first scheme or not. -/
def OfBlockIn (block : Hash) (isFirst : Bool) (bytes : Bytes) : Prop :=
  ∃ key : MarkerKey, key.blockHash = block ∧ key.job.isFirst = isFirst ∧ key.encode = bytes

end MarkerKey

/-! ## Blocks in a database -/

open MarkerKey (OfBlock OfBlockIn)
open StoreOperation (marked after)

variable {operations : List StoreOperation} {store : MemoryStore} {ledger : Ledger}

theorem Refines.keys_ascending (h : Refines operations store ledger) :
    ledger.records.keys.Pairwise (· < ·) :=
  List.pairwise_map.mpr h.ascending

/-- The keys of the database are the written forms of the marked keys. -/
theorem Refines.mem_records_keys (h : Refines operations store ledger) {bytes : Bytes} :
    bytes ∈ ledger.records.keys ↔ ∃ key ∈ marked operations, key.encode = bytes := by
  constructor
  · intro hmem
    obtain ⟨key, rfl⟩ := h.encoded bytes hmem
    exact ⟨key, (h.isMarked_iff key).mp (ByteMap.mem_keys_iff.mp hmem), rfl⟩
  · rintro ⟨key, hkey, rfl⟩
    exact ByteMap.mem_keys_iff.mpr ((h.isMarked_iff key).mpr hkey)

/-- The markers of a block and a scheme are a range of the database. -/
theorem Refines.isRange_ofBlockIn (h : Refines operations store ledger) (block : Hash)
    (isFirst : Bool) : IsRange (OfBlockIn block isFirst) ledger.records.keys := by
  refine (isRange_iff h.keys_ascending).mpr ?_
  rintro _ - bytes hmem _ - hle hle' ⟨first, hfirst, hscheme, rfl⟩ ⟨last, hlast, hscheme', rfl⟩
  obtain ⟨middle, -, rfl⟩ := h.mem_records_keys.mp hmem
  have hsame : first.job.isFirst = last.job.isFirst := hscheme.trans hscheme'.symm
  refine ⟨middle, ?_, (MarkerKey.isFirst_of_between hle hle' hsame).trans hscheme', rfl⟩
  by_contra hne
  have hparts := (MarkerKey.parts_iff (hfirst.trans hlast.symm)).mpr
    ⟨hle, hle', fun heq => hne (heq.trans hfirst)⟩
  exact absurd (hparts.schemes.1.symm.trans (hsame.trans hparts.schemes.2)) (by decide)

/-- The markers of a block are a range of the database unless a marker parts them. -/
theorem Refines.isRange_ofBlock_iff (h : Refines operations store ledger) (block : Hash) :
    IsRange (OfBlock block) ledger.records.keys ↔
      ∀ first ∈ marked operations, ∀ middle ∈ marked operations, ∀ last ∈ marked operations,
        first.blockHash = block → last.blockHash = block → ¬middle.Parts first last := by
  rw [isRange_iff h.keys_ascending]
  constructor
  · intro hbetween first hfirst middle hmiddle last hlast hblock hblock' hparts
    obtain ⟨hle, hle', hne⟩ := (MarkerKey.parts_iff (hblock.trans hblock'.symm)).mp hparts
    obtain ⟨key, hkey, hencode⟩ := hbetween _ (h.mem_records_keys.mpr ⟨first, hfirst, rfl⟩) _
      (h.mem_records_keys.mpr ⟨middle, hmiddle, rfl⟩) _
      (h.mem_records_keys.mpr ⟨last, hlast, rfl⟩) hle hle' ⟨first, hblock, rfl⟩
      ⟨last, hblock', rfl⟩
    rw [MarkerKey.encode_inj hencode] at hkey
    exact hne (hkey.trans hblock.symm)
  · rintro hparts bytes hmem bytes' hmem' bytes'' hmem'' hle hle' ⟨first, hblock, rfl⟩
      ⟨last, hblock', rfl⟩
    obtain ⟨key, hfirst, heq⟩ := h.mem_records_keys.mp hmem
    obtain rfl := MarkerKey.encode_inj heq
    obtain ⟨middle, hmiddle, rfl⟩ := h.mem_records_keys.mp hmem'
    obtain ⟨key', hlast, heq⟩ := h.mem_records_keys.mp hmem''
    obtain rfl := MarkerKey.encode_inj heq
    refine ⟨middle, ?_, rfl⟩
    by_contra hne
    refine hparts _ hfirst _ hmiddle _ hlast hblock hblock' ?_
    exact (MarkerKey.parts_iff (hblock.trans hblock'.symm)).mpr
      ⟨hle, hle', fun heq => hne (heq.trans hblock)⟩

/-- **The markers of a block stand together within a scheme.**  A key lies between two keys of
another block exactly if these are of the two schemes and it is one of a later block in the first
scheme or of an earlier block in the second one.  So in every database the markers of a block and
a scheme are a range, and all markers of the block are one exactly if no other marker parts
them. -/
theorem block_stands_together_by_scheme (first middle last : MarkerKey)
    (operations : List StoreOperation) (block : Hash) :
    (first.blockHash = last.blockHash →
      (middle.Parts first last ↔ first.encode ≤ middle.encode ∧ middle.encode ≤ last.encode ∧
        middle.blockHash ≠ first.blockHash)) ∧
    let keys := (after Ledger.perform operations {}).records.keys
    (∀ isFirst, IsRange (OfBlockIn block isFirst) keys) ∧
    (IsRange (OfBlock block) keys ↔
      ∀ first ∈ marked operations, ∀ middle ∈ marked operations, ∀ last ∈ marked operations,
        first.blockHash = block → last.blockHash = block → ¬middle.Parts first last) := by
  have hrefines := Refines.of_operations operations
  exact ⟨MarkerKey.parts_iff, hrefines.isRange_ofBlockIn block, hrefines.isRange_ofBlock_iff block⟩

/-! ### Two blocks -/

namespace Sample

/-- A key of the block of zeros in the first scheme. -/
def early : MarkerKey := ⟨Word.zero 32, 0, .v1 (Word.zero 16)⟩

/-- A key of a later block in the first scheme. -/
def parting : MarkerKey := ⟨Word.ofNat 32 1, 0, .v1 (Word.zero 16)⟩

/-- A key of the block of zeros in the second scheme. -/
def late : MarkerKey := ⟨Word.zero 32, 0, .v2 0⟩

/-- A job of the first scheme has processed a log of each block, and one of the second scheme a log
of the first block. -/
def marks : List StoreOperation :=
  [.call (.markV1 early.blockHash 0 (Word.zero 16) 1),
    .call (.markV1 parting.blockHash 0 (Word.zero 16) 2), .call (.markV2 late.blockHash 0 0 1)]

end Sample

open Sample in
/-- The markers of a block need not stand together. -/
theorem block_is_parted :
    early.blockHash = late.blockHash ∧ early.encode ≤ parting.encode ∧
      parting.encode ≤ late.encode ∧ parting.blockHash ≠ early.blockHash ∧
      (after Ledger.perform marks {}).records.keys =
        [early.encode, parting.encode, late.encode] := by
  decide +kernel

open Sample in
/-- The block of zeros is parted by the other block, but its two halves are ranges. -/
theorem sample_block_stands_together_by_scheme :
    early.blockHash = late.blockHash ∧ parting.Parts early late ∧
      (early.encode ≤ parting.encode ∧ parting.encode ≤ late.encode ∧
        parting.blockHash ≠ early.blockHash) ∧
      (∀ isFirst, IsRange (OfBlockIn early.blockHash isFirst)
        (after Ledger.perform marks {}).records.keys) ∧
      ¬IsRange (OfBlock early.blockHash) (after Ledger.perform marks {}).records.keys := by
  obtain ⟨hbetween, hschemes, hwhole⟩ :=
    block_stands_together_by_scheme early parting late marks early.blockHash
  have hparts : parting.Parts early late := ⟨by decide, by decide⟩
  refine ⟨rfl, hparts, (hbetween rfl).mp hparts, hschemes, fun hrange => ?_⟩
  exact hwhole.mp hrange early (by decide) parting (by decide) late (by decide) rfl rfl hparts

end LogRelay
