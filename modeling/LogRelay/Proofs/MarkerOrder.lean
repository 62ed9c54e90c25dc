import LogRelay.Proofs.MarkerKeys
import Mathlib.Data.Prod.Lex

/-!
# The order of marker keys

A database is ordered by the written forms of its keys.  The first byte is the tag, so the keys of
the first scheme come before those of the second.  Within a scheme all parts have fixed lengths and
the place of the log is written with its most significant byte first, so that the keys are ordered
by block, then by place, then by the bytes of the job (`MarkerKey.position`).
-/

namespace LogRelay

/-- Whether the job is one of the first scheme. -/
def JobIdentity.isFirst : JobIdentity → Bool
  | v1 _ => true
  | v2 _ => false

namespace MarkerKey

variable {first second : MarkerKey}

/-- What orders the keys of one scheme: the block, the place of the log as a number, and the
bytes of the job. -/
def position (key : MarkerKey) : Bytes ×ₗ ℕ ×ₗ Bytes :=
  toLex (key.blockHash.bytes, toLex (key.logIndex.toNat, jobBytes key.job))

/-- The written form after the tag. -/
theorem parts_lt_parts_iff :
    first.blockHash.bytes ++ (Bytes.ofNat 8 first.logIndex.toNat ++ jobBytes first.job) <
        second.blockHash.bytes ++ (Bytes.ofNat 8 second.logIndex.toNat ++ jobBytes second.job) ↔
      first.position < second.position := by
  have hplace : Bytes.ofNat 8 first.logIndex.toNat = Bytes.ofNat 8 second.logIndex.toNat ↔
      first.logIndex.toNat = second.logIndex.toNat :=
    ⟨fun h => Bytes.ofNat_inj h first.logIndex.toNat_lt second.logIndex.toNat_lt,
      fun h => by rw [h]⟩
  rw [Bytes.append_lt_append_iff (by rw [first.blockHash.length_bytes,
      second.blockHash.length_bytes]), Bytes.append_lt_append_iff (by simp),
    Bytes.ofNat_lt_ofNat_iff first.logIndex.toNat_lt second.logIndex.toNat_lt, hplace, position,
    position, Prod.Lex.toLex_lt_toLex, Prod.Lex.toLex_lt_toLex]

theorem tag_lt_tag_iff :
    tag first.job < tag second.job ↔ first.job.isFirst = true ∧ second.job.isFirst = false := by
  cases first.job <;> cases second.job <;> simp [tag, JobIdentity.isFirst]

theorem tag_eq_tag_iff : tag first.job = tag second.job ↔
    first.job.isFirst = second.job.isFirst := by
  cases first.job <;> cases second.job <;> simp [tag, JobIdentity.isFirst]

/-- The first scheme comes first, and within a scheme the positions decide. -/
theorem encode_lt_encode_iff : first.encode < second.encode ↔
    (first.job.isFirst = true ∧ second.job.isFirst = false) ∨
      first.job.isFirst = second.job.isFirst ∧ first.position < second.position := by
  rw [encode, encode, List.cons_lt_cons_iff, parts_lt_parts_iff, tag_lt_tag_iff, tag_eq_tag_iff]

/-- The scheme decides how long a written form is. -/
theorem length_encode (key : MarkerKey) :
    key.encode.length = if key.job.isFirst then 57 else 45 := by
  have hhash := key.blockHash.length_bytes
  cases hjob : key.job with
  | v1 id => simp [encode, hjob, jobBytes, JobIdentity.isFirst, hhash, id.length_bytes]
  | v2 id => simp [encode, hjob, jobBytes, JobIdentity.isFirst, hhash]

/-- No written form is the beginning of another one: the tag is the same, hence the length. -/
theorem eq_of_prefix_encode (h : first.encode <+: second.encode) : first = second := by
  have htag : tag first.job = tag second.job := (List.cons_prefix_cons.mp h).1
  have hlength : first.encode.length = second.encode.length := by
    rw [length_encode, length_encode, tag_eq_tag_iff.mp htag]
  exact encode_inj (h.eq_of_length hlength)

/-- **The written form is faithful.**  Two keys have the same one only if they are the same, none
is the beginning of another one, and within a scheme the order of the written forms is that of the
blocks, then of the places as numbers, then of the bytes of the jobs. -/
theorem encode_is_faithful (first second : MarkerKey) :
    (first.encode = second.encode ↔ first = second) ∧
    ¬(first.encode <+: second.encode ∧ first.encode ≠ second.encode) ∧
    (first.job.isFirst = second.job.isFirst →
      (first.encode < second.encode ↔ first.position < second.position)) := by
  refine ⟨⟨encode_inj, fun h => h ▸ rfl⟩, ?_, fun hscheme => ?_⟩
  · rintro ⟨hinitial, hne⟩
    exact hne (congrArg encode (eq_of_prefix_encode hinitial))
  · rw [encode_lt_encode_iff]
    simp [hscheme]

/-- The key of a job of the second scheme for the last place of a block. -/
def ofNumber (id : Int32) : MarkerKey := ⟨default, 18446744073709551615, .v2 id⟩

/-- The bytes of a job put negative numbers after the others. -/
theorem sample_encode_is_faithful :
    ofNumber 1 ≠ ofNumber (-1) ∧ (ofNumber 1).encode ≠ (ofNumber (-1)).encode ∧
      (ofNumber 1).job.isFirst = (ofNumber (-1)).job.isFirst ∧
      (ofNumber 1).encode < (ofNumber (-1)).encode ∧
      (ofNumber 1).position < (ofNumber (-1)).position := by
  obtain ⟨hsame, -, horder⟩ := encode_is_faithful (ofNumber 1) (ofNumber (-1))
  have hne : ofNumber 1 ≠ ofNumber (-1) := by decide
  have hlt : (ofNumber 1).encode < (ofNumber (-1)).encode := by decide
  exact ⟨hne, fun heq => hne (hsame.mp heq), rfl, hlt, (horder rfl).mp hlt⟩

end MarkerKey

end LogRelay
