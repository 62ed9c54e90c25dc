import LogRelay.Marker.Key
import LogRelay.Proofs.BigEndian

/-!
# The written form of marker keys

The tag gives the scheme and with it the length of the job; the hash and the place have
fixed lengths.  So each part of a key is read off its written form, and no two keys have
the same one.
-/

namespace LogRelay.MarkerKey

theorem jobBytes_inj {first second : JobIdentity} (htag : tag first = tag second)
    (h : jobBytes first = jobBytes second) : first = second := by
  cases first with
  | v1 id =>
      cases second with
      | v1 other =>
          have hid : id = other := Word.ext h
          rw [hid]
      | v2 other => simp [tag] at htag
  | v2 id =>
      cases second with
      | v1 other => simp [tag] at htag
      | v2 other =>
          have hnumber : id.toUInt32.toNat = other.toUInt32.toNat :=
            Bytes.ofNat_inj h id.toUInt32.toNat_lt other.toUInt32.toNat_lt
          have hword : id.toUInt32 = other.toUInt32 := UInt32.toNat_inj.mp hnumber
          cases id
          cases other
          cases hword
          rfl

/-- No two keys have the same written form. -/
theorem encode_inj {first second : MarkerKey} (h : first.encode = second.encode) :
    first = second := by
  obtain ⟨hash, place, job⟩ := first
  obtain ⟨hash', place', job'⟩ := second
  simp only [encode, List.cons.injEq] at h
  obtain ⟨htag, hparts⟩ := h
  obtain ⟨hhash, hparts⟩ := List.append_inj hparts (by rw [hash.length_bytes, hash'.length_bytes])
  obtain ⟨hplace, hjob⟩ := List.append_inj hparts (by simp)
  have hplaceNumber : place.toNat = place'.toNat :=
    Bytes.ofNat_inj hplace place.toNat_lt place'.toNat_lt
  obtain rfl : hash = hash' := Word.ext hhash
  obtain rfl : place = place' := UInt64.toNat_inj.mp hplaceNumber
  obtain rfl : job = job' := jobBytes_inj htag hjob
  rfl

end LogRelay.MarkerKey
