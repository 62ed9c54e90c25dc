import LogRelay.Proofs.PositionalDecoding
import LogRelay.Proofs.WordCodec

/-!
# The types that parameters can have

Whatever a parameter is declared as, the numbers and byte strings in its type have widths that
exist (`Param.isProper_of_resolve`): a name that begins like a type with a size is refused if
there is no such size, and array suffixes and components only put types together.
-/

namespace LogRelay

namespace TypeText

theorem isProper_of_resolveName {name : String} {type : AbiType}
    (h : resolveName name = .ok type) : type.isProper = true := by
  unfold resolveName at h
  extract_lets sized at h
  have hsized : ∀ {digits : List Char} {isSize : Nat → Bool} {make : Nat → AbiType},
      sized digits isSize make = .ok type → ∃ size, isSize size = true ∧ type = make size := by
    intro digits isSize make hmade
    simp only [sized] at hmade
    split at hmade
    · next size hsize =>
      cases hmade
      exact ⟨size, (Option.filter_eq_some_iff.mp hsize).2, rfl⟩
    · cases hmade
  split at h
  case h_8 =>
    split at h
    · obtain ⟨size, hsize, rfl⟩ := hsized h
      exact hsize
    · obtain ⟨size, hsize, rfl⟩ := hsized h
      exact hsize
    · obtain ⟨size, hsize, rfl⟩ := hsized h
      exact hsize
    · cases h
  all_goals
    cases h
    rfl

theorem isProper_wrap {type : AbiType} (h : type.isProper = true) (suffixes : List ArraySuffix) :
    (wrap type suffixes).isProper = true := by
  induction suffixes generalizing type with
  | nil => exact h
  | cons suffix rest ih =>
      cases suffix with
      | none => exact ih (Bool.and_eq_true_iff.mpr ⟨rfl, h⟩)
      | some length => exact ih (Bool.and_eq_true_iff.mpr ⟨rfl, h⟩)

theorem isProper_tuple {elements : List AbiType}
    (h : ∀ element ∈ elements, element.isProper = true) :
    (AbiType.tuple elements).isProper = true :=
  Bool.and_eq_true_iff.mpr ⟨rfl, AbiType.allThroughout_iff.mpr h⟩

mutual

theorem isProper_of_resolve : ∀ (written : TypeText) {type : AbiType},
    written.resolve = .ok type → type.isProper = true
  | named name suffixes, type, h => by
      rw [resolve] at h
      obtain ⟨inner, hinner, h⟩ := exists_of_bind_eq_ok h
      cases h
      exact isProper_wrap (isProper_of_resolveName hinner) suffixes
  | tuple elements suffixes, type, h => by
      rw [resolve] at h
      obtain ⟨inner, hinner, h⟩ := exists_of_bind_eq_ok h
      cases h
      exact isProper_wrap (isProper_tuple (isProper_of_resolveAll elements hinner)) suffixes

theorem isProper_of_resolveAll : ∀ (written : List TypeText) {types : List AbiType},
    resolveAll written = .ok types → ∀ type ∈ types, type.isProper = true
  | [], types, h => by
      rw [resolveAll] at h
      cases h
      simp
  | first :: rest, types, h => by
      rw [resolveAll] at h
      obtain ⟨type, hfirst, h⟩ := exists_of_bind_eq_ok h
      obtain ⟨more, hrest, h⟩ := exists_of_bind_eq_ok h
      cases h
      exact List.forall_mem_cons.mpr
        ⟨isProper_of_resolve first hfirst, isProper_of_resolveAll rest hrest⟩

end

end TypeText

namespace Param

mutual

/-- The widths in the type of a parameter exist. -/
theorem isProper_of_resolve : ∀ (param : Param) {type : AbiType},
    param.resolve = .ok type → type.isProper = true
  | ⟨_, text, components⟩, type, h => by
      rw [resolve] at h
      obtain ⟨written, -, h⟩ := exists_of_bind_eq_ok h
      split at h
      · exact TypeText.isProper_of_resolve written h
      · obtain ⟨elements, helements, h⟩ := exists_of_bind_eq_ok h
        cases h
        exact TypeText.isProper_wrap
          (TypeText.isProper_tuple (isProper_of_resolveAll components helements)) _

theorem isProper_of_resolveAll : ∀ (params : List Param) {types : List AbiType},
    resolveAll params = .ok types → ∀ type ∈ types, type.isProper = true
  | [], types, h => by
      rw [resolveAll] at h
      cases h
      simp
  | first :: rest, types, h => by
      rw [resolveAll] at h
      obtain ⟨type, hfirst, h⟩ := exists_of_bind_eq_ok h
      obtain ⟨more, hrest, h⟩ := exists_of_bind_eq_ok h
      cases h
      exact List.forall_mem_cons.mpr
        ⟨isProper_of_resolve first hfirst, isProper_of_resolveAll rest hrest⟩

end

end Param

theorem Event.HasTypes.isProper {event : Event} {types : List AbiType} (h : event.HasTypes types) :
    ∀ type ∈ types, type.isProper = true :=
  Param.isProper_of_resolveAll _ h

end LogRelay
