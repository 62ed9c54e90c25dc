import Mathlib.Algebra.Ring.Nat
import LogRelay.Proofs.PositionalDecoding
import LogRelay.Proofs.WellTyped

/-!
# The memory that reading takes

Memory is taken twice: for blank values before anything is read, and for the copies of the blank
item of a list when its length is known.  How much that is, only the type and the value tell
(`AbiType.copiedItems`), not the data they are read from: every reading leaves exactly so much less
(`AbiType.spare_of_read`).  So what is decoded from any data fits in the memory
(`AbiType.isStorable_of_decodeAll`).
-/

namespace LogRelay

/-! ## Reading step by step -/

namespace Frame

variable {α : Type} {read : Reading α} {frame after : Frame}

theorem spare_of_word {word : Word 32} (h : Frame.word frame = .ok (word, after)) :
    after.spare = frame.spare := by
  rw [Frame.word] at h
  split at h
  · cases h
    rfl
  · cases h

theorem spare_of_distance {value : Nat} (h : distance frame = .ok (value, after)) :
    after.spare = frame.spare := by
  rw [distance] at h
  obtain ⟨⟨word, next⟩, hword, h⟩ := exists_of_bind_eq_ok h
  cases h
  exact spare_of_word hword

theorem spare_of_slice {length : Nat} {bytes : Bytes}
    (h : slice length frame = .ok (bytes, after)) : after.spare = frame.spare := by
  rw [slice] at h
  split at h
  · cases h
  split at h
  · cases h
    rfl
  · cases h

theorem spare_of_child {content : Bytes} (h : frame.child content = .ok after) :
    after.spare = frame.spare := by
  rw [child] at h
  split at h
  · cases h
  · cases h
    rfl

theorem spare_of_childAt {start : Nat} (h : frame.childAt start = .ok after) :
    after.spare = frame.spare := by
  rw [childAt] at h
  obtain ⟨-, -, h⟩ := exists_of_bind_eq_ok h
  split at h
  · exact spare_of_child h
  · cases h

theorem spare_of_hold {items : Nat} (h : frame.hold items = .ok after) :
    after.spare + items = frame.spare := by
  rw [hold] at h
  split at h
  · next hle =>
    cases h
    exact Nat.sub_add_cancel hle
  · cases h

/-- What is read in a frame of its own takes its memory here as well. -/
theorem exists_of_here {value : α} (h : here read frame = .ok (value, after)) :
    ∃ opened inner, read opened = .ok (value, inner) ∧ opened.spare = frame.spare ∧
      inner.spare = after.spare := by
  rw [here] at h
  obtain ⟨opened, hopened, h⟩ := exists_of_bind_eq_ok h
  obtain ⟨⟨result, inner⟩, hread, h⟩ := exists_of_bind_eq_ok h
  cases h
  exact ⟨opened, inner, hread, spare_of_child hopened, rfl⟩

theorem exists_of_elsewhere {value : α} (h : elsewhere read frame = .ok (value, after)) :
    ∃ opened inner, read opened = .ok (value, inner) ∧ opened.spare = frame.spare ∧
      inner.spare = after.spare := by
  rw [elsewhere] at h
  obtain ⟨⟨start, moved⟩, hstart, h⟩ := exists_of_bind_eq_ok h
  obtain ⟨opened, hopened, h⟩ := exists_of_bind_eq_ok h
  obtain ⟨⟨result, inner⟩, hread, h⟩ := exists_of_bind_eq_ok h
  cases h
  exact ⟨opened, inner, hread,
    (spare_of_childAt hopened).trans (spare_of_distance hstart), rfl⟩

theorem exists_of_grouped {moved : Bool} {value : α}
    (h : grouped moved read frame = .ok (value, after)) :
    ∃ opened inner, read opened = .ok (value, inner) ∧ opened.spare = frame.spare ∧
      inner.spare = after.spare := by
  rw [grouped] at h
  split at h
  · exact exists_of_elsewhere h
  · exact exists_of_here h

theorem spare_of_packed {bytes : Bytes} (h : packed frame = .ok (bytes, after)) :
    after.spare = frame.spare := by
  rw [packed] at h
  obtain ⟨opened, inner, h, hopened, hinner⟩ := exists_of_elsewhere h
  obtain ⟨⟨length, next⟩, hlength, h⟩ := exists_of_bind_eq_ok h
  rw [← hinner, spare_of_slice h, spare_of_distance hlength, hopened]

theorem length_times {count : Nat} {values : List α}
    (h : times read count frame = .ok (values, after)) : values.length = count := by
  induction count generalizing frame values with
  | zero =>
      cases h
      rfl
  | succ count ih =>
      rw [times] at h
      obtain ⟨⟨value, next⟩, -, h⟩ := exists_of_bind_eq_ok h
      obtain ⟨⟨more, last⟩, hmore, h⟩ := exists_of_bind_eq_ok h
      cases h
      rw [List.length_cons, ih hmore]

/-- A list is read after memory was taken for all items but one. -/
theorem exists_of_counted {leastWords blankItems : Nat} {values : List α}
    (h : counted leastWords blankItems read frame = .ok (values, after)) :
    ∃ opened inner, times read values.length opened = .ok (values, inner) ∧
      opened.spare + (values.length - 1) * (1 + blankItems) = frame.spare ∧
        inner.spare = after.spare := by
  rw [counted] at h
  obtain ⟨outer, inner, h, houter, hinner⟩ := exists_of_elsewhere h
  obtain ⟨⟨count, next⟩, hcount, h⟩ := exists_of_bind_eq_ok h
  have hspare : next.spare = frame.spare := (spare_of_distance hcount).trans houter
  simp only at h
  split at h
  · cases h
    exact ⟨inner, inner, rfl, by simpa using hspare, hinner⟩
  obtain ⟨inside, last, h, hinside, hlast⟩ := exists_of_here h
  split at h
  · cases h
  split at h
  · cases h
  split at h
  · cases h
  · obtain ⟨opened, hopened, h⟩ := exists_of_bind_eq_ok h
    obtain rfl : values.length = count := length_times h
    exact ⟨opened, last, h, by rw [spare_of_hold hopened, hinside, hspare], hlast.trans hinner⟩

end Frame

namespace AbiType

/-! ## The memory for a value -/

mutual

/-- The number of items that are copied to read a value of the type: a list of any length has one
blank item, which is copied for the others. -/
def copiedItems : AbiType → AbiValue → Nat
  | array element, .array items =>
      (items.length - 1) * (1 + blankItems element) + (items.map (copiedItems element)).sum
  | fixedArray element _, .fixedArray items => (items.map (copiedItems element)).sum
  | tuple elements, .tuple items => sumCopiedItems elements items
  | _, _ => 0

/-- The number of items that are copied to read the values. -/
def sumCopiedItems : List AbiType → List AbiValue → Nat
  | type :: types, value :: values => copiedItems type value + sumCopiedItems types values
  | _, _ => 0

end

theorem sumCopiedItems_replicate (type : AbiType) {length : Nat} {values : List AbiValue}
    (h : values.length = length) :
    sumCopiedItems (List.replicate length type) values =
      (values.map (copiedItems type)).sum := by
  subst h
  induction values with
  | nil => rfl
  | cons value rest ih =>
      rw [List.length_cons, List.replicate_succ, sumCopiedItems, ih, List.map_cons, List.sum_cons]

theorem copiedItems_of_isWord {type : AbiType} (h : type.isWord = true) (value : AbiValue) :
    type.copiedItems value = 0 := by
  cases type
  case bool | address | function | uint | int | fixedBytes => rfl
  all_goals cases h

/-! ## What reading leaves -/

/-- Reading a value takes memory for the items that are copied, and for no others. -/
def TakesCopied (type : AbiType) : Prop :=
  ∀ (frame after : Frame) (value : AbiValue), type.read frame = .ok (value, after) →
    after.spare + type.copiedItems value = frame.spare

theorem spare_of_readAll {types : List AbiType} (h : ∀ type ∈ types, type.TakesCopied)
    {frame after : Frame} {values : List AbiValue}
    (hread : readAll types frame = .ok (values, after)) :
    after.spare + sumCopiedItems types values = frame.spare := by
  induction types generalizing frame values with
  | nil =>
      cases hread
      rfl
  | cons type types ih =>
      obtain ⟨hfirst, hmore⟩ := List.forall_mem_cons.mp h
      rw [readAll] at hread
      obtain ⟨⟨value, next⟩, hvalue, hread⟩ := exists_of_bind_eq_ok hread
      obtain ⟨⟨rest, last⟩, hrest, hread⟩ := exists_of_bind_eq_ok hread
      cases hread
      have hnext := hfirst frame next value hvalue
      have hlast := ih hmore hrest
      rw [sumCopiedItems]
      omega

/-- Items of one type that are read one after the other. -/
theorem spare_of_times {element : AbiType} (h : element.TakesCopied) {count : Nat}
    {frame after : Frame} {items : List AbiValue}
    (hread : Frame.times (read element) count frame = .ok (items, after)) :
    after.spare + (items.map element.copiedItems).sum = frame.spare := by
  have hlength := Frame.length_times hread
  rw [times_read] at hread
  rw [← sumCopiedItems_replicate element hlength]
  exact spare_of_readAll (List.forall_mem_replicate.mpr (.inr h)) hread

theorem takesCopied (type : AbiType) : type.TakesCopied := by
  intro frame after value hread
  induction type using wordInduction generalizing frame after value with
  | word type hword =>
      rw [read_of_isWord hword, readWord] at hread
      obtain ⟨⟨word, next⟩, hnext, hread⟩ := exists_of_bind_eq_ok hread
      cases hread
      rw [copiedItems_of_isWord hword, Nat.add_zero, Frame.spare_of_word hnext]
  | bytes | string =>
      rw [read] at hread
      obtain ⟨⟨content, next⟩, hnext, hread⟩ := exists_of_bind_eq_ok hread
      cases hread
      exact Frame.spare_of_packed hnext
  | array element ih =>
      rw [read] at hread
      obtain ⟨⟨items, next⟩, hnext, hread⟩ := exists_of_bind_eq_ok hread
      cases hread
      obtain ⟨opened, inner, htimes, hopened, hinner⟩ := Frame.exists_of_counted hnext
      have hitems := spare_of_times ih htimes
      rw [copiedItems]
      omega
  | fixedArray element length ih =>
      rw [read] at hread
      obtain ⟨⟨items, next⟩, hnext, hread⟩ := exists_of_bind_eq_ok hread
      cases hread
      obtain ⟨opened, inner, htimes, hopened, hinner⟩ := Frame.exists_of_grouped hnext
      rw [copiedItems, ← hinner, spare_of_times ih htimes, hopened]
  | tuple elements ih =>
      rw [read] at hread
      obtain ⟨⟨items, next⟩, hnext, hread⟩ := exists_of_bind_eq_ok hread
      cases hread
      obtain ⟨opened, inner, hall, hopened, hinner⟩ := Frame.exists_of_grouped hnext
      rw [copiedItems, ← hinner, spare_of_readAll ih hall, hopened]

/-! ## The memory for the data of an event -/

/-- There is memory for the blank values of these types and for all that is copied to read the
values. -/
def IsStorable (types : List AbiType) (values : List AbiValue) : Prop :=
  sumBlankItems types + sumCopiedItems types values ≤ storableItemCount

instance (types : List AbiType) (values : List AbiValue) : Decidable (IsStorable types values) :=
  inferInstanceAs (Decidable (_ ≤ _))

theorem blankItems_lt_of_isStorable {type : AbiType} {values : List AbiValue}
    (h : IsStorable [type] values) : type.blankItems < storableItemCount := by
  rw [IsStorable, sumBlankItems, sumBlankItems] at h
  omega

theorem length_le_of_isStorable {element : AbiType} {items : List AbiValue}
    (h : IsStorable [.array element] [.array items]) : items.length ≤ storableItemCount := by
  have hcopied : items.length - 1 ≤ (items.length - 1) * (1 + blankItems element) :=
    Nat.le_mul_of_pos_right _ (by omega)
  rw [IsStorable, sumBlankItems, sumBlankItems, sumCopiedItems, copiedItems] at h
  omega

/-- What is decoded fits in the memory, whatever the data. -/
theorem isStorable_of_decodeAll {types : List AbiType} {data : Bytes} {values : List AbiValue}
    (hcontent : areEmpty types = false) (h : decodeAll types data = .ok values) :
    IsStorable types values := by
  obtain ⟨frame, last, hheld, hread⟩ := readAll_of_decodeAll hcontent h
  have hblank : frame.spare + sumBlankItems types = storableItemCount :=
    Frame.spare_of_hold hheld
  have hcopied := spare_of_readAll (fun type _ => takesCopied type) hread
  rw [IsStorable]
  omega

end AbiType

end LogRelay
