import LogRelay.Abi.Decode
import LogRelay.Abi.Encode

/-!
# Values of a type

Which values a type has (`AbiType.Admits`).  In this respect a list of fixed length is a tuple
with the same type at every place, so that lists and tuples share their lemmas.

The type tells what the encoding of its values is like: whether it goes to the tail
(`isDynamic_eq`), for which a list of fixed length has to have items, and how many frames are
opened to read it (`AbiType.frames`).
-/

namespace LogRelay

namespace AbiType

/-- Whether the values of the type fit in one word. -/
def isWord : AbiType → Bool
  | bool | address | function | uint _ | int _ | fixedBytes _ => true
  | _ => false

/-- Induction on types that takes those of one word together. -/
@[elab_as_elim]
theorem wordInduction {P : AbiType → Prop} (word : ∀ type, isWord type = true → P type)
    (bytes : P .bytes) (string : P .string) (array : ∀ element, P element → P (.array element))
    (fixedArray : ∀ element length, P element → P (.fixedArray element length))
    (tuple : ∀ elements, (∀ element ∈ elements, P element) → P (.tuple elements))
    (type : AbiType) : P type :=
  @AbiType.rec P (fun types => ∀ type ∈ types, P type)
    (word _ rfl) (word _ rfl) (word _ rfl) (fun _ => word _ rfl) (fun _ => word _ rfl)
    (fun _ => word _ rfl) bytes string array fixedArray tuple (by simp)
    (fun _ _ hfirst hrest => List.forall_mem_cons.mpr ⟨hfirst, hrest⟩) type

/-! ## Types inside types -/

mutual

/-- Whether the type and all types inside it pass a check. -/
def throughout (check : AbiType → Bool) : AbiType → Bool
  | array element => check (array element) && throughout check element
  | fixedArray element length => check (fixedArray element length) && throughout check element
  | tuple elements => check (tuple elements) && allThroughout check elements
  | type => check type

/-- Whether the types and all types inside them pass a check. -/
def allThroughout (check : AbiType → Bool) : List AbiType → Bool
  | [] => true
  | type :: rest => throughout check type && allThroughout check rest

end

theorem check_of_throughout {check : AbiType → Bool} {type : AbiType}
    (h : type.throughout check = true) : check type = true := by
  cases type
  case array | fixedArray | tuple => exact (Bool.and_eq_true_iff.mp h).1
  all_goals exact h

theorem allThroughout_iff {check : AbiType → Bool} {types : List AbiType} :
    allThroughout check types = true ↔ ∀ type ∈ types, type.throughout check = true := by
  induction types with
  | nil => simp [allThroughout]
  | cons type rest ih => simp [allThroughout, ih]

theorem throughout_array {check : AbiType → Bool} {element : AbiType}
    (h : (array element).throughout check = true) : element.throughout check = true :=
  (Bool.and_eq_true_iff.mp h).2

theorem throughout_fixedArray {check : AbiType → Bool} {element : AbiType} {length : Nat}
    (h : (fixedArray element length).throughout check = true) : element.throughout check = true :=
  (Bool.and_eq_true_iff.mp h).2

theorem throughout_tuple {check : AbiType → Bool} {elements : List AbiType}
    (h : (tuple elements).throughout check = true) :
    ∀ element ∈ elements, element.throughout check = true :=
  allThroughout_iff.mp (Bool.and_eq_true_iff.mp h).2

/-- A type without types of no size inside it, or being of no size itself. -/
def isSolid (type : AbiType) : Bool := type.throughout fun inner => !inner.isEmpty

theorem isEmpty_of_isSolid {type : AbiType} (h : type.isSolid = true) : type.isEmpty = false := by
  simpa using check_of_throughout h

theorem areEmpty_of_isSolid {types : List AbiType} (hne : types ≠ [])
    (h : ∀ type ∈ types, type.isSolid = true) : areEmpty types = false := by
  obtain ⟨first, rest, rfl⟩ := List.exists_cons_of_ne_nil hne
  simp [areEmpty, isEmpty_of_isSolid (h first List.mem_cons_self)]

mutual

/-- The number of frames inside each other that are opened at most to read a value. -/
def frames : AbiType → Nat
  | bytes | string => 1
  | array element => 2 + frames element
  | fixedArray element _ => 1 + frames element
  | tuple elements => 1 + mostFrames elements
  | _ => 0

/-- The number of frames inside each other that are opened at most to read the values. -/
def mostFrames : List AbiType → Nat
  | [] => 0
  | type :: rest => max (frames type) (mostFrames rest)

end

/-! ## The same type at every place -/

theorem mostFrames_replicate_le (type : AbiType) (length : Nat) :
    mostFrames (List.replicate length type) ≤ type.frames := by
  induction length with
  | zero => exact Nat.zero_le _
  | succ length ih => exact Nat.max_le.mpr ⟨Nat.le_refl _, ih⟩

theorem sumLeastWords_replicate (type : AbiType) (length : Nat) :
    sumLeastWords (List.replicate length type) = length * leastWords type := by
  induction length with
  | zero => simp [sumLeastWords]
  | succ length ih => rw [List.replicate_succ, sumLeastWords, ih, Nat.succ_mul, Nat.add_comm]

theorem someDynamic_replicate (type : AbiType) {length : Nat} (h : length ≠ 0) :
    someDynamic (List.replicate length type) = type.isDynamic := by
  induction length with
  | zero => exact absurd rfl h
  | succ length ih =>
      rw [List.replicate_succ, someDynamic]
      cases length with
      | zero => simp [someDynamic]
      | succ length => rw [ih (by simp), Bool.or_self]

theorem times_read (type : AbiType) (count : Nat) :
    Frame.times (read type) count = readAll (List.replicate count type) := by
  induction count with
  | zero => rfl
  | succ count ih =>
      funext frame
      simp only [Frame.times, List.replicate_succ, readAll, ih]

/-! ## The values of a type -/

mutual

/-- The value is one of the type. -/
def Admits : AbiType → AbiValue → Prop
  | bool, value => ∃ flag, value = .bool flag
  | address, value => ∃ word, value = .address word
  | function, value => ∃ word, value = .function word
  | uint bits, value => ∃ number, value = .uint number bits ∧ number < Nat.pow 2 bits
  | int bits, value => ∃ number, value = .int number bits ∧
      -(Nat.pow 2 (bits - 1) : Int) ≤ number ∧ number < Nat.pow 2 (bits - 1)
  | fixedBytes size, value => ∃ word, value = .fixedBytes word size ∧
      ∀ byte ∈ word.bytes.drop size, byte = 0
  | bytes, value => ∃ content, value = .bytes content
  | string, value => ∃ text, value = .string text
  | array element, value => ∃ items, value = .array items ∧ ∀ item ∈ items, Admits element item
  | fixedArray element length, value => ∃ items, value = .fixedArray items ∧
      items.length = length ∧ ∀ item ∈ items, Admits element item
  | tuple elements, value => ∃ items, value = .tuple items ∧ AdmitAll elements items

/-- The values are of the types, one for each. -/
def AdmitAll : List AbiType → List AbiValue → Prop
  | [], values => values = []
  | type :: types, values => ∃ value rest, values = value :: rest ∧ Admits type value ∧
      AdmitAll types rest

end

theorem admitAll_replicate {type : AbiType} {length : Nat} {values : List AbiValue} :
    AdmitAll (List.replicate length type) values ↔
      values.length = length ∧ ∀ value ∈ values, type.Admits value := by
  induction length generalizing values with
  | zero =>
      rw [List.replicate_zero, AdmitAll]
      exact ⟨by rintro rfl; simp, fun h => List.eq_nil_of_length_eq_zero h.1⟩
  | succ length ih =>
      rw [List.replicate_succ, AdmitAll]
      constructor
      · rintro ⟨value, rest, rfl, hvalue, hrest⟩
        obtain ⟨hlength, hall⟩ := ih.mp hrest
        exact ⟨by rw [List.length_cons, hlength], List.forall_mem_cons.mpr ⟨hvalue, hall⟩⟩
      · rintro ⟨hlength, hall⟩
        obtain ⟨value, rest, rfl⟩ := List.exists_cons_of_length_eq_add_one hlength
        obtain ⟨hvalue, hrest⟩ := List.forall_mem_cons.mp hall
        exact ⟨value, rest, rfl, hvalue, ih.mpr ⟨by simpa using hlength, hrest⟩⟩

theorem AdmitAll.length {types : List AbiType} {values : List AbiValue}
    (h : AdmitAll types values) : values.length = types.length := by
  induction types generalizing values with
  | nil => rw [AdmitAll] at h; rw [h]; rfl
  | cons type types ih =>
      rw [AdmitAll] at h
      obtain ⟨value, rest, rfl, -, hrest⟩ := h
      simp [ih hrest]

theorem AdmitAll.getElem {types : List AbiType} {values : List AbiValue}
    (h : AdmitAll types values) {place : Nat} {type : AbiType} {value : AbiValue}
    (htype : types[place]? = some type) (hvalue : values[place]? = some value) :
    type.Admits value := by
  induction types generalizing values place with
  | nil => simp at htype
  | cons first types ih =>
      rw [AdmitAll] at h
      obtain ⟨head, rest, rfl, hhead, hrest⟩ := h
      cases place with
      | zero =>
          obtain rfl : first = type := by simpa using htype
          obtain rfl : head = value := by simpa using hvalue
          exact hhead
      | succ place => exact ih hrest (by simpa using htype) (by simpa using hvalue)

/-! ## Values of one word -/

theorem Admits.word? {type : AbiType} {value : AbiValue} (h : type.Admits value)
    (hword : type.isWord = true) : ∃ word, value.word? = some word := by
  cases type
  case bool | address | function =>
    obtain ⟨content, rfl⟩ := h
    exact ⟨_, rfl⟩
  case uint | int | fixedBytes =>
    obtain ⟨content, rfl, -⟩ := h
    exact ⟨_, rfl⟩
  all_goals cases hword

theorem isDynamic_of_isWord {type : AbiType} (h : type.isWord = true) :
    type.isDynamic = false := by
  cases type
  case bool | address | function | uint | int | fixedBytes => rfl
  all_goals cases h

theorem leastWords_of_isWord {type : AbiType} (h : type.isWord = true) : type.leastWords = 1 := by
  cases type
  case bool | address | function | uint | int | fixedBytes => rfl
  all_goals cases h

theorem read_of_isWord {type : AbiType} (h : type.isWord = true) : read type = readWord type := by
  cases type
  case bool | address | function | uint | int | fixedBytes => rfl
  all_goals cases h

end AbiType

namespace AbiValue

theorem isDynamic_of_word? {value : AbiValue} {word : Word 32} (h : value.word? = some word) :
    value.isDynamic = false := by
  cases value
  case bool | address | function | uint | int | fixedBytes => rfl
  all_goals cases h

theorem encode_of_word? {value : AbiValue} {word : Word 32} (h : value.word? = some word) :
    value.encode = word.bytes := by
  cases value
  case bool | address | function | uint | int | fixedBytes =>
    rw [encode, h]
    · rfl
    all_goals simp
  all_goals cases h

end AbiValue

namespace AbiType

/-! ## What goes to the tail -/

theorem someDynamic_eq {types : List AbiType} {values : List AbiValue}
    (h : ∀ type ∈ types, ∀ value, type.Admits value → value.isDynamic = type.isDynamic)
    (hvalues : AdmitAll types values) :
    AbiValue.someDynamic values = someDynamic types := by
  induction types generalizing values with
  | nil =>
      rw [AdmitAll] at hvalues
      rw [hvalues]
      rfl
  | cons type types ih =>
      rw [AdmitAll] at hvalues
      obtain ⟨value, rest, rfl, hvalue, hrest⟩ := hvalues
      obtain ⟨hfirst, hmore⟩ := List.forall_mem_cons.mp h
      rw [AbiValue.someDynamic, someDynamic, hfirst value hvalue, ih hmore hrest]

theorem length_ne_zero_of_isSolid {element : AbiType} {length : Nat}
    (h : (fixedArray element length).isSolid = true) : length ≠ 0 := by
  have hsize := isEmpty_of_isSolid h
  rw [isEmpty] at hsize
  rintro rfl
  simp at hsize

/-- Values are dynamic as their type is. -/
theorem isDynamic_eq {type : AbiType} (hsolid : type.isSolid = true) {value : AbiValue}
    (h : type.Admits value) : value.isDynamic = type.isDynamic := by
  induction type using wordInduction generalizing value with
  | word type hword =>
      obtain ⟨word, hvalue⟩ := h.word? hword
      rw [AbiValue.isDynamic_of_word? hvalue, isDynamic_of_isWord hword]
  | bytes =>
      obtain ⟨content, rfl⟩ := h
      rfl
  | string =>
      obtain ⟨text, rfl⟩ := h
      rfl
  | array element ih =>
      rw [Admits] at h
      obtain ⟨items, rfl, -⟩ := h
      rfl
  | fixedArray element length ih =>
      rw [Admits] at h
      obtain ⟨items, rfl, hitems⟩ := h
      rw [AbiValue.isDynamic, isDynamic,
        ← someDynamic_replicate element (length_ne_zero_of_isSolid hsolid)]
      exact someDynamic_eq
        (List.forall_mem_replicate.mpr (.inr fun _ => ih (throughout_fixedArray hsolid)))
        (admitAll_replicate.mpr hitems)
  | tuple elements ih =>
      rw [Admits] at h
      obtain ⟨items, rfl, hitems⟩ := h
      exact someDynamic_eq (fun type hmem value hvalue =>
        ih type hmem (throughout_tuple hsolid type hmem) hvalue) hitems

end AbiType

end LogRelay
