import Mathlib.Data.List.Nodup
import LogRelay.Proofs.DataRoundTrip
import LogRelay.Proofs.ResolvedTypes

/-!
# Logs that were encoded

A log of an event carries the values of its parameters, the words of the indexed ones as topics
and the others encoded in the data (`Event.Carries`).  Decoding it brings them back under the
names of the parameters, if and only if there is memory for them
(`ContractCodec.unpack?_of_isEncoded`); where the topic is a hash, the hash stands in the place of
the value.

There are logs for which the memory does not suffice although they carry no item at all
(`ContractCodec.limits_are_reached`).
-/

namespace LogRelay

/-! ## The parameters in the data -/

namespace AbiType

theorem AdmitAll.pick {types : List AbiType} {values : List AbiValue} (h : AdmitAll types values)
    {inputs : List EventParam} (hlength : types.length = inputs.length) (indexed : Bool) :
    AdmitAll (Event.pick indexed inputs types) (Event.pick indexed inputs values) := by
  induction types generalizing inputs values with
  | nil =>
      rw [AdmitAll] at h
      subst h
      simp [Event.pick, AdmitAll]
  | cons type types ih =>
      rw [AdmitAll] at h
      obtain ⟨value, rest, rfl, hvalue, hrest⟩ := h
      obtain ⟨input, inputs, rfl⟩ := List.exists_cons_of_length_eq_add_one hlength.symm
      have hmore := ih hrest (by simpa using hlength)
      by_cases hinput : input.indexed = indexed
      · simp only [Event.pick, List.zip_cons_cons, List.filter_cons, hinput, beq_self_eq_true,
          if_true, List.map_cons]
        exact ⟨_, _, rfl, hvalue, hmore⟩
      · simp only [Event.pick, List.zip_cons_cons, List.filter_cons, beq_iff_eq, hinput, if_false]
        exact hmore

end AbiType

namespace Event

theorem mem_of_mem_pick {α : Type} {indexed : Bool} {inputs : List EventParam} {items : List α}
    {item : α} (h : item ∈ pick indexed inputs items) : item ∈ items := by
  obtain ⟨pair, hpair, rfl⟩ := List.mem_map.mp h
  exact (List.of_mem_zip (List.mem_filter.mp hpair).1).2

/-- Every parameter of one kind has its place among all. -/
theorem exists_place {indexed : Bool} {inputs : List EventParam} {place : Nat}
    (h : place < count indexed inputs) : ∃ (among : Nat) (input : EventParam),
      inputs[among]? = some input ∧ input.indexed = indexed ∧
        count indexed (inputs.take among) = place := by
  induction inputs generalizing place with
  | nil => simp [count] at h
  | cons first rest ih =>
      by_cases hfirst : first.indexed = indexed
      · cases place with
        | zero => exact ⟨0, first, rfl, hfirst, rfl⟩
        | succ place =>
            obtain ⟨among, input, hinput, hindexed, hcount⟩ :=
              @ih place (by simpa [count, hfirst] using h)
            exact ⟨among + 1, input, hinput, hindexed, by simpa [count, hfirst] using hcount⟩
      · obtain ⟨among, input, hinput, hindexed, hcount⟩ :=
          @ih place (by simpa [count, hfirst] using h)
        exact ⟨among + 1, input, hinput, hindexed, by simpa [count, hfirst] using hcount⟩

/-- The log carries the values of the parameters: after the selector a topic for each indexed
one, which is the word of the value if its type has words, and the encoding of the others. -/
structure Carries (event : Event) (types : List AbiType) (values : List AbiValue)
    (log : RawLog) : Prop where
  selector : log.topics.head? = some event.selector
  count : log.topics.length = 1 + count true event.inputs
  word : ∀ (place : Nat) (input : EventParam) (type : AbiType) (value : AbiValue),
    event.inputs[place]? = some input → types[place]? = some type →
      values[place]? = some value → input.indexed = true → type.isWord = true →
        log.topics[1 + Event.count true (event.inputs.take place)]? = value.word?
  data : log.data = AbiValue.encodeAll (pick false event.inputs values)

/-- The fields have the names of the parameters, in their order, and their values; only the
value of an indexed parameter that does not fit in a word is not there, but the topic is. -/
structure Restores (event : Event) (types : List AbiType) (values : List AbiValue) (log : RawLog)
    (fields : LogFields) : Prop where
  name : fields.event = event.name
  length : fields.fields.length = event.inputs.length
  value : ∀ (place : Nat) (input : EventParam) (type : AbiType) (value : AbiValue),
    event.inputs[place]? = some input → types[place]? = some type →
      values[place]? = some value → (input.indexed = true → type.isWord = true) →
        fields.fields[place]? = some (input.param.name, value)
  hash : ∀ (place : Nat) (input : EventParam) (type : AbiType),
    event.inputs[place]? = some input → types[place]? = some type → input.indexed = true →
      type.isWord = false →
        ∃ topic, log.topics[1 + count true (event.inputs.take place)]? = some topic ∧
          fields.fields[place]? = some (input.param.name, .fixedBytes topic 32)

/-- The log is one of an event of the interface and carries values of its parameters.  The event
can be told from the others, and the types in the data have a size and are not nested too
deeply. -/
structure IsEncoded (abi : ContractAbi) (event : Event) (types : List AbiType)
    (values : List AbiValue) (log : RawLog) : Prop where
  mem : event ∈ abi.events
  selectable : event.anonymous = false
  unique : ((abi.events.filter fun other => !other.anonymous).map selector).Nodup
  typed : event.HasTypes types
  few : count true event.inputs ≤ 3
  solid : ∀ type ∈ event.typesOf false types, type.isSolid = true
  nested : AbiType.mostFrames (event.typesOf false types) ≤ Frame.limit
  admits : AbiType.AdmitAll types values
  carries : event.Carries types values log

variable {abi : ContractAbi} {event : Event} {types : List AbiType} {values : List AbiValue}
  {log : RawLog}

theorem Carries.topic (h : event.Carries types values log)
    (hvalues : AbiType.AdmitAll types values) {place : Nat} {input : EventParam} {type : AbiType}
    {value : AbiValue} (hinput : event.inputs[place]? = some input)
    (htype : types[place]? = some type) (hvalue : values[place]? = some value)
    (hindexed : input.indexed = true) (hword : type.isWord = true) :
    ∃ word, log.topics[1 + Event.count true (event.inputs.take place)]? = some word ∧
      value.word? = some word := by
  obtain ⟨word, hencoded⟩ := (hvalues.getElem htype hvalue).word? hword
  exact ⟨word, by rw [h.word place input type value hinput htype hvalue hindexed hword, hencoded],
    hencoded⟩

theorem IsEncoded.fits (h : event.IsEncoded abi types values log)
    (hcountable : log.data.length < sizeCount)
    (hstorable : AbiType.IsStorable (event.typesOf false types)
      (pick false event.inputs values)) :
    event.Fits log types (pick false event.inputs values) where
  typed := h.typed
  few := h.few
  topics := h.carries.count
  data := by
    have hdata := h.carries.data
    rw [hdata] at hcountable ⊢
    exact (AbiType.decodeAll_encodeAll_iff h.solid
      (fun type hmem => h.typed.isProper type (mem_of_mem_pick hmem)) h.nested
      (h.admits.pick h.typed.length false) hcountable).mpr hstorable

theorem IsEncoded.not_isContentless (h : event.IsEncoded abi types values log) :
    ¬ event.IsContentless types := by
  rintro ⟨hne, hempty⟩
  rw [AbiType.areEmpty_of_isSolid hne h.solid] at hempty
  cases hempty

theorem IsEncoded.restores (h : event.IsEncoded abi types values log) {fields : LogFields}
    (hfields : event.IsPositional log types (pick false event.inputs values) fields) :
    event.Restores types values log fields where
  name := hfields.name
  length := hfields.length
  value := by
    intro place input type value hinput htype hvalue hword
    cases hindexed : input.indexed with
    | true =>
        obtain ⟨topic, htopic, hfield⟩ := hfields.atTopic place input type hinput htype hindexed
        obtain ⟨word, hcarried, hencoded⟩ := h.carries.topic h.admits hinput htype hvalue hindexed
          (hword hindexed)
        obtain rfl : topic = word := Option.some.inj (htopic.symm.trans hcarried)
        have hproper := h.typed.isProper type (List.mem_of_getElem? htype)
        rw [hfield, AbiType.ofTopic_word? hproper (h.admits.getElem htype hvalue) hencoded]
    | false =>
        obtain ⟨other, hother, hfield⟩ := hfields.atData place input hinput hindexed
        have hpicked := getElem?_pick (h.admits.length.trans h.typed.length) hinput hvalue
        rw [hindexed] at hpicked
        obtain rfl : other = value := Option.some.inj (hother.symm.trans hpicked)
        exact hfield
  hash := by
    intro place input type hinput htype hindexed hword
    obtain ⟨topic, htopic, hfield⟩ := hfields.atTopic place input type hinput htype hindexed
    exact ⟨topic, htopic, by rw [hfield, AbiType.ofTopic_of_isWord hword]⟩

/-- What was decoded are the values that are brought back. -/
theorem Restores.body_eq {fields : LogFields} {body : List AbiValue}
    (h : event.Restores types values log fields) (hvalues : values.length = event.inputs.length)
    (hfits : event.Fits log types body) (hcontent : ¬ event.IsContentless types)
    (hfields : event.IsPositional log types body fields) :
    body = pick false event.inputs values := by
  have hbody := length_body hfits hcontent
  have hpick := length_pick hvalues false
  refine List.ext_getElem (hbody.trans hpick.symm) fun place hplace hplace' => ?_
  obtain ⟨among, input, hinput, hindexed, rfl⟩ := exists_place (hbody ▸ hplace)
  have hlt : among < event.inputs.length := (List.getElem?_eq_some_iff.mp hinput).1
  have hvalue := List.getElem?_eq_getElem (hvalues ▸ hlt)
  have htype := List.getElem?_eq_getElem (hfits.typed.length ▸ hlt)
  obtain ⟨other, hother, hfield⟩ := hfields.atData among input hinput hindexed
  rw [h.value among input _ _ hinput htype hvalue (by simp [hindexed])] at hfield
  have hpicked := getElem?_pick hvalues hinput hvalue
  rw [hindexed] at hpicked
  cases hfield
  rw [List.getElem?_eq_getElem hplace] at hother
  rw [List.getElem?_eq_getElem hplace'] at hpicked
  exact Option.some.inj (hother.trans hpicked.symm)

end Event

namespace ContractCodec

/-- An event is found under its selector if it is the only one that has it. -/
theorem eventById?_of_nodup {abi : ContractAbi} {event : Event} (hmem : event ∈ abi.events)
    (hselectable : event.anonymous = false)
    (hunique : ((abi.events.filter fun other => !other.anonymous).map Event.selector).Nodup) :
    (ofAbi abi).eventById? event.selector = some event := by
  have hfound : event ∈ abi.events.filter fun other =>
      !other.anonymous && other.selector == event.selector := by
    simp [hmem, hselectable]
  obtain ⟨last, hlast⟩ := Option.isSome_iff_exists.mp
    (List.getLast?_isSome.mpr (List.ne_nil_of_mem hfound))
  have hkeep := List.mem_filter.mp (List.mem_of_getLast? hlast)
  simp only [Bool.and_eq_true, Bool.not_eq_true', beq_iff_eq] at hkeep
  obtain rfl : last = event := List.inj_on_of_nodup_map hunique
    (by simp [hkeep.1, hkeep.2.1]) (by simp [hmem, hselectable]) hkeep.2.2
  rw [eventById?_ofAbi, hlast]

/-- If the values of an encoded log are brought back, the others were decoded from the data. -/
theorem decodeAll_of_restores {abi : ContractAbi} {event : Event} {types : List AbiType}
    {values : List AbiValue} {log : RawLog} {fields : LogFields}
    (h : event.IsEncoded abi types values log)
    (hunpack : (ofAbi abi).unpack? log = some (.ok fields))
    (hrestores : event.Restores types values log fields) :
    AbiType.decodeAll (event.typesOf false types) log.data =
      .ok (Event.pick false event.inputs values) := by
  obtain ⟨selector, other, hfirst, hevent, hdecode⟩ := unpack?_eq_ok.mp hunpack
  obtain rfl : event.selector = selector := Option.some.inj (h.carries.selector.symm.trans hfirst)
  rw [eventById?_of_nodup h.mem h.selectable h.unique] at hevent
  cases hevent
  have houtcome := Event.decode?_outcome h.carries.selector
  rw [hdecode] at houtcome
  cases houtcome with
  | @decoded others body _ hfits hcontent hpositional =>
      obtain rfl : types = others := Except.ok.inj (h.typed.symm.trans hfits.typed)
      rw [← hrestores.body_eq (h.admits.length.trans h.typed.length) hfits hcontent hpositional]
      exact hfits.data

theorem isStorable_of_restores {abi : ContractAbi} {event : Event} {types : List AbiType}
    {values : List AbiValue} {log : RawLog} {fields : LogFields}
    (h : event.IsEncoded abi types values log)
    (hunpack : (ofAbi abi).unpack? log = some (.ok fields))
    (hrestores : event.Restores types values log fields) :
    AbiType.IsStorable (event.typesOf false types) (Event.pick false event.inputs values) := by
  have hdata := decodeAll_of_restores h hunpack hrestores
  cases hempty : AbiType.areEmpty (event.typesOf false types) with
  | false => exact AbiType.isStorable_of_decodeAll hempty hdata
  | true =>
      have hnone : event.typesOf false types = [] :=
        Classical.byContradiction fun hne => h.not_isContentless ⟨hne, hempty⟩
      rw [hnone]
      exact Nat.zero_le _

/-- The values in an encoded log are brought back under the names of the parameters if and only if
there is memory for those in the data, provided that the size of the data can be counted. -/
theorem unpack?_of_isEncoded {abi : ContractAbi} {event : Event} {types : List AbiType}
    {values : List AbiValue} {log : RawLog} (h : event.IsEncoded abi types values log)
    (hcountable : log.data.length < sizeCount) :
    (∃ fields, (ofAbi abi).unpack? log = some (.ok fields) ∧
      event.Restores types values log fields) ↔
        AbiType.IsStorable (event.typesOf false types)
          (Event.pick false event.inputs values) := by
  constructor
  · rintro ⟨fields, hunpack, hrestores⟩
    exact isStorable_of_restores h hunpack hrestores
  · intro hstorable
    have hevent := eventById?_of_nodup h.mem h.selectable h.unique
    obtain ⟨fields, hdecode, hpositional⟩ := Event.isPositional_of_fits
      (h.fits hcountable hstorable) h.carries.selector h.not_isContentless
    exact ⟨fields, unpack?_eq_ok.mpr ⟨_, event, h.carries.selector, hevent, hdecode⟩,
      h.restores hpositional⟩

/-- The sample has a list of tuples in the data, the word of an address and a hash as topics. -/
theorem sample_unpack?_of_isEncoded :
    let item : Param := ⟨"items", "tuple[]", [⟨"flag", "bool", []⟩, ⟨"memo", "bytes", []⟩]⟩
    let event : Event :=
      ⟨"Sample", [⟨⟨"to", "address", []⟩, true⟩, ⟨item, false⟩, ⟨⟨"note", "string", []⟩, true⟩],
        false⟩
    let receiver : Word 20 := Word.ofNat 20 7
    let items : AbiValue := .array [.tuple [.bool true, .bytes [1, 2, 3]]]
    let hash : Hash := Word.ofNat 32 9
    let log : RawLog :=
      { topics := [event.selector, Word.padLeft 32 receiver.bytes, hash],
        data := AbiValue.encodeAll [items] }
    ∃ fields, (ofAbi ⟨[.event event]⟩).unpack? log = some (.ok fields) ∧
      fields.fields[0]? = some ("to", .address receiver) ∧
        fields.fields[1]? = some ("items", items) ∧
          fields.fields[2]? = some ("note", .fixedBytes hash 32) := by
  intro item event receiver items hash log
  have hencoded : event.IsEncoded ⟨[.event event]⟩
      [.address, .array (.tuple [.bool, .bytes]), .string]
      [.address receiver, items, .string "note"] log := by
    refine ⟨List.mem_singleton_self event, rfl, List.nodup_singleton event.selector, rfl,
      by decide, ?_, by decide, ?_, rfl, rfl, ?_, rfl⟩
    · intro type hmem
      obtain rfl := List.mem_singleton.mp hmem
      rfl
    · simp [AbiType.AdmitAll, AbiType.Admits, items]
    · intro place input type value hinput htype hvalue hindexed hword
      rcases place with _ | _ | _ | place
      · cases hvalue
        rfl
      · cases hinput
        cases hindexed
      · cases htype
        cases hword
      · cases hinput
  have hstorable : AbiType.IsStorable [.array (.tuple [.bool, .bytes])] [items] := by
    decide +kernel
  obtain ⟨fields, hunpack, hrestores⟩ :=
    (unpack?_of_isEncoded hencoded (by decide +kernel)).mpr hstorable
  refine ⟨fields, hunpack, ?_, ?_, ?_⟩
  · exact hrestores.value 0 _ _ _ rfl rfl rfl fun _ => rfl
  · exact hrestores.value 1 _ _ _ rfl rfl rfl fun h => absurd h (by decide)
  · obtain ⟨topic, htopic, hfield⟩ := hrestores.hash 2 _ _ rfl rfl rfl rfl
    cases htopic
    exact hfield

end ContractCodec

/-! ## The limits -/

namespace Frame

variable {α : Type} {read : Reading α} {frame after : Frame}

/-- No byte string is read whose length has more than 64 bits. -/
theorem length_of_packed {bytes : Bytes} (h : packed frame = .ok (bytes, after)) :
    bytes.length < sizeCount := by
  rw [packed] at h
  obtain ⟨opened, inner, h, -⟩ := exists_of_elsewhere h
  obtain ⟨⟨length, next⟩, -, h⟩ := exists_of_bind_eq_ok h
  simp only [slice] at h
  split at h
  · cases h
  split at h
  · cases h
    rw [List.length_take]
    omega
  · cases h

end Frame

namespace AbiType

theorem read_of_decodeAll {type : AbiType} {data : Bytes} {value : AbiValue}
    (hcontent : areEmpty [type] = false) (h : decodeAll [type] data = .ok [value]) :
    ∃ frame after, read type frame = .ok (value, after) := by
  obtain ⟨opened, last, -, hread⟩ := readAll_of_decodeAll hcontent h
  rw [readAll] at hread
  obtain ⟨⟨first, after⟩, hfirst, hread⟩ := exists_of_bind_eq_ok hread
  obtain ⟨⟨more, rest⟩, -, hread⟩ := exists_of_bind_eq_ok hread
  cases hread
  exact ⟨_, _, hfirst⟩

theorem length_of_read_bytes {frame after : Frame} {content : Bytes}
    (h : read bytes frame = .ok (.bytes content, after)) : content.length < sizeCount := by
  rw [read] at h
  obtain ⟨⟨value, last⟩, hpacked, h⟩ := exists_of_bind_eq_ok h
  cases h
  exact Frame.length_of_packed hpacked

end AbiType

namespace Event

/-- An event with one parameter, which stands in the data. -/
def sole (text : String) : Event := ⟨"E", [⟨⟨"a", text, []⟩, false⟩], false⟩

/-- The log of a sole parameter with a value. -/
def soleLog (text : String) (value : AbiValue) : RawLog :=
  { topics := [(sole text).selector], data := AbiValue.encodeAll [value] }

/-- The value of a sole parameter is encoded and not brought back. -/
def IsLost (text : String) (type : AbiType) (value : AbiValue) : Prop :=
  (sole text).IsEncoded ⟨[.event (sole text)]⟩ [type] [value] (soleLog text value) ∧
    ¬ ∃ fields, (ContractCodec.ofAbi ⟨[.event (sole text)]⟩).unpack? (soleLog text value) =
        some (.ok fields) ∧
      (sole text).Restores [type] [value] (soleLog text value) fields

theorem isEncoded_sole {text : String} {type : AbiType} {value : AbiValue}
    (htype : (sole text).HasTypes [type]) (hsolid : type.isSolid = true)
    (hnested : type.frames ≤ Frame.limit) (hvalue : type.Admits value) :
    (sole text).IsEncoded ⟨[.event (sole text)]⟩ [type] [value] (soleLog text value) where
  mem := List.mem_singleton_self _
  selectable := rfl
  unique := List.nodup_singleton (sole text).selector
  typed := htype
  few := Nat.zero_le 3
  solid := by
    intro other hmem
    obtain rfl := List.mem_singleton.mp hmem
    exact hsolid
  nested := Nat.max_le.mpr ⟨hnested, Nat.zero_le _⟩
  admits := ⟨value, [], rfl, hvalue, rfl⟩
  carries := by
    refine ⟨rfl, rfl, ?_, rfl⟩
    intro place input type value hinput _ _ hindexed
    cases place with
    | zero =>
        cases hinput
        cases hindexed
    | succ place => simp [sole] at hinput

theorem isLost_of_decodeAll {text : String} {type : AbiType} {value : AbiValue}
    (htype : (sole text).HasTypes [type]) (hsolid : type.isSolid = true)
    (hnested : type.frames ≤ Frame.limit) (hvalue : type.Admits value)
    (h : AbiType.decodeAll [type] (AbiValue.encodeAll [value]) ≠ .ok [value]) :
    IsLost text type value := by
  have hencoded := isEncoded_sole htype hsolid hnested hvalue
  refine ⟨hencoded, ?_⟩
  rintro ⟨fields, hunpack, hrestores⟩
  exact h (ContractCodec.decodeAll_of_restores hencoded hunpack hrestores)

/-- A value is lost if there is no memory for it. -/
theorem isLost_of_not_isStorable {text : String} {type : AbiType} {value : AbiValue}
    (htype : (sole text).HasTypes [type]) (hsolid : type.isSolid = true)
    (hnested : type.frames ≤ Frame.limit) (hvalue : type.Admits value)
    (h : ¬ AbiType.IsStorable [type] [value]) : IsLost text type value := by
  have hencoded := isEncoded_sole htype hsolid hnested hvalue
  refine ⟨hencoded, ?_⟩
  rintro ⟨fields, hunpack, hrestores⟩
  exact h (ContractCodec.isStorable_of_restores hencoded hunpack hrestores)

end Event

namespace ContractCodec

/-- The lengths of the lists of fixed length inside each other, from the outside, and the bits of
the numbers in the innermost. -/
def lengths? : AbiType → Option (List Nat × Nat)
  | .uint bits => some ([], bits)
  | .fixedArray element length =>
      (lengths? element).map fun (lengths, bits) => (length :: lengths, bits)
  | _ => none

theorem eq_of_lengths? {type : AbiType} {lengths : List Nat} {bits : Nat}
    (h : lengths? type = some (lengths, bits)) :
    type = lengths.foldr (fun length element => .fixedArray element length) (.uint bits) := by
  fun_induction lengths? type generalizing lengths with
  | case1 => cases h; rfl
  | case2 element length ih =>
      obtain ⟨⟨inner, width⟩, hinner, h⟩ := Option.map_eq_some_iff.mp h
      cases h
      rw [ih hinner]
      rfl
  | case3 => cases h

/-- Whether there is one type, a list of such lists. -/
def isListOf (lengths : List Nat) (bits : Nat) : Except TypeError (List AbiType) → Bool
  | .ok [.array element] => lengths? element == some (lengths, bits)
  | _ => false

theorem eq_of_isListOf {lengths : List Nat} {bits : Nat}
    {types : Except TypeError (List AbiType)} (h : isListOf lengths bits types = true) :
    types = .ok [.array
      (lengths.foldr (fun length element => .fixedArray element length) (.uint bits))] := by
  unfold isListOf at h
  split at h
  · rw [eq_of_lengths? (beq_iff_eq.mp h)]
  · cases h

/-- Not brought back are two lists without items, whose items would be a list that is too long for
the machine and lists that are too many for the memory, a list for which there is no memory, and a
byte string whose length has more than 64 bits. -/
theorem limits_are_reached :
    Event.IsLost "uint256[1000000000000000000][]"
        (.array (.fixedArray (.uint 256) 1000000000000000000)) (.array []) ∧
      Event.IsLost "uint256[100000][100000][]"
        (.array (.fixedArray (.fixedArray (.uint 256) 100000) 100000)) (.array []) ∧
      Event.IsLost "bool[]" (.array .bool)
        (.array (List.replicate (storableItemCount + 1) (.bool false))) ∧
      Event.IsLost "bytes" .bytes (.bytes (List.replicate sizeCount 0)) := by
  -- the lengths are too great to be compared by unfolding, so they are taken out of the types
  have hlong : (Event.sole "uint256[1000000000000000000][]").HasTypes
      [.array (.fixedArray (.uint 256) 1000000000000000000)] :=
    @eq_of_isListOf [1000000000000000000] 256 _ (by decide +kernel)
  have hmany : (Event.sole "uint256[100000][100000][]").HasTypes
      [.array (.fixedArray (.fixedArray (.uint 256) 100000) 100000)] :=
    @eq_of_isListOf [100000, 100000] 256 _ (by decide +kernel)
  refine ⟨Event.isLost_of_not_isStorable hlong rfl (by decide) ⟨[], rfl, by simp⟩ ?_,
    Event.isLost_of_not_isStorable hmany rfl (by decide) ⟨[], rfl, by simp⟩ ?_,
    Event.isLost_of_not_isStorable rfl rfl (by decide) ⟨_, rfl, ?_⟩ ?_,
    Event.isLost_of_decodeAll rfl rfl (by decide) ⟨_, rfl⟩ ?_⟩
  · exact fun h => absurd (AbiType.blankItems_lt_of_isStorable h) (by decide)
  · exact fun h => absurd (AbiType.blankItems_lt_of_isStorable h) (by decide)
  · exact fun item hmem => ⟨false, List.eq_of_mem_replicate hmem⟩
  · intro h
    have hlength := AbiType.length_le_of_isStorable h
    rw [List.length_replicate] at hlength
    exact absurd hlength (Nat.not_succ_le_self _)
  · intro h
    obtain ⟨frame, after, hread⟩ := AbiType.read_of_decodeAll rfl h
    have hlength := AbiType.length_of_read_bytes hread
    rw [List.length_replicate] at hlength
    exact absurd hlength (Nat.lt_irrefl _)

end ContractCodec

end LogRelay
