import LogRelay.Abi.Codec

/-!
# Decoding by position

A log that fits its event has one topic for each indexed parameter, after the selector,
and data for the others.  Topics and data are used up from the front while the parameters
are walked through, so each parameter gets the value at its place among those of its kind
(`arrange_eq`).

Whether a log decodes can be read off beforehand (`Event.Fits`), with one exception: data
for parameters that all have no content makes no values at all, and where there is such a
parameter its value is missing (`Event.IsContentless`).
-/

namespace LogRelay

theorem getElem?_filter_countP {α : Type} {p : α → Bool} {items : List α} {place : Nat}
    {item : α} (h : items[place]? = some item) (hp : p item = true) :
    (items.filter p)[(items.take place).countP p]? = some item := by
  induction items generalizing place with
  | nil => simp at h
  | cons first rest ih =>
      cases place with
      | zero =>
          obtain rfl : first = item := by simpa using h
          simp [hp]
      | succ place =>
          have hrest := ih (by simpa using h)
          by_cases hfirst : p first = true
          · rw [List.filter_cons_of_pos hfirst, List.take_succ_cons, List.countP_cons_of_pos hfirst]
            simpa using hrest
          · rw [List.filter_cons_of_neg hfirst, List.take_succ_cons, List.countP_cons_of_neg hfirst]
            exact hrest

theorem exists_of_bind_eq_ok {ε α β : Type} {first : Except ε α} {next : α → Except ε β} {b : β}
    (h : (first >>= next) = .ok b) : ∃ a, first = .ok a ∧ next a = .ok b := by
  cases first with
  | error => cases h
  | ok a => exact ⟨a, rfl, h⟩

/-! ## How many values there are -/

theorem Param.length_resolveAll {params : List Param} {types : List AbiType}
    (h : resolveAll params = .ok types) : types.length = params.length := by
  induction params generalizing types with
  | nil =>
      rw [resolveAll] at h
      cases h
      rfl
  | cons param rest ih =>
      rw [resolveAll] at h
      obtain ⟨type, -, h⟩ := exists_of_bind_eq_ok h
      obtain ⟨more, hmore, h⟩ := exists_of_bind_eq_ok h
      cases h
      simp [ih hmore]

namespace AbiType

theorem length_readAll {types : List AbiType} {frame : Frame} {result : List AbiValue × Frame}
    (h : readAll types frame = .ok result) : result.1.length = types.length := by
  induction types generalizing frame result with
  | nil =>
      rw [readAll] at h
      cases h
      rfl
  | cons type rest ih =>
      rw [readAll] at h
      obtain ⟨⟨value, frame'⟩, -, h⟩ := exists_of_bind_eq_ok h
      obtain ⟨⟨values, frame''⟩, hmore, h⟩ := exists_of_bind_eq_ok h
      cases h
      simp [ih hmore]

theorem decodeAll_of_areEmpty {types : List AbiType} (h : areEmpty types = true) (data : Bytes) :
    decodeAll types data = .ok [] := by
  rw [decodeAll, if_pos h]

/-- Data for types with content is decoded by reading all of it, once there is memory for the blank
values. -/
theorem readAll_of_decodeAll {types : List AbiType} {data : Bytes} {values : List AbiValue}
    (hcontent : areEmpty types = false) (h : decodeAll types data = .ok values) :
    ∃ frame last,
      Frame.hold (sumBlankItems types) { content := data, rest := data } = .ok frame ∧
        readAll types frame = .ok (values, last) := by
  unfold decodeAll at h
  rw [hcontent, if_neg (by simp)] at h
  split at h
  · cases h
  split at h
  · cases h
  split at h
  · cases h
  · obtain ⟨frame, hheld, h⟩ := exists_of_bind_eq_ok h
    obtain ⟨⟨read, last⟩, hread, h⟩ := exists_of_bind_eq_ok h
    cases h
    exact ⟨frame, last, hheld, hread⟩

/-- Data for types with content makes one value for each type. -/
theorem length_decodeAll {types : List AbiType} {data : Bytes} {values : List AbiValue}
    (hcontent : areEmpty types = false) (h : decodeAll types data = .ok values) :
    values.length = types.length := by
  obtain ⟨frame, last, -, hread⟩ := readAll_of_decodeAll hcontent h
  exact length_readAll hread

end AbiType

namespace Event

/-- How many of the parameters are indexed, or how many are not. -/
def count (indexed : Bool) (inputs : List EventParam) : Nat :=
  inputs.countP fun input => input.indexed == indexed

theorem count_cons_self {indexed : Bool} {first : EventParam} (h : first.indexed = indexed)
    (rest : List EventParam) : count indexed (first :: rest) = count indexed rest + 1 :=
  List.countP_cons_of_pos (by simp [h])

theorem count_cons_of_ne {indexed : Bool} {first : EventParam} (h : first.indexed ≠ indexed)
    (rest : List EventParam) : count indexed (first :: rest) = count indexed rest :=
  List.countP_cons_of_neg (by simp [h])

/-- Before a parameter there are fewer of its kind than altogether. -/
theorem count_take_lt {inputs : List EventParam} {place : Nat} {input : EventParam}
    (h : inputs[place]? = some input) :
    count input.indexed (inputs.take place) < count input.indexed inputs := by
  have hplace := getElem?_filter_countP
    (p := fun other : EventParam => other.indexed == input.indexed) h (by simp)
  obtain ⟨hlt, -⟩ := List.getElem?_eq_some_iff.mp hplace
  rw [← List.countP_eq_length_filter] at hlt
  exact hlt

/-! ## Bringing the values into order -/

/-- Each parameter gets the value at its place among those of its kind. -/
theorem arrange_eq {inputs : List EventParam} {indexed body : List AbiValue}
    (hindexed : count true inputs ≤ indexed.length) (hbody : count false inputs ≤ body.length) :
    ∃ fields, arrange inputs indexed body = .ok fields ∧ fields.length = inputs.length ∧
      ∀ (place : Nat) (input : EventParam), inputs[place]? = some input → fields[place]? =
        (if input.indexed then indexed[count true (inputs.take place)]?
          else body[count false (inputs.take place)]?).map fun value =>
            (input.param.name, value) := by
  induction inputs generalizing indexed body with
  | nil => exact ⟨[], rfl, rfl, by simp⟩
  | cons first rest ih =>
      cases hfirst : first.indexed with
      | true =>
          have hne : first.indexed ≠ false := by simp [hfirst]
          rw [count_cons_self hfirst] at hindexed
          rw [count_cons_of_ne hne] at hbody
          obtain ⟨value, more, rfl⟩ := List.exists_cons_of_length_pos
            (show 0 < indexed.length by omega)
          obtain ⟨fields, harrange, hlength, hplace⟩ := ih (Nat.le_of_succ_le_succ hindexed) hbody
          refine ⟨(first.param.name, value) :: fields, ?_, by simp [hlength], ?_⟩
          · simp only [arrange, hfirst, if_true, harrange]
            rfl
          · intro place input hinput
            cases place with
            | zero =>
                obtain rfl : first = input := by simpa using hinput
                simp [hfirst, count]
            | succ place =>
                have hlater := hplace place input (by simpa using hinput)
                simpa [count_cons_self hfirst, count_cons_of_ne hne] using hlater
      | false =>
          have hne : first.indexed ≠ true := by simp [hfirst]
          rw [count_cons_of_ne hne] at hindexed
          rw [count_cons_self hfirst] at hbody
          obtain ⟨value, more, rfl⟩ := List.exists_cons_of_length_pos
            (show 0 < body.length by omega)
          obtain ⟨fields, harrange, hlength, hplace⟩ := ih hindexed (Nat.le_of_succ_le_succ hbody)
          refine ⟨(first.param.name, value) :: fields, ?_, by simp [hlength], ?_⟩
          · simp only [arrange, hfirst, Bool.false_eq_true, if_false, harrange]
            rfl
          · intro place input hinput
            cases place with
            | zero =>
                obtain rfl : first = input := by simpa using hinput
                simp [hfirst, count]
            | succ place =>
                have hlater := hplace place input (by simpa using hinput)
                simpa [count_cons_self hfirst, count_cons_of_ne hne] using hlater

/-- Without any values for the parameters that are not indexed, the first of them is missing. -/
theorem arrange_nil {inputs : List EventParam} {indexed : List AbiValue} {missing : EventParam}
    (hindexed : count true inputs ≤ indexed.length)
    (hmissing : inputs.find? (fun input => !input.indexed) = some missing) :
    arrange inputs indexed [] = .error (.missingValue missing.param.name) := by
  induction inputs generalizing indexed with
  | nil => simp at hmissing
  | cons first rest ih =>
      cases hfirst : first.indexed with
      | true =>
          rw [count_cons_self hfirst] at hindexed
          rw [List.find?_cons_of_neg (by simp [hfirst])] at hmissing
          obtain ⟨value, more, rfl⟩ := List.exists_cons_of_length_pos
            (show 0 < indexed.length by omega)
          simp only [arrange, hfirst, if_true, ih (Nat.le_of_succ_le_succ hindexed) hmissing]
          rfl
      | false =>
          rw [List.find?_cons_of_pos (by simp [hfirst])] at hmissing
          cases hmissing
          simp only [arrange, hfirst, Bool.false_eq_true, if_false]

/-! ## The types of the parameters -/

/-- The types of the indexed parameters, or of those that are not. -/
def typesOf (indexed : Bool) (event : Event) (types : List AbiType) : List AbiType :=
  ((event.inputs.zip types).filter fun pair => pair.1.indexed == indexed).map (·.2)

/-- Of items that stand for the parameters, those of the indexed ones, or those of the others. -/
def pick {α : Type} (indexed : Bool) (inputs : List EventParam) (items : List α) : List α :=
  ((inputs.zip items).filter fun pair => pair.1.indexed == indexed).map (·.2)

theorem typesOf_eq_pick (indexed : Bool) (event : Event) (types : List AbiType) :
    event.typesOf indexed types = pick indexed event.inputs types := rfl

theorem count_take_zip {α : Type} {inputs : List EventParam} {items : List α}
    (hlength : items.length = inputs.length) (indexed : Bool) (place : Nat) :
    ((inputs.zip items).take place).countP (fun pair => pair.1.indexed == indexed) =
      count indexed (inputs.take place) := by
  have hfirst : ((inputs.zip items).take place).map (·.1) = inputs.take place := by
    rw [List.map_take, List.map_fst_zip (by omega)]
  rw [count, ← hfirst, List.countP_map]
  rfl

theorem length_pick {α : Type} {inputs : List EventParam} {items : List α}
    (hlength : items.length = inputs.length) (indexed : Bool) :
    (pick indexed inputs items).length = count indexed inputs := by
  have hcount := count_take_zip hlength indexed inputs.length
  rw [List.take_length, List.take_of_length_le (by simp [hlength])] at hcount
  rw [pick, List.length_map, ← List.countP_eq_length_filter, hcount]

/-- The item of a parameter stands at its place among those of its kind. -/
theorem getElem?_pick {α : Type} {inputs : List EventParam} {items : List α} {place : Nat}
    {input : EventParam} {item : α} (hlength : items.length = inputs.length)
    (hinput : inputs[place]? = some input) (hitem : items[place]? = some item) :
    (pick input.indexed inputs items)[count input.indexed (inputs.take place)]? = some item := by
  have hpair : (inputs.zip items)[place]? = some (input, item) := by
    rw [List.getElem?_zip_eq_some]
    exact ⟨hinput, hitem⟩
  have hfilter := getElem?_filter_countP
    (p := fun pair : EventParam × α => pair.1.indexed == input.indexed) hpair (by simp)
  rw [count_take_zip hlength] at hfilter
  rw [pick, List.getElem?_map, hfilter]
  rfl

theorem length_typesOf {event : Event} {types : List AbiType}
    (hlength : types.length = event.inputs.length) (indexed : Bool) :
    (event.typesOf indexed types).length = count indexed event.inputs :=
  length_pick hlength indexed

/-- The parameters have these types. -/
def HasTypes (event : Event) (types : List AbiType) : Prop :=
  Param.resolveAll (event.inputs.map (·.param)) = .ok types

theorem HasTypes.length {event : Event} {types : List AbiType} (h : event.HasTypes types) :
    types.length = event.inputs.length := by
  rw [Param.length_resolveAll h, List.length_map]

/-- An event is typed exactly if its parameters have types and at most three are indexed. -/
theorem typed_eq_ok {event : Event} {typed : TypedEvent} :
    event.typed = .ok typed ↔ ∃ types, event.HasTypes types ∧ count true event.inputs ≤ 3 ∧
      typed = ⟨event.typesOf true types, event.typesOf false types⟩ := by
  unfold Event.typed
  cases hresolve : Param.resolveAll (event.inputs.map (·.param)) with
  | error fault =>
      constructor
      · intro h
        cases h
      · rintro ⟨types, htypes, -⟩
        rw [HasTypes, hresolve] at htypes
        cases htypes
  | ok types =>
      have htypes : event.HasTypes types := hresolve
      have hlength := length_typesOf htypes.length true
      show (if greatestTopicCount < (event.typesOf true types).length + 1 then
          Except.error (LogFault.topicCount greatestTopicCount _)
        else .ok ⟨event.typesOf true types, event.typesOf false types⟩) = .ok typed ↔ _
      rw [hlength, greatestTopicCount]
      constructor
      · intro h
        split at h
        · cases h
        · cases h
          exact ⟨types, htypes, by omega, rfl⟩
      · rintro ⟨others, hothers, hfew, rfl⟩
        obtain rfl : types = others := by
          rw [HasTypes, hresolve] at hothers
          cases hothers
          rfl
        rw [if_neg (by omega)]

/-! ## Logs that fit their event -/

/-- The log carries what the event asks for: its parameters have these types, at most three are
indexed, there is one topic for each of them after the selector, and the data decodes to these
values of the others. -/
structure Fits (event : Event) (log : RawLog) (types : List AbiType) (body : List AbiValue) :
    Prop where
  typed : event.HasTypes types
  few : count true event.inputs ≤ 3
  topics : log.topics.length = 1 + count true event.inputs
  data : AbiType.decodeAll (event.typesOf false types) log.data = .ok body

/-- There is only one way in which a log fits. -/
theorem Fits.unique {event : Event} {log : RawLog} {types others : List AbiType}
    {body values : List AbiValue} (h : event.Fits log types body)
    (h' : event.Fits log others values) : types = others ∧ body = values := by
  obtain rfl : types = others := Except.ok.inj (h.typed.symm.trans h'.typed)
  exact ⟨rfl, Except.ok.inj (h.data.symm.trans h'.data)⟩

/-- Some parameters are not indexed, and none of those has content. -/
def IsContentless (event : Event) (types : List AbiType) : Prop :=
  event.typesOf false types ≠ [] ∧ AbiType.areEmpty (event.typesOf false types) = true

/-- The fields stand in the order of the parameters and have their names; an indexed parameter
has the value of the topic at its place, another one the value at its place in the data. -/
structure IsPositional (event : Event) (log : RawLog) (types : List AbiType)
    (body : List AbiValue) (fields : LogFields) : Prop where
  name : fields.event = event.name
  length : fields.fields.length = event.inputs.length
  atTopic : ∀ (place : Nat) (input : EventParam) (type : AbiType),
    event.inputs[place]? = some input → types[place]? = some type → input.indexed = true →
      ∃ topic, log.topics[1 + count true (event.inputs.take place)]? = some topic ∧
        fields.fields[place]? = some (input.param.name, type.ofTopic topic)
  atData : ∀ (place : Nat) (input : EventParam), event.inputs[place]? = some input →
    input.indexed = false → ∃ value, body[count false (event.inputs.take place)]? = some value ∧
      fields.fields[place]? = some (input.param.name, value)

variable {event : Event} {log : RawLog} {types : List AbiType} {body : List AbiValue}

/-- With the selector as first topic only the number of topics can be wrong. -/
theorem topicFault?_eq {typed : TypedEvent} (h : log.topics.head? = some event.selector) :
    event.topicFault? typed log.topics =
      if log.topics.length ≠ typed.indexed.length + 1 then
        some (.topicCount (typed.indexed.length + 1) log.topics.length)
      else none := by
  simp [topicFault?, h]

/-- The log of an event that is typed is decoded from its topics and its data. -/
theorem decode?_of_fits (hfits : event.Fits log types body)
    (hselector : log.topics.head? = some event.selector) :
    event.decode? log = some ((arrange event.inputs
      ((event.typesOf true types).zipWith AbiType.ofTopic log.topics.tail) body).map fun fields =>
        ⟨event.name, fields⟩) := by
  have htyped : event.typed = .ok ⟨event.typesOf true types, event.typesOf false types⟩ :=
    typed_eq_ok.mpr ⟨types, hfits.typed, hfits.few, rfl⟩
  have htopics : log.topics.length = (event.typesOf true types).length + 1 := by
    rw [length_typesOf hfits.typed.length, hfits.topics, Nat.add_comm]
  simp only [decode?, htyped, topicFault?_eq hselector, htopics, ne_eq, not_true, if_false,
    hfits.data]

theorem length_indexed (hfits : event.Fits log types body) :
    ((event.typesOf true types).zipWith AbiType.ofTopic log.topics.tail).length =
      count true event.inputs := by
  rw [List.length_zipWith, length_typesOf hfits.typed.length, List.length_tail, hfits.topics]
  omega

theorem length_body (hfits : event.Fits log types body) (hcontent : ¬ event.IsContentless types) :
    body.length = count false event.inputs := by
  rw [← length_typesOf hfits.typed.length]
  cases hempty : AbiType.areEmpty (event.typesOf false types) with
  | false => exact AbiType.length_decodeAll hempty hfits.data
  | true =>
      have hnone : event.typesOf false types = [] :=
        Classical.byContradiction fun hne => hcontent ⟨hne, hempty⟩
      have hdata := hfits.data
      rw [AbiType.decodeAll_of_areEmpty hempty] at hdata
      cases hdata
      rw [hnone]
      rfl

theorem isPositional_of_fits (hfits : event.Fits log types body)
    (hselector : log.topics.head? = some event.selector) (hcontent : ¬ event.IsContentless types) :
    ∃ fields, event.decode? log = some (.ok fields) ∧
      event.IsPositional log types body fields := by
  have hbody := length_body hfits hcontent
  obtain ⟨fields, harrange, hfields, hplace⟩ := arrange_eq
    (Nat.le_of_eq (length_indexed hfits).symm) (Nat.le_of_eq hbody.symm)
  refine ⟨⟨event.name, fields⟩, ?_, rfl, hfields, ?_, ?_⟩
  · rw [decode?_of_fits hfits hselector, harrange]
    rfl
  · intro place input type hinput htype hindexed
    have hfield := hplace place input hinput
    have hkind := getElem?_pick hfits.typed.length hinput htype
    have hlt := count_take_lt hinput
    rw [hindexed] at hfield hkind hlt
    have hbound : 1 + count true (event.inputs.take place) < log.topics.length := by
      rw [hfits.topics]
      omega
    obtain ⟨topic, htopic⟩ : ∃ topic,
        log.topics[1 + count true (event.inputs.take place)]? = some topic :=
      ⟨_, List.getElem?_eq_getElem hbound⟩
    have htail : log.topics.tail[count true (event.inputs.take place)]? = some topic := by
      rw [List.getElem?_tail, Nat.add_comm, htopic]
    refine ⟨topic, htopic, ?_⟩
    rw [hfield, if_pos rfl, List.getElem?_zipWith, typesOf_eq_pick, hkind, htail]
    rfl
  · intro place input hinput hindexed
    have hfield := hplace place input hinput
    have hlt := count_take_lt hinput
    rw [hindexed, ← hbody] at hlt
    rw [hindexed, if_neg (by simp), List.getElem?_eq_getElem hlt] at hfield
    exact ⟨_, List.getElem?_eq_getElem hlt, hfield⟩

theorem missingValue_of_fits (hfits : event.Fits log types body)
    (hselector : log.topics.head? = some event.selector) (hless : event.IsContentless types) :
    ∃ missing, event.inputs.find? (fun input => !input.indexed) = some missing ∧
      event.decode? log = some (.error (.missingValue missing.param.name)) := by
  obtain ⟨hne, hempty⟩ := hless
  have hdata := hfits.data
  rw [AbiType.decodeAll_of_areEmpty hempty] at hdata
  cases hdata
  have hpositive : 0 < count false event.inputs := by
    rw [← length_typesOf hfits.typed.length]
    exact List.length_pos_iff.mpr hne
  obtain ⟨input, hmem, hinput⟩ := List.countP_pos_iff.mp hpositive
  obtain ⟨missing, hmissing⟩ := Option.isSome_iff_exists.mp
    (List.find?_isSome (p := fun input => !input.indexed) |>.mpr
      ⟨input, hmem, by simpa using hinput⟩)
  refine ⟨missing, hmissing, ?_⟩
  rw [decode?_of_fits hfits hselector,
    arrange_nil (Nat.le_of_eq (length_indexed hfits).symm) hmissing]
  rfl

theorem eq_of_typed_eq_error {fault : LogFault} (h : event.typed = .error fault) :
    (∃ error, fault = .type error) ∨ ∃ expected actual, fault = .topicCount expected actual := by
  unfold Event.typed at h
  cases hresolve : Param.resolveAll (event.inputs.map (·.param)) with
  | error error =>
      rw [hresolve] at h
      cases h
      exact .inl ⟨error, rfl⟩
  | ok types =>
      rw [hresolve] at h
      change (if _ then Except.error (LogFault.topicCount _ _) else .ok _) = _ at h
      split at h
      · cases h
        exact .inr ⟨_, _, rfl⟩
      · cases h

/-- Decoding breaks down over data that does. -/
theorem decode?_of_brokenDown {typed : TypedEvent} {ending : DecodingEnd}
    (htyped : event.typed = .ok typed) (htopics : event.topicFault? typed log.topics = none)
    (hdata : AbiType.decodeAll typed.body log.data = .error ending)
    (hending : ∀ error, ending ≠ .fault error) : event.decode? log = none := by
  simp only [decode?, htyped, htopics, hdata]
  cases ending with
  | fault error => exact absurd rfl (hending error)
  | uncountable | exhausted => rfl

/-- A log that does not fit has another fault than a wrong selector or a missing value, or its
decoding breaks down. -/
theorem fits_or_fault (hselector : log.topics.head? = some event.selector) :
    (∃ types body, event.Fits log types body) ∨ event.decode? log = none ∨
      ∃ fault, event.decode? log = some (.error fault) ∧
        (∀ expected actual, fault ≠ .selectorMismatch expected actual) ∧
        ∀ name, fault ≠ .missingValue name := by
  cases htyped : event.typed with
  | error fault =>
      refine .inr (.inr ⟨fault, by rw [decode?, htyped], ?_⟩)
      rcases eq_of_typed_eq_error htyped with ⟨error, rfl⟩ | ⟨expected, actual, rfl⟩ <;> simp
  | ok typed =>
      obtain ⟨types, htypes, hfew, rfl⟩ := typed_eq_ok.mp htyped
      have hindexed := length_typesOf htypes.length true
      have htopicFault :
          event.topicFault? ⟨event.typesOf true types, event.typesOf false types⟩ log.topics =
            if log.topics.length ≠ (event.typesOf true types).length + 1 then
              some (.topicCount ((event.typesOf true types).length + 1) log.topics.length)
            else none := topicFault?_eq hselector
      by_cases htopics : log.topics.length = (event.typesOf true types).length + 1
      · rw [if_neg (by simpa using htopics)] at htopicFault
        cases hdata : AbiType.decodeAll (event.typesOf false types) log.data with
        | ok body => exact .inl ⟨types, body, htypes, hfew, by omega, hdata⟩
        | error ending =>
            cases ending with
            | uncountable | exhausted =>
                exact .inr (.inl (decode?_of_brokenDown htyped htopicFault hdata (by simp)))
            | fault error =>
                refine .inr (.inr ⟨.data error, ?_, by simp⟩)
                simp only [decode?, htyped, htopicFault, hdata]
      · rw [if_pos htopics] at htopicFault
        refine .inr (.inr ⟨.topicCount ((event.typesOf true types).length + 1) log.topics.length,
          ?_, by simp⟩)
        simp only [decode?, htyped, htopicFault]

/-- What the decoding of a log with the selector of the event comes to. -/
inductive Outcome (event : Event) (log : RawLog) : Option (Except LogFault LogFields) → Prop
  | decoded {types : List AbiType} {body : List AbiValue} {fields : LogFields}
      (fits : event.Fits log types body) (content : ¬ event.IsContentless types)
      (positional : event.IsPositional log types body fields) :
      Outcome event log (some (.ok fields))
  | missing {types : List AbiType} {body : List AbiValue} {input : EventParam}
      (fits : event.Fits log types body) (contentless : event.IsContentless types)
      (first : event.inputs.find? (fun input => !input.indexed) = some input) :
      Outcome event log (some (.error (.missingValue input.param.name)))
  | brokenDown : Outcome event log none
  | faulty {fault : LogFault}
      (selected : ∀ expected actual, fault ≠ .selectorMismatch expected actual)
      (present : ∀ name, fault ≠ .missingValue name) : Outcome event log (some (.error fault))

theorem decode?_outcome (hselector : log.topics.head? = some event.selector) :
    event.Outcome log (event.decode? log) := by
  rcases fits_or_fault hselector with ⟨types, body, hfits⟩ | hnone | ⟨fault, hfault, hother⟩
  · by_cases hless : event.IsContentless types
    · obtain ⟨input, hfirst, hmissing⟩ := missingValue_of_fits hfits hselector hless
      rw [hmissing]
      exact .missing hfits hless hfirst
    · obtain ⟨fields, hdecoded, hpositional⟩ := isPositional_of_fits hfits hselector hless
      rw [hdecoded]
      exact .decoded hfits hless hpositional
  · rw [hnone]
    exact .brokenDown
  · rw [hfault]
    exact .faulty hother.1 hother.2

/-- A value is missing exactly if the log fits and all the data is for parameters without
content. -/
theorem decode?_eq_missingValue (hselector : log.topics.head? = some event.selector)
    (name : String) : event.decode? log = some (.error (.missingValue name)) ↔
      ∃ types body input, event.Fits log types body ∧ event.IsContentless types ∧
        event.inputs.find? (fun input => !input.indexed) = some input ∧
          input.param.name = name := by
  constructor
  · intro hdecode
    have houtcome := decode?_outcome hselector
    rw [hdecode] at houtcome
    cases houtcome with
    | missing hfits hless hfirst => exact ⟨_, _, _, hfits, hless, hfirst, rfl⟩
    | faulty _ hpresent => exact absurd rfl (hpresent name)
  · rintro ⟨types, body, input, hfits, hless, hfirst, rfl⟩
    obtain ⟨found, hfound, hmissing⟩ := missingValue_of_fits hfits hselector hless
    rw [hfirst] at hfound
    cases hfound
    exact hmissing

theorem decode?_ne_selectorMismatch (hselector : log.topics.head? = some event.selector)
    (expected actual : Hash) :
    event.decode? log ≠ some (.error (.selectorMismatch expected actual)) := by
  intro hdecode
  have houtcome := decode?_outcome hselector
  rw [hdecode] at houtcome
  cases houtcome with
  | faulty hselected _ => exact hselected expected actual rfl

end Event

namespace ContractCodec

/-! ## The codec of an interface -/

theorem lookup_selector (events : List Event) (selector : Hash) :
    (events.map fun event => (event.selector, event)).lookup selector =
      events.find? fun event => event.selector == selector := by
  induction events with
  | nil => rfl
  | cons event rest ih =>
      by_cases hselector : event.selector = selector
      · simp [hselector]
      · have hne : (selector == event.selector) = false := by simpa using Ne.symm hselector
        rw [List.map_cons, List.lookup_cons, hne, List.find?_cons_of_neg (by simpa), ih]

/-- Under a selector stands the last event of the interface that has it and is not anonymous. -/
theorem eventById?_ofAbi (abi : ContractAbi) (selector : Hash) :
    (ofAbi abi).eventById? selector =
      (abi.events.filter fun event => !event.anonymous && event.selector == selector).getLast? := by
  rw [eventById?, ofAbi, ← List.map_reverse, lookup_selector, List.getLast?_filter,
    ← List.filter_reverse, List.find?_filter]
  simp only [Bool.decide_and, Bool.decide_eq_true]

theorem head?_eq_selector {abi : ContractAbi} {log : RawLog} {selector : Hash} {event : Event}
    (hfirst : log.topics.head? = some selector)
    (hevent : (ofAbi abi).eventById? selector = some event) :
    log.topics.head? = some event.selector := by
  rw [eventById?_ofAbi, List.getLast?_filter] at hevent
  have hfound := List.find?_some hevent
  simp only [Bool.and_eq_true, beq_iff_eq] at hfound
  rw [hfirst, hfound.2]

/-- Once the event is found, the log is decoded for it. -/
theorem unpack?_of_eventById? {codec : ContractCodec} {log : RawLog} {selector : Hash}
    {event : Event} (hfirst : log.topics.head? = some selector)
    (hevent : codec.eventById? selector = some event) :
    codec.unpack? log = (event.decode? log).map fun result =>
      result.mapError fun fault => .malformed fault.message := by
  rw [unpack?, RawLog.eventId?, hfirst]
  simp only [hevent]

theorem unpack?_eq_ok {codec : ContractCodec} {log : RawLog} {fields : LogFields} :
    codec.unpack? log = some (.ok fields) ↔ ∃ selector event,
      log.topics.head? = some selector ∧ codec.eventById? selector = some event ∧
        event.decode? log = some (.ok fields) := by
  constructor
  · intro h
    cases hfirst : log.topics.head? with
    | none => simp [unpack?, RawLog.eventId?, hfirst] at h
    | some selector =>
        cases hevent : codec.eventById? selector with
        | none => simp [unpack?, RawLog.eventId?, hfirst, hevent] at h
        | some event =>
            refine ⟨selector, event, rfl, hevent, ?_⟩
            rw [unpack?_of_eventById? hfirst hevent, Option.map_eq_some_iff] at h
            obtain ⟨result, hdecode, hresult⟩ := h
            cases result with
            | error fault => cases hresult
            | ok decoded =>
                cases hresult
                exact hdecode
  · rintro ⟨selector, event, hfirst, hevent, hdecode⟩
    rw [unpack?_of_eventById? hfirst hevent, hdecode]
    rfl

/-- A log is decoded exactly if its first topic is the selector of an event of the interface that
is not anonymous, and the log fits this event, unless all the data is for parameters without
content.  Then every field stands at the place of its parameter.  A value is missing only in the
excepted case, and the decoding for the event never finds another selector. -/
theorem unpack?_by_position (abi : ContractAbi) (log : RawLog) :
    (∀ selector, (ofAbi abi).eventById? selector =
      (abi.events.filter fun event => !event.anonymous && event.selector == selector).getLast?) ∧
    ((∃ fields, (ofAbi abi).unpack? log = some (.ok fields)) ↔
      ∃ selector event types body, log.topics.head? = some selector ∧
        (ofAbi abi).eventById? selector = some event ∧ event.Fits log types body ∧
          ¬ event.IsContentless types) ∧
    (∀ selector event types body fields, log.topics.head? = some selector →
      (ofAbi abi).eventById? selector = some event → event.Fits log types body →
        (ofAbi abi).unpack? log = some (.ok fields) → event.IsPositional log types body fields) ∧
    (∀ selector event, log.topics.head? = some selector →
      (ofAbi abi).eventById? selector = some event →
        (∀ name, event.decode? log = some (.error (.missingValue name)) ↔
          ∃ types body input, event.Fits log types body ∧ event.IsContentless types ∧
            event.inputs.find? (fun input => !input.indexed) = some input ∧
              input.param.name = name) ∧
        ∀ expected actual,
          event.decode? log ≠ some (.error (.selectorMismatch expected actual))) := by
  refine ⟨eventById?_ofAbi abi, ⟨?_, ?_⟩, ?_, ?_⟩
  · rintro ⟨fields, hunpack⟩
    obtain ⟨selector, event, hfirst, hevent, hdecode⟩ := unpack?_eq_ok.mp hunpack
    have houtcome := Event.decode?_outcome (head?_eq_selector hfirst hevent)
    rw [hdecode] at houtcome
    cases houtcome with
    | decoded hfits hcontent _ =>
        exact ⟨selector, event, _, _, hfirst, hevent, hfits, hcontent⟩
  · rintro ⟨selector, event, types, body, hfirst, hevent, hfits, hcontent⟩
    obtain ⟨fields, hdecode, -⟩ :=
      Event.isPositional_of_fits hfits (head?_eq_selector hfirst hevent) hcontent
    exact ⟨fields, unpack?_eq_ok.mpr ⟨selector, event, hfirst, hevent, hdecode⟩⟩
  · intro selector event types body fields hfirst hevent hfits hunpack
    obtain ⟨first, found, hfirst', hevent', hdecode⟩ := unpack?_eq_ok.mp hunpack
    obtain rfl : selector = first := Option.some.inj (hfirst.symm.trans hfirst')
    obtain rfl : event = found := Option.some.inj (hevent.symm.trans hevent')
    have houtcome := Event.decode?_outcome (head?_eq_selector hfirst hevent)
    rw [hdecode] at houtcome
    cases houtcome with
    | decoded hfits' _ hpositional =>
        obtain ⟨rfl, rfl⟩ := hfits.unique hfits'
        exact hpositional
  · intro selector event hfirst hevent
    have hselector := head?_eq_selector hfirst hevent
    exact ⟨Event.decode?_eq_missingValue hselector, Event.decode?_ne_selectorMismatch hselector⟩

/-- The data of the sample holds the first parameter, its second topic the other one. -/
theorem sample_unpack?_by_position :
    let event : Event :=
      ⟨"Sample", [⟨⟨"a", "bool", []⟩, false⟩, ⟨⟨"b", "bool", []⟩, true⟩], false⟩
    let log : RawLog :=
      { topics := [event.selector, Word.zero 32], data := List.replicate 31 0 ++ [1] }
    ∃ fields, (ofAbi ⟨[.event event]⟩).unpack? log = some (.ok fields) ∧
      fields.fields[0]? = some ("a", .bool true) ∧
        fields.fields[1]? = some ("b", .bool false) := by
  intro event log
  obtain ⟨-, hunpacked, hpositional, -⟩ := unpack?_by_position ⟨[.event event]⟩ log
  have hevent : (ofAbi ⟨[.event event]⟩).eventById? event.selector = some event :=
    List.lookup_cons_self
  have hdata : AbiType.decodeAll [.bool] (List.replicate 31 0 ++ [1]) = .ok [.bool true] := rfl
  have hfits : event.Fits log [.bool, .bool] [.bool true] := ⟨rfl, by decide, rfl, hdata⟩
  have hcontent : ¬ event.IsContentless [.bool, .bool] := by
    rintro ⟨-, hempty⟩
    cases hempty
  obtain ⟨fields, hfields⟩ :=
    hunpacked.mpr ⟨event.selector, event, _, _, rfl, hevent, hfits, hcontent⟩
  have hplace := hpositional _ _ _ _ _ rfl hevent hfits hfields
  obtain ⟨value, hvalue, hfirst⟩ := hplace.atData 0 _ rfl rfl
  cases hvalue
  obtain ⟨topic, htopic, hsecond⟩ := hplace.atTopic 1 _ _ rfl rfl rfl
  cases htopic
  exact ⟨fields, hfields, hfirst, hsecond⟩

/-- A log with no data fits an event whose only parameter has no content, and yet there is no
value for this parameter. -/
theorem hollow_not_unpacked :
    let event : Event := ⟨"E", [⟨⟨"a", "()", []⟩, false⟩], false⟩
    let log : RawLog := { topics := [event.selector] }
    (ofAbi ⟨[.event event]⟩).eventById? event.selector = some event ∧
      event.Fits log [.tuple []] [] ∧
        (ofAbi ⟨[.event event]⟩).unpack? log =
          some (.error (.malformed "missing value for parameter 'a'")) := by
  intro event log
  have hevent : (ofAbi ⟨[.event event]⟩).eventById? event.selector = some event :=
    List.lookup_cons_self
  have hfits : event.Fits log [.tuple []] [] := ⟨rfl, by decide, rfl, rfl⟩
  have hless : event.IsContentless [.tuple []] := ⟨by simp [Event.typesOf, event], rfl⟩
  obtain ⟨input, hfirst, hmissing⟩ := Event.missingValue_of_fits hfits rfl hless
  cases hfirst
  refine ⟨hevent, hfits, ?_⟩
  rw [unpack?_of_eventById? rfl hevent, hmissing]
  rfl

end ContractCodec

end LogRelay
