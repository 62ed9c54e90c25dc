import LogRelay.Proofs.DecodingListeners

/-!
# Events by name and by selector

A codec knows the events of its interface in two ways.  Under a name it finds the first event
that has the name and is not anonymous, under a selector the last one that has the selector.
With overloaded or repeated events these may be two events, but they agree where it matters: if
different signatures have different selectors (`ContractAbi.TellsApart`), they have the same
signature, and so the same name, because a name holds no parenthesis
(`Event.name_eq_of_signature_eq`).  Interfaces that are read have only such names
(`ContractAbi.hasPlainNames_of_parse?`).

So a selector that was found under a name always leads back to an event of that name, and a log
whose selector was entered under the name of its event is never refused as one of an unknown
event.
-/

namespace LogRelay

/-! ## Names in signatures -/

namespace Event

/-- The name holds no parenthesis. -/
def HasPlainName (event : Event) : Prop := '(' ∉ event.name.toList

/-- The event can be asked for by this name: it has the name and is not anonymous. -/
structure AnswersTo (event : Event) (name : String) : Prop where
  name : event.name = name
  selectable : event.anonymous = false

theorem answersTo_iff {event : Event} {name : String} :
    (event.name == name && !event.anonymous) = true ↔ event.AnswersTo name := by
  rw [Bool.and_eq_true, beq_iff_eq, Bool.not_eq_true']
  exact ⟨fun ⟨hname, hselectable⟩ => ⟨hname, hselectable⟩, fun h => ⟨h.name, h.selectable⟩⟩

/-- The name is what stands before the first parenthesis of the signature. -/
theorem takeWhile_signature {event : Event} (h : event.HasPlainName) :
    event.signature.toList.takeWhile (· != '(') = event.name.toList := by
  have hname : ∀ c ∈ event.name.toList, (c != '(') = true := by
    intro c hmem
    exact bne_iff_ne.mpr (ne_of_mem_of_not_mem hmem h)
  rw [signature, String.append_assoc, String.append_assoc, String.toList_append,
    List.takeWhile_append_of_pos hname, String.toList_append]
  exact List.append_nil _

/-- The signature tells the name. -/
theorem name_eq_of_signature_eq {event other : Event} (hevent : event.HasPlainName)
    (hother : other.HasPlainName) (h : event.signature = other.signature) :
    event.name = other.name := by
  rw [← String.toList_inj, ← takeWhile_signature hevent, h, takeWhile_signature hother]

end Event

/-! ## Names in interfaces that are read -/

theorem exists_of_mem_mapM {α β : Type} {read? : α → Option β} {texts : List α} {items : List β}
    (h : texts.mapM read? = some items) {item : β} (hmem : item ∈ items) :
    ∃ text ∈ texts, read? text = some item := by
  induction texts generalizing items with
  | nil =>
      cases h
      cases hmem
  | cons text rest ih =>
      simp only [List.mapM_cons, Option.bind_eq_bind, Option.bind_eq_some_iff] at h
      obtain ⟨first, hfirst, more, hmore, hitems⟩ := h
      cases hitems
      rcases List.mem_cons.mp hmem with rfl | hlater
      · exact ⟨text, List.mem_cons_self, hfirst⟩
      · obtain ⟨found, hfound, hread⟩ := ih hmore hlater
        exact ⟨found, List.mem_cons_of_mem _ hfound, hread⟩

theorem not_mem_of_isIdentifier {text : List Char} (h : isIdentifier text = true) : '(' ∉ text := by
  cases text with
  | nil => cases h
  | cons first rest =>
      rw [isIdentifier, Bool.and_eq_true, List.all_eq_true] at h
      rw [List.mem_cons, not_or]
      refine ⟨?_, fun hmem => absurd (h.2 _ hmem) (by decide)⟩
      rintro rfl
      exact absurd h.1 (by decide)

theorem not_mem_of_abiNameOfJson? {json : Json} {name : String}
    (h : abiNameOfJson? json = some name) : '(' ∉ name.toList := by
  simp only [abiNameOfJson?, Option.bind_eq_bind, Option.bind_eq_some_iff] at h
  obtain ⟨text, -, hname⟩ := h
  split at hname
  next hplain =>
      cases hname
      rcases Bool.or_eq_true_iff.mp hplain with hempty | hidentifier
      · rw [String.isEmpty_iff.mp hempty]
        exact List.not_mem_nil
      · exact not_mem_of_isIdentifier hidentifier
  next => cases hname

theorem Event.hasPlainName_of_ofJson? {json : Json} {event : Event}
    (h : Event.ofJson? json = some event) : event.HasPlainName := by
  simp only [Event.ofJson?, Option.bind_eq_bind, Option.bind_eq_some_iff] at h
  obtain ⟨fields, -, h⟩ := h
  split at h
  next name inputs anonymous =>
      simp only [Option.bind_eq_some_iff] at h
      obtain ⟨text, hname, _, -, _, -, hevent⟩ := h
      cases hevent
      obtain ⟨value, -, hread⟩ := Option.bind_eq_some_iff.mp hname
      exact not_mem_of_abiNameOfJson? hread
  next => cases h

namespace AbiItem

theorem errorOfJson?_ne_event {json : Json} {event : Event} :
    errorOfJson? json ≠ some (.event event) := by
  intro h
  simp only [errorOfJson?, Option.bind_eq_bind, Option.bind_eq_some_iff] at h
  obtain ⟨fields, -, h⟩ := h
  split at h
  next =>
      simp only [Option.bind_eq_some_iff] at h
      obtain ⟨_, -, _, -, hitem⟩ := h
      cases hitem
  next => cases h

theorem functionOfMembers?_ne_event {members : List (String × Json)} {event : Event} :
    functionOfMembers? members ≠ some (.event event) := by
  intro h
  simp only [functionOfMembers?, Option.bind_eq_bind, Option.bind_eq_some_iff] at h
  obtain ⟨_, -, _, -, _, -, _, -, _, -, hitem⟩ := h
  cases hitem

theorem constructorOfMembers?_ne_event {members : List (String × Json)} {event : Event} :
    constructorOfMembers? members ≠ some (.event event) := by
  intro h
  simp only [constructorOfMembers?, Option.bind_eq_bind, Option.bind_eq_some_iff] at h
  obtain ⟨_, -, _, -, hitem⟩ := h
  cases hitem

/-- Only items with the tag of events are read as events. -/
theorem ofJson?_of_ofTagged? {tag : String} {fields : Json} {event : Event}
    (h : ofTagged? tag fields = some (.event event)) : Event.ofJson? fields = some event := by
  unfold ofTagged? at h
  split at h
  · obtain ⟨found, hfound, hevent⟩ := Option.map_eq_some_iff.mp h
    cases hevent
    exact hfound
  · exact absurd h errorOfJson?_ne_event
  · exact absurd h functionOfMembers?_ne_event
  · exact absurd h constructorOfMembers?_ne_event
  all_goals simp at h

theorem hasPlainName_of_ofJson? {json : Json} {event : Event}
    (h : ofJson? json = some (.event event)) : event.HasPlainName := by
  unfold ofJson? at h
  split at h
  · simp only [Option.bind_eq_bind, Option.bind_eq_some_iff] at h
    obtain ⟨_, -, _, -, h⟩ := h
    exact Event.hasPlainName_of_ofJson? (ofJson?_of_ofTagged? h)
  · simp only [Option.bind_eq_bind, Option.bind_eq_some_iff] at h
    obtain ⟨_, -, h⟩ := h
    exact Event.hasPlainName_of_ofJson? (ofJson?_of_ofTagged? h)
  · cases h

end AbiItem

namespace ContractAbi

/-- No name of an event holds a parenthesis. -/
def HasPlainNames (abi : ContractAbi) : Prop := ∀ event ∈ abi.events, event.HasPlainName

/-- In an interface that is read, the names of events are identifiers or empty. -/
theorem hasPlainNames_of_parse? {text : String} {abi : ContractAbi} (h : parse? text = some abi) :
    abi.HasPlainNames := by
  intro event hmem
  obtain ⟨json, -, hread⟩ := Option.bind_eq_some_iff.mp h
  unfold ofJson? at hread
  split at hread
  next =>
      obtain ⟨items, hitems, hsingles⟩ := Option.bind_eq_some_iff.mp hread
      split at hsingles
      next =>
          cases hsingles
          obtain ⟨item, hitem, hevent⟩ := List.mem_filterMap.mp hmem
          split at hevent
          next =>
              cases hevent
              cases json with
              | list texts =>
                  obtain ⟨text, -, hread⟩ := exists_of_mem_mapM hitems hitem
                  exact AbiItem.hasPlainName_of_ofJson? hread
              | _ => cases hitems
          next => cases hevent
      next => cases hsingles
  next => cases hread

/-- Events that are not anonymous and have different signatures have different selectors. -/
def TellsApart (abi : ContractAbi) : Prop :=
  ∀ event ∈ abi.events, ∀ other ∈ abi.events, event.anonymous = false → other.anonymous = false →
    event.selector = other.selector → event.signature = other.signature

/-- This is the first event that can be asked for by the name. -/
def IsFirst (abi : ContractAbi) (name : String) (event : Event) : Prop :=
  event.AnswersTo name ∧ ∃ before after,
    abi.events = before ++ event :: after ∧ ∀ other ∈ before, ¬other.AnswersTo name

theorem IsFirst.mem {abi : ContractAbi} {name : String} {event : Event}
    (h : abi.IsFirst name event) : event ∈ abi.events := by
  obtain ⟨-, before, after, hevents, -⟩ := h
  rw [hevents]
  exact List.mem_append_right _ List.mem_cons_self

theorem isFirst_iff {abi : ContractAbi} {name : String} {event : Event} :
    abi.IsFirst name event ↔
      abi.events.find? (fun event => event.name == name && !event.anonymous) = some event := by
  rw [List.find?_eq_some_iff_append, Event.answersTo_iff]
  simp only [IsFirst, ← Event.answersTo_iff, Bool.not_eq_true, Bool.not_eq_true']

end ContractAbi

/-! ## Finding events -/

namespace ContractCodec

variable {abi : ContractAbi} {name : String} {selector : Hash} {event found : Event}

/-- A name gives the selector of the first event that can be asked for by it, or is refused because
there is none. -/
theorem selectorOf_cases (abi : ContractAbi) (name : String) :
    (∃ first, abi.IsFirst name first ∧ (ofAbi abi).selectorOf name = .ok first.selector) ∨
      (∀ event ∈ abi.events, ¬event.AnswersTo name) ∧
        (ofAbi abi).selectorOf name = .error (.unknownEventName name) := by
  cases hfind : abi.events.find? (fun event => event.name == name && !event.anonymous) with
  | some first =>
      refine .inl ⟨first, ContractAbi.isFirst_iff.mpr hfind, ?_⟩
      simp only [selectorOf, ofAbi, hfind]
  | none =>
      refine .inr ⟨fun event hmem hanswers => ?_, ?_⟩
      · exact List.find?_eq_none.mp hfind event hmem (Event.answersTo_iff.mpr hanswers)
      · simp only [selectorOf, ofAbi, hfind]

/-- The selector under a name is that of the first event that can be asked for by it. -/
theorem isFirst_of_selectorOf (h : (ofAbi abi).selectorOf name = .ok selector) :
    ∃ first, abi.IsFirst name first ∧ first.selector = selector := by
  rcases selectorOf_cases abi name with ⟨first, hfirst, hselector⟩ | ⟨-, hrefused⟩
  · exact ⟨first, hfirst, Except.ok.inj (hselector.symm.trans h)⟩
  · cases h.symm.trans hrefused

/-- Under a selector stands an event that has it and is not anonymous. -/
theorem mem_of_eventById? (h : (ofAbi abi).eventById? selector = some found) :
    found ∈ abi.events ∧ found.anonymous = false ∧ found.selector = selector := by
  rw [eventById?_ofAbi] at h
  obtain ⟨hmem, hfound⟩ := List.mem_filter.mp (List.mem_of_getLast? h)
  rw [Bool.and_eq_true, Bool.not_eq_true', beq_iff_eq] at hfound
  exact ⟨hmem, hfound⟩

/-- Under the selector of an event that is not anonymous stands an event. -/
theorem exists_eventById? (hmem : event ∈ abi.events) (hselectable : event.anonymous = false) :
    ∃ found, (ofAbi abi).eventById? event.selector = some found := by
  rw [eventById?_ofAbi, ← Option.isSome_iff_exists, List.getLast?_isSome]
  refine List.ne_nil_of_mem (List.mem_filter.mpr ⟨hmem, ?_⟩)
  simp [hselectable]

theorem unpack?_ne_unknownEvent {codec : ContractCodec} {log : RawLog}
    (hselector : log.topics.head? = some selector)
    (hevent : codec.eventById? selector = some event) (other : Hash) :
    codec.unpack? log ≠ some (.error (.unknownEvent other)) := by
  rw [unpack?_of_eventById? hselector hevent]
  intro h
  obtain ⟨result, -, hresult⟩ := Option.map_eq_some_iff.mp h
  cases result <;> cases hresult

end ContractCodec

/-! ## Entries under names -/

namespace DecodingListener

variable {δ : Type} {codec : ContractCodec} {entries : List (TableEntry δ)}
  {listener : DecodingListener δ}

/-- All entries with which a listener was made have a selector. -/
theorem exists_selectorIn_of_build (h : build codec entries = .ok listener) {entry : TableEntry δ}
    (hmem : entry ∈ entries) : ∃ selector, entry.selectorIn codec = .ok selector := by
  induction entries using List.reverseRecOn generalizing listener with
  | nil => cases hmem
  | append_singleton entries last ih =>
      obtain ⟨before, hbefore, hentered⟩ := exists_of_build_concat h
      rcases List.mem_append.mp hmem with hearlier | hself
      · exact ih hbefore hearlier
      · obtain ⟨selector, hselector, -⟩ := enter_eq_ok hentered
        obtain ⟨hserves, -, -⟩ := serves_of_build hbefore
        rw [hserves.contract] at hselector
        rw [List.mem_singleton.mp hself]
        exact ⟨selector, hselector⟩

/-- A log that was handed over and is refused as one of an unknown event was unpacked: it was
refused by the reader. -/
theorem exists_unpack?_of_unknownEvent {selector other : Hash} {event : Event}
    {broadcast : Broadcast δ} {after : DecodingListener δ}
    (hbuild : build codec entries = .ok listener)
    (hselector : broadcast.log.topics.head? = some selector)
    (hevent : codec.eventById? selector = some event)
    (h : listener.handle? (.ok broadcast) = some (some (.error (.unknownEvent other)), after)) :
    ∃ fields, codec.unpack? broadcast.log = some (.ok fields) := by
  obtain ⟨hserves, -, -⟩ := serves_of_build hbuild
  obtain ⟨hpasses, -⟩ := hserves.passes_of_handle? h
  cases hpasses with
  | malformed _ _ hunpack =>
      exact absurd hunpack (ContractCodec.unpack?_ne_unknownEvent hselector hevent other)
  | unreadable _ _ hunpack _ => exact ⟨_, hunpack⟩

end DecodingListener

/-- For every interface whose names hold no parenthesis and whose selectors tell its signatures
apart:

* a name has a selector exactly if there is an event of the name that is not anonymous, and all
  other names are refused;
* under the selector of a name stands an event of this name that is not anonymous, with the
  signature of the first such event;
* under the selector of every event that is not anonymous stands an event with its signature, and
  only such events stand under selectors;
* if a listener for decoded logs was made with an entry under a name, no log whose first topic is
  the selector of the name is refused as one of an unknown event, unless by the reader, to which
  the unpacked log was given. -/
theorem ContractCodec.selectors_are_coherent {δ : Type} (abi : ContractAbi)
    (hnames : abi.HasPlainNames) (hapart : abi.TellsApart) :
    (∀ name, ((∃ selector, (ofAbi abi).selectorOf name = .ok selector) ↔
        ∃ event ∈ abi.events, event.AnswersTo name) ∧
      ∀ error, (ofAbi abi).selectorOf name = .error error → error = .unknownEventName name) ∧
    (∀ name selector, (ofAbi abi).selectorOf name = .ok selector →
      ∃ first found, abi.IsFirst name first ∧ (ofAbi abi).eventById? selector = some found ∧
        found ∈ abi.events ∧ found.AnswersTo name ∧ found.signature = first.signature) ∧
    (∀ event ∈ abi.events, event.anonymous = false →
      ∃ found, (ofAbi abi).eventById? event.selector = some found ∧
        found.signature = event.signature) ∧
    (∀ selector found, (ofAbi abi).eventById? selector = some found →
      found ∈ abi.events ∧ found.anonymous = false ∧ found.selector = selector) ∧
    ∀ (entries : List (TableEntry δ)) (listener : DecodingListener δ),
      DecodingListener.build (ofAbi abi) entries = .ok listener →
        ∀ name reader, .ofEvent name reader ∈ entries →
          ∃ selector, (ofAbi abi).selectorOf name = .ok selector ∧
            ∀ (broadcast : Broadcast δ) (other : Hash),
              broadcast.log.topics.head? = some selector →
                (ofAbi abi).unpack? broadcast.log ≠ some (.error (.unknownEvent other)) ∧
                  ∀ after, listener.handle? (.ok broadcast) =
                      some (some (.error (.unknownEvent other)), after) →
                    ∃ fields, (ofAbi abi).unpack? broadcast.log = some (.ok fields) := by
  have hreturns : ∀ event ∈ abi.events, event.anonymous = false →
      ∃ found, (ofAbi abi).eventById? event.selector = some found ∧
        found.signature = event.signature := by
    intro event hmem hselectable
    obtain ⟨found, hfound⟩ := exists_eventById? hmem hselectable
    obtain ⟨hlisted, hopen, hselector⟩ := mem_of_eventById? hfound
    exact ⟨found, hfound, hapart found hlisted event hmem hopen hselectable hselector⟩
  have hleads : ∀ name selector, (ofAbi abi).selectorOf name = .ok selector →
      ∃ first found, abi.IsFirst name first ∧ (ofAbi abi).eventById? selector = some found ∧
        found ∈ abi.events ∧ found.AnswersTo name ∧ found.signature = first.signature := by
    intro name selector hselector
    obtain ⟨first, hfirst, rfl⟩ := isFirst_of_selectorOf hselector
    have hmem := hfirst.mem
    obtain ⟨found, hfound, hsignature⟩ := hreturns first hmem hfirst.1.selectable
    obtain ⟨hlisted, hopen, -⟩ := mem_of_eventById? hfound
    have hname :=
      Event.name_eq_of_signature_eq (hnames found hlisted) (hnames first hmem) hsignature
    exact ⟨first, found, hfirst, hfound, hlisted, ⟨hname.trans hfirst.1.name, hopen⟩, hsignature⟩
  refine ⟨fun name => ⟨⟨?_, ?_⟩, ?_⟩, hleads, hreturns, fun _ _ => mem_of_eventById?, ?_⟩
  · rintro ⟨selector, hselector⟩
    obtain ⟨-, found, -, -, hmem, hanswers, -⟩ := hleads name selector hselector
    exact ⟨found, hmem, hanswers⟩
  · rintro ⟨event, hmem, hanswers⟩
    rcases selectorOf_cases abi name with ⟨first, -, hselector⟩ | ⟨hnone, -⟩
    · exact ⟨first.selector, hselector⟩
    · exact absurd hanswers (hnone event hmem)
  · intro error herror
    rcases selectorOf_cases abi name with ⟨first, -, hselector⟩ | ⟨-, hrefused⟩
    · cases hselector.symm.trans herror
    · exact Except.error.inj (herror.symm.trans hrefused)
  · intro entries listener hbuild name reader hmem
    obtain ⟨selector, hselector⟩ := DecodingListener.exists_selectorIn_of_build hbuild hmem
    obtain ⟨-, found, -, hfound, -⟩ := hleads name selector hselector
    refine ⟨selector, hselector, fun broadcast other hfirst => ⟨?_, fun after hhandle => ?_⟩⟩
    · exact unpack?_ne_unknownEvent hfirst hfound other
    · exact DecodingListener.exists_unpack?_of_unknownEvent hbuild hfirst hfound hhandle

/-- An event that stands twice, the second time with its parameter in the data, behind an anonymous
one of its name: the name gives the selector of the first, under which the last one stands. -/
theorem ContractCodec.sample_selectors_are_coherent :
    let hidden : Event := ⟨"Set", [⟨⟨"key", "bytes32", []⟩, false⟩], true⟩
    let first : Event := ⟨"Set", [⟨⟨"value", "uint256", []⟩, true⟩], false⟩
    let last : Event := ⟨"Set", [⟨⟨"value", "uint256", []⟩, false⟩], false⟩
    let abi : ContractAbi := ⟨[.event hidden, .event first, .event last]⟩
    abi.HasPlainNames ∧ abi.TellsApart ∧
      (ofAbi abi).selectorOf "Set" = .ok first.selector ∧
        (ofAbi abi).eventById? first.selector = some last ∧ last.AnswersTo "Set" ∧
          ∀ broadcast : Broadcast LogFields, broadcast.log.topics.head? = some first.selector →
            ∀ other, (ofAbi abi).unpack? broadcast.log ≠ some (.error (.unknownEvent other)) := by
  intro hidden first last abi
  have hevents : abi.events = [hidden, first, last] := rfl
  have hnames : abi.HasPlainNames := by
    intro event hmem
    simp only [hevents, List.mem_cons, List.not_mem_nil, or_false] at hmem
    rcases hmem with rfl | rfl | rfl <;> rw [Event.HasPlainName] <;> decide
  have hsignature : ∀ event ∈ abi.events, event.anonymous = false →
      event.signature = first.signature := by
    intro event hmem hselectable
    simp only [hevents, List.mem_cons, List.not_mem_nil, or_false] at hmem
    rcases hmem with rfl | rfl | rfl
    · cases hselectable
    · rfl
    · rfl
  have hapart : abi.TellsApart := by
    intro event hevent other hother hselectable hopen _
    rw [hsignature event hevent hselectable, hsignature other hother hopen]
  have hselector : (ofAbi abi).selectorOf "Set" = .ok first.selector := rfl
  have hlast : (ofAbi abi).eventById? first.selector = some last := List.lookup_cons_self
  obtain ⟨-, hleads, -, -, hlogs⟩ := selectors_are_coherent (δ := LogFields) abi hnames hapart
  obtain ⟨-, found, -, hfound, -, hanswers, -⟩ := hleads "Set" first.selector hselector
  obtain rfl : last = found := Option.some.inj (hlast.symm.trans hfound)
  refine ⟨hnames, hapart, hselector, hlast, hanswers, fun broadcast hfirst other => ?_⟩
  have hbuild : DecodingListener.build (ofAbi abi) [.ofEvent "Set" fun _ fields => .ok fields] =
      .ok { codec := ofAbi abi, readers := [(first.selector, fun _ fields => .ok fields)] } := rfl
  obtain ⟨selector, hsame, hnever⟩ :=
    hlogs _ _ hbuild "Set" _ List.mem_cons_self
  obtain rfl : first.selector = selector := Except.ok.inj (hselector.symm.trans hsame)
  exact (hnever broadcast other hfirst).1

end LogRelay
