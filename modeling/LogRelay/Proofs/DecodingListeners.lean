import LogRelay.Proofs.Broadcasts
import LogRelay.Proofs.PositionalDecoding
import Mathlib.Data.List.Forall2
import Mathlib.Data.List.Induction

/-!
# What a listener for decoded logs passes on

Such a listener is made with a table, whose entries are made one after the other; the last entry
for a selector counts (`TableEntry.readerFor?`).  `Passes` lists what can become of something that
happens to the listener.  It is passed on at once, unless it is a log:

* a log without topics, and one whose selector is not in the table, is dropped and counted;
* a log that cannot be unpacked or read, and one that carries a payload already, is passed on as
  the reason, the first of the three that applies;
* every other log is passed on with its payload.

There is one way for a log to get lost uncounted: unpacking it breaks down, and so does the call
(`overlong_log_is_unaccounted`).  All others are accounted for
(`DecodingListener.inputs_are_accounted`).
-/

namespace LogRelay

variable {δ : Type}

/-! ## The table -/

/-- An entry in the table of a listener for decoded logs, for a selector or for the event that has
a name. -/
inductive TableEntry (δ : Type) where
  | ofSelector (selector : Hash) (reader : PayloadReader δ)
  | ofEvent (name : String) (reader : PayloadReader δ)

namespace TableEntry

/-- How the payload is made. -/
def reader : TableEntry δ → PayloadReader δ
  | ofSelector _ reader | ofEvent _ reader => reader

/-- The selector that the entry is for. -/
def selectorIn (codec : ContractCodec) : TableEntry δ → Except DecodeError Hash
  | ofSelector selector _ => .ok selector
  | ofEvent name _ => codec.selectorOf name

/-- Whether the entry is for this selector. -/
def concerns (codec : ContractCodec) (selector : Hash) (entry : TableEntry δ) : Bool :=
  match entry.selectorIn codec with
  | .ok entered => selector == entered
  | .error _ => false

/-- How the payload of a log with this selector is made: as the last entry for it says. -/
def readerFor? (codec : ContractCodec) (entries : List (TableEntry δ)) (selector : Hash) :
    Option (PayloadReader δ) :=
  ((entries.filter (concerns codec selector)).getLast?).map reader

theorem readerFor?_concat (codec : ContractCodec) (entries : List (TableEntry δ))
    (entry : TableEntry δ) (selector : Hash) :
    readerFor? codec (entries ++ [entry]) selector =
      if entry.concerns codec selector then some entry.reader
      else readerFor? codec entries selector := by
  unfold readerFor?
  rw [List.filter_append, List.filter_cons, List.filter_nil]
  split
  next => rw [List.getLast?_concat, Option.map_some]
  next => rw [List.append_nil]

end TableEntry

namespace DecodingListener

/-- Makes an entry. -/
def enter (listener : DecodingListener δ) : TableEntry δ → Except DecodeError (DecodingListener δ)
  | .ofSelector selector reader => .ok (listener.withSelector selector reader)
  | .ofEvent name reader => listener.withEvent name reader

/-- The listener that is made with these entries. -/
def build (codec : ContractCodec) (entries : List (TableEntry δ)) :
    Except DecodeError (DecodingListener δ) :=
  entries.foldlM enter { codec }

/-- The table of the listener is that of the entries. -/
structure Serves (listener : DecodingListener δ) (codec : ContractCodec)
    (entries : List (TableEntry δ)) : Prop where
  contract : listener.codec = codec
  table : ∀ selector, listener.readers.lookup selector = TableEntry.readerFor? codec entries selector

variable {codec : ContractCodec} {entries : List (TableEntry δ)} {entry : TableEntry δ}
  {listener after : DecodingListener δ}

theorem enter_eq_ok (h : listener.enter entry = .ok after) :
    ∃ selector, entry.selectorIn listener.codec = .ok selector ∧
      after = listener.withSelector selector entry.reader := by
  cases entry with
  | ofSelector selector reader =>
      cases h
      exact ⟨selector, rfl, rfl⟩
  | ofEvent name reader =>
      obtain ⟨selector, hselector, hafter⟩ := exists_of_bind_eq_ok h
      cases hafter
      exact ⟨selector, hselector, rfl⟩

theorem Serves.enter (h : listener.Serves codec entries) (henter : listener.enter entry = .ok after) :
    after.Serves codec (entries ++ [entry]) := by
  obtain ⟨entered, hentered, rfl⟩ := enter_eq_ok henter
  refine ⟨h.contract, fun selector => ?_⟩
  have hconcerns : entry.concerns codec selector = (selector == entered) := by
    rw [TableEntry.concerns, ← h.contract, hentered]
  -- The new entry is in front, so that it hides the others exactly if it is for this selector.
  rw [TableEntry.readerFor?_concat, hconcerns, withSelector, List.lookup_cons]
  cases selector == entered with
  | true => rfl
  | false => exact h.table selector

/-- The last entry is made in the table of the others. -/
theorem exists_of_build_concat (h : build codec (entries ++ [entry]) = .ok listener) :
    ∃ before, build codec entries = .ok before ∧ before.enter entry = .ok listener := by
  rw [build, List.foldlM_append] at h
  obtain ⟨before, hbefore, hlast⟩ := exists_of_bind_eq_ok h
  rw [List.foldlM_cons] at hlast
  obtain ⟨entered, hentered, hend⟩ := exists_of_bind_eq_ok hlast
  cases hend
  exact ⟨before, hbefore, hentered⟩

/-- A listener that was made has counted nothing yet. -/
theorem serves_of_build (h : build codec entries = .ok listener) :
    listener.Serves codec entries ∧ listener.missingTopics = 0 ∧ listener.unregisteredEvents = 0 := by
  induction entries using List.reverseRecOn generalizing listener with
  | nil =>
      cases h
      exact ⟨⟨rfl, fun _ => rfl⟩, rfl, rfl⟩
  | append_singleton entries entry ih =>
      obtain ⟨before, hbefore, hentered⟩ := exists_of_build_concat h
      obtain ⟨hserves, hmissing, hunregistered⟩ := ih hbefore
      refine ⟨hserves.enter hentered, ?_⟩
      obtain ⟨selector, -, rfl⟩ := enter_eq_ok hentered
      exact ⟨hmissing, hunregistered⟩

end DecodingListener

/-! ## What becomes of an event -/

/-- What is passed on when this happens to a listener with these entries; `none` if it is nothing. -/
inductive Passes (codec : ContractCodec) (entries : List (TableEntry δ)) :
    ListenerEvent δ → Option (ListenerEvent δ) → Prop
  | connected : Passes codec entries .connected (some .connected)
  | disconnected : Passes codec entries .disconnected (some .disconnected)
  | undecoded {error : DecodeError} :
      Passes codec entries (.undecoded error) (some (.undecoded error))
  /-- The log has no topics. -/
  | topicless {broadcast : Broadcast δ} (htopics : broadcast.log.topics = []) :
      Passes codec entries (.log broadcast) none
  /-- There is no entry for the selector. -/
  | unregistered {broadcast : Broadcast δ} {selector : Hash}
      (hselector : broadcast.log.topics.head? = some selector)
      (hnone : TableEntry.readerFor? codec entries selector = none) :
      Passes codec entries (.log broadcast) none
  /-- Unpacking the log breaks down. -/
  | broken {broadcast : Broadcast δ} {selector : Hash} {reader : PayloadReader δ}
      (hselector : broadcast.log.topics.head? = some selector)
      (hreader : TableEntry.readerFor? codec entries selector = some reader)
      (hunpack : codec.unpack? broadcast.log = none) :
      Passes codec entries (.log broadcast) none
  /-- The log cannot be unpacked. -/
  | malformed {broadcast : Broadcast δ} {selector : Hash} {reader : PayloadReader δ}
      {error : DecodeError} (hselector : broadcast.log.topics.head? = some selector)
      (hreader : TableEntry.readerFor? codec entries selector = some reader)
      (hunpack : codec.unpack? broadcast.log = some (.error error)) :
      Passes codec entries (.log broadcast) (some (.undecoded error))
  /-- The fields of the log make no payload. -/
  | unreadable {broadcast : Broadcast δ} {selector : Hash} {reader : PayloadReader δ}
      {fields : LogFields} {error : DecodeError}
      (hselector : broadcast.log.topics.head? = some selector)
      (hreader : TableEntry.readerFor? codec entries selector = some reader)
      (hunpack : codec.unpack? broadcast.log = some (.ok fields))
      (hread : reader broadcast.log fields = .error error) :
      Passes codec entries (.log broadcast) (some (.undecoded error))
  /-- The log carries a payload already. -/
  | occupied {broadcast : Broadcast δ} {selector : Hash} {reader : PayloadReader δ}
      {fields : LogFields} {payload earlier : δ}
      (hselector : broadcast.log.topics.head? = some selector)
      (hreader : TableEntry.readerFor? codec entries selector = some reader)
      (hunpack : codec.unpack? broadcast.log = some (.ok fields))
      (hread : reader broadcast.log fields = .ok payload)
      (hearlier : broadcast.decoded = some earlier) :
      Passes codec entries (.log broadcast) (some (.undecoded .alreadyDecoded))
  /-- The log gets its payload. -/
  | decoded {broadcast : Broadcast δ} {selector : Hash} {reader : PayloadReader δ}
      {fields : LogFields} {payload : δ}
      (hselector : broadcast.log.topics.head? = some selector)
      (hreader : TableEntry.readerFor? codec entries selector = some reader)
      (hunpack : codec.unpack? broadcast.log = some (.ok fields))
      (hread : reader broadcast.log fields = .ok payload) (hfree : broadcast.decoded = none) :
      Passes codec entries (.log broadcast)
        (some (.log { log := broadcast.log, job := broadcast.job, decoded := some payload }))

namespace ListenerEvent

/-- Whether a log is handed over, or the reason why there is none. -/
def isHandover : ListenerEvent δ → Bool
  | log _ | undecoded _ => true
  | connected | disconnected => false

/-- Whether a log without topics is handed over. -/
def lacksTopics : ListenerEvent δ → Bool
  | log broadcast => broadcast.log.topics.head?.isNone
  | _ => false

/-- Whether a log is handed over for whose selector there is no entry. -/
def isUnregistered (codec : ContractCodec) (entries : List (TableEntry δ)) :
    ListenerEvent δ → Bool
  | log broadcast =>
      match broadcast.log.topics.head? with
      | none => false
      | some selector => (TableEntry.readerFor? codec entries selector).isNone
  | _ => false

/-- Whether a log is handed over for whose selector there is an entry, but unpacking it breaks
down. -/
def breaksDown (codec : ContractCodec) (entries : List (TableEntry δ)) : ListenerEvent δ → Bool
  | log broadcast =>
      match broadcast.log.topics.head? with
      | none => false
      | some selector =>
          (TableEntry.readerFor? codec entries selector).isSome &&
            (codec.unpack? broadcast.log).isNone
  | _ => false

variable {codec : ContractCodec} {entries : List (TableEntry δ)} {broadcast : Broadcast δ}
  {selector : Hash}

theorem lacksTopics_of_head? (h : broadcast.log.topics.head? = some selector) :
    (log broadcast).lacksTopics = false := by
  rw [lacksTopics, h, Option.isNone_some]

theorem isUnregistered_of_head? (h : broadcast.log.topics.head? = some selector) :
    (log broadcast).isUnregistered codec entries =
      (TableEntry.readerFor? codec entries selector).isNone := by
  simp only [isUnregistered, h]

theorem breaksDown_log_iff :
    (log broadcast).breaksDown codec entries = true ↔ ∃ selector reader,
      broadcast.log.topics.head? = some selector ∧
        TableEntry.readerFor? codec entries selector = some reader ∧
          codec.unpack? broadcast.log = none := by
  cases hselector : broadcast.log.topics.head? with
  | none => simp [breaksDown, hselector]
  | some selector => simp [breaksDown, hselector, Option.isSome_iff_exists]

end ListenerEvent

namespace Passes

variable {codec : ContractCodec} {entries : List (TableEntry δ)} {event : ListenerEvent δ}
  {passed other : Option (ListenerEvent δ)}

/-- Only one of the cases applies. -/
theorem unique (h : Passes codec entries event passed) (h' : Passes codec entries event other) :
    passed = other := by
  cases h <;> cases h' <;> grind

/-- Whatever is handed over is passed on or has one of three reasons not to be. -/
theorem tally (h : Passes codec entries event passed) :
    event.isHandover.toNat = (passed.any ListenerEvent.isHandover).toNat + event.lacksTopics.toNat +
      (event.isUnregistered codec entries).toNat + (event.breaksDown codec entries).toNat := by
  cases h <;> simp_all [ListenerEvent.isHandover, ListenerEvent.lacksTopics,
    ListenerEvent.isUnregistered, ListenerEvent.breaksDown]

/-- A log over which the listener breaks down is neither passed on nor counted. -/
theorem of_breaksDown (h : event.breaksDown codec entries = true) :
    Passes codec entries event none ∧ event.lacksTopics = false ∧
      event.isUnregistered codec entries = false := by
  cases event with
  | log broadcast =>
      obtain ⟨selector, reader, hselector, hreader, hunpack⟩ :=
        ListenerEvent.breaksDown_log_iff.mp h
      refine ⟨.broken hselector hreader hunpack, ListenerEvent.lacksTopics_of_head? hselector, ?_⟩
      rw [ListenerEvent.isUnregistered_of_head? hselector, hreader, Option.isNone_some]
  | connected | disconnected | undecoded => cases h

end Passes

namespace DecodingListener

variable {codec : ContractCodec} {entries : List (TableEntry δ)}
  {listener after : DecodingListener δ} {event : ListenerEvent δ} {broadcast : Broadcast δ}
  {selector : Hash} {reader : PayloadReader δ} {result : Except DecodeError (Broadcast δ)}

/-- The listener after an event, with what it has counted. -/
def counting (listener : DecodingListener δ) (codec : ContractCodec)
    (entries : List (TableEntry δ)) (event : ListenerEvent δ) : DecodingListener δ :=
  { listener with
    missingTopics := listener.missingTopics + .ofNat event.lacksTopics.toNat
    unregisteredEvents :=
      listener.unregisteredEvents + .ofNat (event.isUnregistered codec entries).toNat }

theorem Serves.counting (h : listener.Serves codec entries) (event : ListenerEvent δ) :
    (listener.counting codec entries event).Serves codec entries :=
  ⟨h.contract, h.table⟩

/-- An event that is no dropped log counts for nothing. -/
theorem counting_eq_self (htopics : event.lacksTopics = false)
    (hentry : event.isUnregistered codec entries = false) :
    listener.counting codec entries event = listener := by
  rw [DecodingListener.counting, htopics, hentry]
  simp

theorem counting_of_topicless (htopics : broadcast.log.topics.head? = none) :
    listener.counting codec entries (.log broadcast) =
      { listener with missingTopics := listener.missingTopics + 1 } := by
  simp [DecodingListener.counting, ListenerEvent.lacksTopics, ListenerEvent.isUnregistered, htopics]

theorem counting_of_unregistered (hselector : broadcast.log.topics.head? = some selector)
    (hnone : TableEntry.readerFor? codec entries selector = none) :
    listener.counting codec entries (.log broadcast) =
      { listener with unregisteredEvents := listener.unregisteredEvents + 1 } := by
  rw [DecodingListener.counting, ListenerEvent.lacksTopics_of_head? hselector,
    ListenerEvent.isUnregistered_of_head? hselector, hnone]
  simp

/-- A log whose selector is in the table counts for nothing. -/
theorem counting_of_registered (hselector : broadcast.log.topics.head? = some selector)
    (hreader : TableEntry.readerFor? codec entries selector = some reader) :
    listener.counting codec entries (.log broadcast) = listener := by
  refine counting_eq_self (ListenerEvent.lacksTopics_of_head? hselector) ?_
  rw [ListenerEvent.isUnregistered_of_head? hselector, hreader, Option.isNone_some]

theorem handle?_of_topicless (htopics : broadcast.log.topics.head? = none) :
    listener.handle? (.ok broadcast) =
      some (none, { listener with missingTopics := listener.missingTopics + 1 }) := by
  simp only [handle?, RawLog.eventId?, htopics]

theorem handle?_of_unregistered (hselector : broadcast.log.topics.head? = some selector)
    (hnone : listener.readers.lookup selector = none) :
    listener.handle? (.ok broadcast) =
      some (none, { listener with unregisteredEvents := listener.unregisteredEvents + 1 }) := by
  simp only [handle?, RawLog.eventId?, hselector, hnone]

theorem handle?_of_registered (hselector : broadcast.log.topics.head? = some selector)
    (hreader : listener.readers.lookup selector = some reader) :
    listener.handle? (.ok broadcast) =
      (listener.prepare? reader broadcast).map fun result => (some result, listener) := by
  simp only [handle?, RawLog.eventId?, hselector, hreader]

/-- Unpacking, reading and attaching fail in this order. -/
theorem passes_of_prepare? (hcodec : listener.codec = codec)
    (hselector : broadcast.log.topics.head? = some selector)
    (hreader : TableEntry.readerFor? codec entries selector = some reader)
    (h : listener.prepare? reader broadcast = some result) :
    Passes codec entries (.log broadcast) (some (.ofResult result)) := by
  obtain ⟨unpacked, hunpack, hresult⟩ := Option.bind_eq_some_iff.mp h
  rw [hcodec] at hunpack
  obtain rfl := Option.some.inj hresult
  cases unpacked with
  | error error => exact .malformed hselector hreader hunpack
  | ok fields =>
      cases hread : reader broadcast.log fields with
      | error error =>
          simp only [bind, Except.bind, hread]
          exact .unreadable hselector hreader hunpack hread
      | ok payload =>
          simp only [bind, Except.bind, hread]
          cases hdecoded : broadcast.decoded with
          | none =>
              rw [Broadcast.attach, hdecoded]
              exact .decoded hselector hreader hunpack hread hdecoded
          | some earlier =>
              rw [Broadcast.attach, hdecoded]
              exact .occupied hselector hreader hunpack hread hdecoded

theorem prepare?_eq_none_iff :
    listener.prepare? reader broadcast = none ↔ listener.codec.unpack? broadcast.log = none := by
  unfold prepare?
  cases listener.codec.unpack? broadcast.log with
  | none => simp
  | some unpacked => simp

/-- What the listener does unless it breaks down. -/
theorem Serves.passes_of_handle? (h : listener.Serves codec entries)
    {passed : Option (Except DecodeError (Broadcast δ))}
    (hhandle : listener.handle? result = some (passed, after)) :
    Passes codec entries (.ofResult result) (passed.map .ofResult) ∧
      after = listener.counting codec entries (.ofResult result) := by
  cases result with
  | error error =>
      cases hhandle
      exact ⟨.undecoded, (counting_eq_self rfl rfl).symm⟩
  | ok broadcast =>
      cases hselector : broadcast.log.topics.head? with
      | none =>
          rw [handle?_of_topicless hselector] at hhandle
          cases hhandle
          exact ⟨.topicless (List.head?_eq_none_iff.mp hselector),
            (counting_of_topicless hselector).symm⟩
      | some selector =>
          cases hreader : TableEntry.readerFor? codec entries selector with
          | none =>
              rw [handle?_of_unregistered hselector ((h.table selector).trans hreader)] at hhandle
              cases hhandle
              exact ⟨.unregistered hselector hreader,
                (counting_of_unregistered hselector hreader).symm⟩
          | some reader =>
              rw [handle?_of_registered hselector ((h.table selector).trans hreader)] at hhandle
              obtain ⟨prepared, hprepare, hpair⟩ := Option.map_eq_some_iff.mp hhandle
              cases hpair
              exact ⟨passes_of_prepare? h.contract hselector hreader hprepare,
                (counting_of_registered hselector hreader).symm⟩

/-- The listener breaks down over the logs whose unpacking does. -/
theorem Serves.handle?_eq_none_iff (h : listener.Serves codec entries) :
    listener.handle? result = none ↔
      (ListenerEvent.ofResult result).breaksDown codec entries = true := by
  cases result with
  | error error =>
      simp [DecodingListener.handle?, ListenerEvent.ofResult, ListenerEvent.breaksDown]
  | ok broadcast =>
      rw [ListenerEvent.ofResult, ListenerEvent.breaksDown_log_iff]
      cases hselector : broadcast.log.topics.head? with
      | none => simp [handle?_of_topicless hselector]
      | some selector =>
          cases hreader : TableEntry.readerFor? codec entries selector with
          | none =>
              simp [handle?_of_unregistered hselector ((h.table selector).trans hreader), hreader]
          | some reader =>
              simp [handle?_of_registered hselector ((h.table selector).trans hreader),
                prepare?_eq_none_iff, h.contract, hreader]

end DecodingListener

/-! ## Accounts -/

theorem countP_cons_toNat {α : Type} (p : α → Bool) (item : α) (items : List α) :
    (item :: items).countP p = (p item).toNat + items.countP p := by
  rw [List.countP_cons, Nat.add_comm]
  cases p item <;> rfl

/-- What a counter shows when another event was counted. -/
theorem ofNat_countP_concat {α : Type} (p : α → Bool) (items : List α) (item : α) :
    UInt64.ofNat ((items ++ [item]).countP p) =
      UInt64.ofNat (items.countP p) + .ofNat (p item).toNat := by
  rw [List.countP_append, countP_cons_toNat, List.countP_nil, Nat.add_zero, UInt64.ofNat_add]

namespace Endpoint

variable {codec : ContractCodec} {entries : List (TableEntry δ)} {listener : DecodingListener δ}
  {endpoint : Endpoint δ}

/-- An inbox that is read gets what the listener before it passes on. -/
theorem handle?_of_decoding (hdecoding : endpoint.decoding = some listener)
    (hopen : endpoint.isOpen = true) (result : Except DecodeError (Broadcast δ)) :
    endpoint.handle? result = (listener.handle? result).map fun found =>
      { endpoint with
        decoding := some found.2
        received := endpoint.received ++ (found.1.map .ofResult).toList } := by
  cases hhandle : listener.handle? result with
  | none => simp [handle?, hdecoding, hhandle]
  | some found =>
      obtain ⟨passed, after⟩ := found
      cases passed with
      | none => simp [handle?, hdecoding, hhandle]
      | some passed => simp [handle?, hdecoding, hhandle, forward, hopen]

/-- The endpoint breaks down when the listener before the inbox does. -/
theorem handle?_eq_none_iff (hdecoding : endpoint.decoding = some listener)
    (hopen : endpoint.isOpen = true) (hserves : listener.Serves codec entries)
    (result : Except DecodeError (Broadcast δ)) :
    endpoint.handle? result = none ↔
      (ListenerEvent.ofResult result).breaksDown codec entries = true := by
  rw [handle?_of_decoding hdecoding hopen, Option.map_eq_none_iff, hserves.handle?_eq_none_iff]

/-- A log over which the listener breaks down reaches neither the inbox nor a counter. -/
theorem getD_handle?_eq (hdecoding : endpoint.decoding = some listener)
    (hopen : endpoint.isOpen = true) (hserves : listener.Serves codec entries)
    (result : Except DecodeError (Broadcast δ)) :
    ∃ passed, Passes codec entries (.ofResult result) passed ∧
      (endpoint.handle? result).getD endpoint =
        { endpoint with
          decoding := some (listener.counting codec entries (.ofResult result))
          received := endpoint.received ++ passed.toList } := by
  rw [handle?_of_decoding hdecoding hopen]
  cases hhandle : listener.handle? result with
  | none =>
      obtain ⟨hpasses, htopics, hentry⟩ :=
        Passes.of_breaksDown (hserves.handle?_eq_none_iff.mp hhandle)
      refine ⟨none, hpasses, ?_⟩
      simp [DecodingListener.counting_eq_self htopics hentry, ← hdecoding]
  | some found =>
      obtain ⟨passed, after⟩ := found
      obtain ⟨hpasses, rfl⟩ := hserves.passes_of_handle? hhandle
      exact ⟨_, hpasses, rfl⟩

/-- An inbox that is read, behind a listener for decoded logs, gets what this listener passes
on. -/
theorem undergo_eq (hdecoding : endpoint.decoding = some listener) (hopen : endpoint.isOpen = true)
    (hserves : listener.Serves codec entries) (event : ListenerEvent δ) :
    ∃ passed, Passes codec entries event passed ∧ endpoint.undergo event =
      { endpoint with
        decoding := some (listener.counting codec entries event)
        received := endpoint.received ++ passed.toList } := by
  cases event with
  | connected =>
      refine ⟨_, .connected, ?_⟩
      rw [DecodingListener.counting_eq_self rfl rfl, ← hdecoding]
      simp [undergo, connect, forward, hopen]
  | disconnected =>
      refine ⟨_, .disconnected, ?_⟩
      rw [DecodingListener.counting_eq_self rfl rfl, ← hdecoding]
      simp [undergo, disconnect, forward, hopen]
  | log broadcast => exact getD_handle?_eq hdecoding hopen hserves (.ok broadcast)
  | undecoded error => exact getD_handle?_eq hdecoding hopen hserves (.error error)

/-- What a listener for decoded logs with an inbox has received and counted when this has happened
to it. -/
structure Accounts (codec : ContractCodec) (entries : List (TableEntry δ))
    (events : List (ListenerEvent δ)) (passed : List (Option (ListenerEvent δ)))
    (endpoint : Endpoint δ) : Prop where
  isOpen : endpoint.isOpen = true
  serves : ∃ listener, endpoint.decoding = some listener ∧ listener.Serves codec entries
  passes : List.Forall₂ (Passes codec entries) events passed
  received : endpoint.received = passed.filterMap id
  dropped : endpoint.dropped = (.ofNat (events.countP ListenerEvent.lacksTopics),
    .ofNat (events.countP (ListenerEvent.isUnregistered codec entries)))

variable {events : List (ListenerEvent δ)} {passed : List (Option (ListenerEvent δ))}

theorem Accounts.undergo (h : Accounts codec entries events passed endpoint)
    (event : ListenerEvent δ) :
    ∃ next, Accounts codec entries (events ++ [event]) (passed ++ [next])
      (endpoint.undergo event) := by
  obtain ⟨listener, hdecoding, hserves⟩ := h.serves
  obtain ⟨next, hpasses, hafter⟩ := undergo_eq hdecoding h.isOpen hserves event
  have hcounted := h.dropped
  rw [Endpoint.dropped, hdecoding, Prod.mk.injEq] at hcounted
  refine ⟨next, ?_⟩
  rw [hafter]
  exact {
    isOpen := h.isOpen
    serves := ⟨_, rfl, hserves.counting event⟩
    passes := List.rel_append h.passes (.cons hpasses .nil)
    received := by
      rw [List.filterMap_append, ← h.received]
      cases next with
      | none => rfl
      | some next => rfl
    dropped := by
      rw [ofNat_countP_concat, ofNat_countP_concat, ← hcounted.1, ← hcounted.2]
      rfl }

/-- Everything that has happened is accounted for. -/
theorem exists_accounts_foldl (hserves : listener.Serves codec entries)
    (hmissing : listener.missingTopics = 0) (hunregistered : listener.unregisteredEvents = 0)
    (job : JobIdentity) (events : List (ListenerEvent δ)) :
    ∃ passed, Accounts codec entries events passed
      (events.foldl Endpoint.undergo { job, decoding := some listener }) := by
  induction events using List.reverseRecOn with
  | nil =>
      refine ⟨[], rfl, ⟨listener, rfl, hserves⟩, .nil, rfl, ?_⟩
      exact congrArg₂ Prod.mk hmissing hunregistered
  | append_singleton events event ih =>
      obtain ⟨passed, haccounts⟩ := ih
      obtain ⟨next, hnext⟩ := haccounts.undergo event
      rw [List.foldl_append]
      exact ⟨passed ++ [next], hnext⟩

/-- Logs and reasons are passed on unless they have one of three reasons not to be. -/
theorem countP_isHandover (h : List.Forall₂ (Passes codec entries) events passed) :
    events.countP ListenerEvent.isHandover =
      (passed.filterMap id).countP ListenerEvent.isHandover +
        events.countP ListenerEvent.lacksTopics +
        events.countP (ListenerEvent.isUnregistered codec entries) +
        events.countP (ListenerEvent.breaksDown codec entries) := by
  induction h with
  | nil => rfl
  | @cons event next events passed hpasses hrest ih =>
      have hnext : ((next :: passed).filterMap id).countP ListenerEvent.isHandover =
          (next.any ListenerEvent.isHandover).toNat +
            (passed.filterMap id).countP ListenerEvent.isHandover := by
        cases next with
        | none => simp
        | some next => exact countP_cons_toNat ..
      have htally := hpasses.tally
      rw [hnext, countP_cons_toNat, countP_cons_toNat, countP_cons_toNat, countP_cons_toNat]
      omega

end Endpoint

/-- Data for a byte string that is said to have `2 ^ 64 - 1` bytes. -/
def overlongData : Bytes :=
  List.replicate 31 0 ++ [32] ++ List.replicate 24 0 ++ List.replicate 8 255

set_option maxRecDepth 1000 in
theorem decodeAll_overlongData :
    AbiType.decodeAll [.bytes] overlongData = .error .uncountable := rfl

/-- Whatever happens to a listener for decoded logs that was made with these entries, its inbox
holds what is passed on according to them and in the same order, which is determined for every
event.  The counters show how many logs had no topics and how many had a selector without an entry,
modulo `2 ^ 64`; with what was passed on, and the logs whose unpacking breaks down, they add up to
the logs and reasons that were handed over.  The listener breaks down over these logs only, and
they reach neither its inbox nor a counter. -/
theorem DecodingListener.inputs_are_accounted {codec : ContractCodec}
    {entries : List (TableEntry δ)} {listener : DecodingListener δ}
    (hbuild : DecodingListener.build codec entries = .ok listener) (job : JobIdentity)
    (events : List (ListenerEvent δ)) :
    let endpoint := events.foldl Endpoint.undergo { job, decoding := some listener }
    (∃ passed, List.Forall₂ (Passes codec entries) events passed ∧
      (∀ other, List.Forall₂ (Passes codec entries) events other → other = passed) ∧
      endpoint.received = passed.filterMap id) ∧
    endpoint.dropped = (.ofNat (events.countP ListenerEvent.lacksTopics),
      .ofNat (events.countP (ListenerEvent.isUnregistered codec entries))) ∧
    UInt64.ofNat (events.countP ListenerEvent.isHandover) =
      UInt64.ofNat (endpoint.received.countP ListenerEvent.isHandover) + endpoint.dropped.1 +
        endpoint.dropped.2 +
        .ofNat (events.countP (ListenerEvent.breaksDown codec entries)) ∧
    ∀ broadcast, endpoint.handle? (.ok broadcast) = none ↔
      (ListenerEvent.log broadcast).breaksDown codec entries = true := by
  intro endpoint
  obtain ⟨hserves, hmissing, hunregistered⟩ := serves_of_build hbuild
  obtain ⟨passed, haccounts⟩ :=
    Endpoint.exists_accounts_foldl hserves hmissing hunregistered job events
  have hright : Relator.RightUnique (Passes codec entries) := fun _ _ _ => Passes.unique
  refine ⟨?_, haccounts.dropped, ?_, ?_⟩
  · exact ⟨passed, haccounts.passes, fun other hother => hright.forall₂ hother haccounts.passes,
      haccounts.received⟩
  · rw [haccounts.dropped, haccounts.received, Endpoint.countP_isHandover haccounts.passes]
    simp only [UInt64.ofNat_add]
  · obtain ⟨last, hdecoding, hlast⟩ := haccounts.serves
    intro broadcast
    exact Endpoint.handle?_eq_none_iff hdecoding haccounts.isOpen hlast (.ok broadcast)

/-- The data of the second log breaks the unpacking down: its selector is in the table, but it is
neither passed on nor counted. -/
theorem overlong_log_is_unaccounted :
    let event : Event := ⟨"E", [⟨⟨"x", "bytes", []⟩, false⟩], false⟩
    let codec : ContractCodec := .ofAbi ⟨[.event event]⟩
    let entries : List (TableEntry LogFields) := [.ofEvent "E" fun _ fields => .ok fields]
    let overlong : RawLog := { topics := [event.selector], data := overlongData }
    let events : List (ListenerEvent LogFields) :=
      [.connected, .log { log := {}, job := default }, .log { log := overlong, job := default },
        .disconnected]
    ∃ listener, DecodingListener.build codec entries = .ok listener ∧
      let endpoint := events.foldl Endpoint.undergo { job := default, decoding := some listener }
      endpoint.handle? (.ok { log := overlong, job := default }) = none ∧
        endpoint.received = [.connected, .disconnected] ∧ endpoint.dropped = (1, 0) := by
  intro event codec entries overlong events
  have hbuild : DecodingListener.build codec entries =
      .ok { codec, readers := [(event.selector, fun _ fields => .ok fields)] } := rfl
  refine ⟨_, hbuild, ?_⟩
  intro endpoint
  obtain ⟨⟨passed, -, hunique, hreceived⟩, hdropped, -, hbroken⟩ :=
    DecodingListener.inputs_are_accounted hbuild default events
  have hselector : overlong.topics.head? = some event.selector := rfl
  have hreader : TableEntry.readerFor? codec entries event.selector =
      some fun _ fields => .ok fields := by
    obtain ⟨hserves, -, -⟩ := DecodingListener.serves_of_build hbuild
    rw [← hserves.table]
    exact List.lookup_cons_self
  have hunpack : codec.unpack? overlong = none := by
    have hevent : codec.eventById? event.selector = some event := List.lookup_cons_self
    have htyped : event.typed = .ok ⟨[], [.bytes]⟩ := rfl
    have hfault : event.topicFault? ⟨[], [.bytes]⟩ overlong.topics = none := by
      rw [Event.topicFault?_eq hselector]
      rfl
    rw [ContractCodec.unpack?_of_eventById? hselector hevent,
      Event.decode?_of_brokenDown htyped hfault decodeAll_overlongData (by simp), Option.map_none]
  have hpassed := hunique [some .connected, none, none, some .disconnected]
    (.cons .connected (.cons (.topicless rfl) (.cons (.broken hselector hreader hunpack)
      (.cons .disconnected .nil))))
  have hregistered :
      events.countP (ListenerEvent.isUnregistered codec entries) = 0 := by
    simp [events, ListenerEvent.isUnregistered, hselector, hreader]
  refine ⟨(hbroken _).mpr ?_, ?_, ?_⟩
  · exact ListenerEvent.breaksDown_log_iff.mpr ⟨_, _, hselector, hreader, hunpack⟩
  · rw [hreceived, ← hpassed]
    rfl
  · rw [hdropped, hregistered]
    rfl

end LogRelay
