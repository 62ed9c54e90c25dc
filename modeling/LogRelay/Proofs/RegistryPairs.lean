import LogRelay.Proofs.History
import Mathlib.Data.List.Perm.Basic
import Mathlib.Data.List.Nodup

/-!
# The registry as a finite set of pairs

A registry that is made by adding and removing pairs is kept well: its addresses are
strictly ascending, and each of them has at least one listener and no listener twice.
Then it is determined by who listens to what: a pair is there exactly if the listener
is among those of the address (`mem_pairs`), an address is there exactly if it has
listeners (`mem_addresses`), and a change that does not report other addresses leaves
the list of addresses as it is (`addresses_of_add?`, `addresses_of_remove`).
-/

namespace LogRelay

/-! ## The order of addresses -/

theorem Word.lt_irrefl {size : Nat} (word : Word size) : ¬ word < word :=
  List.lt_irrefl word.bytes

theorem Word.lt_trans {size : Nat} {first second third : Word size} (h : first < second)
    (h' : second < third) : first < third := by
  have hbytes : first.bytes < second.bytes := h
  exact List.lt_trans hbytes h'

theorem Word.lt_of_not_lt_of_ne {size : Nat} {first second : Word size} (h : ¬ first < second)
    (hne : first ≠ second) : second < first := by
  refine Classical.byContradiction fun h' => hne (Word.ext ?_)
  exact List.le_antisymm (List.not_lt.mp h') (List.not_lt.mp h)

namespace Registry

/-- The listeners of an address among the entries. -/
abbrev among (address : Address) (entries : List (Address × List ListenerId)) :
    List ListenerId :=
  (entries.lookup address).getD []

/-- The registry is kept well: ascending addresses, none without listeners and none with a
listener twice. -/
structure WellFormed (registry : Registry) : Prop where
  ascending : registry.entries.Pairwise fun first second => first.1 < second.1
  inhabited : ∀ entry ∈ registry.entries, entry.2 ≠ []
  nodup : ∀ entry ∈ registry.entries, entry.2.Nodup

theorem wellFormed_empty : WellFormed {} :=
  ⟨List.Pairwise.nil, by simp, by simp⟩

/-! ## Looking up an address -/

@[simp] theorem among_nil (address : Address) : among address [] = [] := rfl

@[simp] theorem among_cons_self (address : Address) (listeners : List ListenerId)
    (rest : List (Address × List ListenerId)) :
    among address ((address, listeners) :: rest) = listeners := by
  simp [among]

theorem among_cons_of_ne {address other : Address} (h : other ≠ address)
    (listeners : List ListenerId) (rest : List (Address × List ListenerId)) :
    among other ((address, listeners) :: rest) = among other rest := by
  have hne : (other == address) = false := beq_false_of_ne h
  rw [among, List.lookup_cons, hne]

theorem among_eq_nil_of_lt {address : Address} {entries : List (Address × List ListenerId)}
    (h : ∀ entry ∈ entries, address < entry.1) : among address entries = [] := by
  induction entries with
  | nil => rfl
  | cons entry rest ih =>
      obtain ⟨key, listeners⟩ := entry
      have hne : address ≠ key := fun heq =>
        Word.lt_irrefl key (heq ▸ h (key, listeners) (List.mem_cons_self ..))
      rw [among_cons_of_ne hne]
      exact ih fun other hother => h other (List.mem_cons_of_mem _ hother)

theorem mem_among {address : Address} {listener : ListenerId}
    {entries : List (Address × List ListenerId)}
    (hascending : entries.Pairwise fun first second => first.1 < second.1) :
    listener ∈ among address entries ↔
      ∃ listeners, (address, listeners) ∈ entries ∧ listener ∈ listeners := by
  induction entries with
  | nil => simp
  | cons entry rest ih =>
      obtain ⟨key, listeners⟩ := entry
      obtain ⟨hhead, htail⟩ := List.pairwise_cons.mp hascending
      by_cases heq : address = key
      · subst heq
        have hrest : ∀ others, (address, others) ∉ rest := fun others hmem =>
          Word.lt_irrefl address (hhead _ hmem)
        simp [hrest]
      · rw [among_cons_of_ne heq, ih htail]
        simp [heq]

/-! ## Adding and removing a pair -/

theorem among_insertInto {address other : Address} {listener : ListenerId}
    {entries : List (Address × List ListenerId)}
    (hascending : entries.Pairwise fun first second => first.1 < second.1) :
    among other (insertInto address listener entries) =
      if other = address then among address entries ++ [listener] else among other entries := by
  induction entries with
  | nil =>
      by_cases h : other = address
      · simp [insertInto, h]
      · rw [insertInto, among_cons_of_ne h, if_neg h]
  | cons entry rest ih =>
      obtain ⟨key, listeners⟩ := entry
      obtain ⟨hhead, htail⟩ := List.pairwise_cons.mp hascending
      simp only [insertInto]
      split
      next hlt =>
        -- The new address comes first, so that it cannot be further on in the list.
        have hnil : among address ((key, listeners) :: rest) = [] := by
          refine among_eq_nil_of_lt fun candidate hmem => ?_
          rcases List.mem_cons.mp hmem with rfl | hmem
          · exact hlt
          · exact Word.lt_trans hlt (hhead candidate hmem)
        by_cases h : other = address
        · rw [if_pos h, h, among_cons_self, hnil, List.nil_append]
        · rw [if_neg h, among_cons_of_ne h]
      next =>
        split
        next heq =>
          subst heq
          by_cases h : other = address
          · rw [if_pos h, h, among_cons_self, among_cons_self]
          · rw [if_neg h, among_cons_of_ne h, among_cons_of_ne h]
        next hne =>
          rw [among_cons_of_ne hne]
          by_cases h : other = key
          · have hother : key ≠ address := fun h' => hne h'.symm
            rw [h, among_cons_self, among_cons_self, if_neg hother]
          · rw [among_cons_of_ne h, among_cons_of_ne h]
            exact ih htail

theorem among_eraseFrom {address other : Address} {listener : ListenerId}
    {entries : List (Address × List ListenerId)}
    (hascending : entries.Pairwise fun first second => first.1 < second.1) :
    among other (eraseFrom address listener entries) =
      if other = address then (among address entries).erase listener
      else among other entries := by
  induction entries with
  | nil => simp [eraseFrom]
  | cons entry rest ih =>
      obtain ⟨key, listeners⟩ := entry
      obtain ⟨hhead, htail⟩ := List.pairwise_cons.mp hascending
      simp only [eraseFrom]
      split
      next heq =>
        subst heq
        by_cases h : other = address
        · rw [if_pos h, h, among_cons_self]
          split
          next hempty =>
            -- The entry goes with its last listener; what follows is of greater addresses.
            rw [among_eq_nil_of_lt hhead]
            exact (List.isEmpty_iff.mp hempty).symm
          next => rw [among_cons_self]
        · rw [if_neg h, among_cons_of_ne h]
          split
          next => rfl
          next => rw [among_cons_of_ne h]
      next hne =>
        rw [among_cons_of_ne hne]
        by_cases h : other = key
        · have hother : key ≠ address := fun h' => hne h'.symm
          rw [h, among_cons_self, among_cons_self, if_neg hother]
        · rw [among_cons_of_ne h, among_cons_of_ne h]
          exact ih htail

theorem mem_insertInto {address : Address} {listener : ListenerId}
    {entries : List (Address × List ListenerId)} {entry : Address × List ListenerId}
    (hmem : entry ∈ insertInto address listener entries) :
    entry ∈ entries ∨ entry = (address, [listener]) ∨
      ∃ listeners, (address, listeners) ∈ entries ∧ entry = (address, listeners ++ [listener]) := by
  induction entries with
  | nil => exact .inr (.inl (List.mem_singleton.mp hmem))
  | cons head rest ih =>
      simp only [insertInto] at hmem
      split at hmem
      next =>
        rcases List.mem_cons.mp hmem with rfl | hmem
        · exact .inr (.inl rfl)
        · exact .inl hmem
      next =>
        split at hmem
        next heq =>
          rcases List.mem_cons.mp hmem with rfl | hmem
          · exact .inr (.inr ⟨head.2, heq ▸ List.mem_cons_self .., rfl⟩)
          · exact .inl (List.mem_cons_of_mem _ hmem)
        next =>
          rcases List.mem_cons.mp hmem with rfl | hmem
          · exact .inl (List.mem_cons_self ..)
          · rcases ih hmem with h | h | ⟨listeners, h, h'⟩
            · exact .inl (List.mem_cons_of_mem _ h)
            · exact .inr (.inl h)
            · exact .inr (.inr ⟨listeners, List.mem_cons_of_mem _ h, h'⟩)

theorem mem_eraseFrom {address : Address} {listener : ListenerId}
    {entries : List (Address × List ListenerId)} {entry : Address × List ListenerId}
    (hmem : entry ∈ eraseFrom address listener entries) :
    entry ∈ entries ∨ ∃ listeners, (address, listeners) ∈ entries ∧
      listeners.erase listener ≠ [] ∧ entry = (address, listeners.erase listener) := by
  induction entries with
  | nil => exact .inl hmem
  | cons head rest ih =>
      simp only [eraseFrom] at hmem
      split at hmem
      next heq =>
        split at hmem
        next => exact .inl (List.mem_cons_of_mem _ hmem)
        next hempty =>
          rcases List.mem_cons.mp hmem with rfl | hmem
          · exact .inr ⟨head.2, heq ▸ List.mem_cons_self .., by simpa using hempty, rfl⟩
          · exact .inl (List.mem_cons_of_mem _ hmem)
      next =>
        rcases List.mem_cons.mp hmem with rfl | hmem
        · exact .inl (List.mem_cons_self ..)
        · rcases ih hmem with h | ⟨listeners, h, h'⟩
          · exact .inl (List.mem_cons_of_mem _ h)
          · exact .inr ⟨listeners, List.mem_cons_of_mem _ h, h'⟩

theorem ascending_insertInto {address : Address} {listener : ListenerId}
    {entries : List (Address × List ListenerId)}
    (hascending : entries.Pairwise fun first second => first.1 < second.1) :
    (insertInto address listener entries).Pairwise fun first second => first.1 < second.1 := by
  induction entries with
  | nil => exact List.pairwise_singleton ..
  | cons entry rest ih =>
      obtain ⟨hhead, htail⟩ := List.pairwise_cons.mp hascending
      simp only [insertInto]
      split
      next hlt =>
        refine List.pairwise_cons.mpr ⟨fun candidate hmem => ?_, hascending⟩
        rcases List.mem_cons.mp hmem with rfl | hmem
        · exact hlt
        · exact Word.lt_trans hlt (hhead candidate hmem)
      next hlt =>
        split
        next heq => exact List.pairwise_cons.mpr ⟨heq ▸ hhead, htail⟩
        next hne =>
          refine List.pairwise_cons.mpr ⟨fun candidate hmem => ?_, ih htail⟩
          have hafter : entry.1 < address := Word.lt_of_not_lt_of_ne hlt hne
          rcases mem_insertInto hmem with hmem | rfl | ⟨listeners, hmem, rfl⟩
          · exact hhead candidate hmem
          · exact hafter
          · exact hafter

theorem ascending_eraseFrom {address : Address} {listener : ListenerId}
    {entries : List (Address × List ListenerId)}
    (hascending : entries.Pairwise fun first second => first.1 < second.1) :
    (eraseFrom address listener entries).Pairwise fun first second => first.1 < second.1 := by
  induction entries with
  | nil => exact hascending
  | cons entry rest ih =>
      obtain ⟨hhead, htail⟩ := List.pairwise_cons.mp hascending
      simp only [eraseFrom]
      split
      next heq =>
        split
        next => exact htail
        next => exact List.pairwise_cons.mpr ⟨heq ▸ hhead, htail⟩
      next =>
        refine List.pairwise_cons.mpr ⟨fun candidate hmem => ?_, ih htail⟩
        rcases mem_eraseFrom hmem with hrest | ⟨listeners, hrest, -, rfl⟩
        · exact hhead candidate hrest
        · exact hhead (address, listeners) hrest

/-! ## What a well-kept registry says -/

variable {registry after : Registry} {address other : Address} {listener : ListenerId}
  {changed : Bool}

theorem WellFormed.mem_listenersAt (h : registry.WellFormed) :
    listener ∈ registry.listenersAt address ↔
      ∃ listeners, (address, listeners) ∈ registry.entries ∧ listener ∈ listeners :=
  mem_among h.ascending

theorem WellFormed.mem_pairs (h : registry.WellFormed) :
    (address, listener) ∈ registry.pairs ↔ listener ∈ registry.listenersAt address := by
  rw [h.mem_listenersAt]
  simp only [pairs, List.mem_flatMap, List.mem_map, Prod.mk.injEq, Prod.exists]
  constructor
  · rintro ⟨key, listeners, hmem, found, hfound, rfl, rfl⟩
    exact ⟨listeners, hmem, hfound⟩
  · rintro ⟨listeners, hmem, hfound⟩
    exact ⟨address, listeners, hmem, listener, hfound, rfl, rfl⟩

theorem WellFormed.mem_addresses (h : registry.WellFormed) :
    address ∈ registry.addresses ↔ registry.listenersAt address ≠ [] := by
  constructor
  · intro hmem
    obtain ⟨⟨key, listeners⟩, hentry, rfl⟩ := List.mem_map.mp hmem
    obtain ⟨listener, hlistener⟩ := List.exists_mem_of_ne_nil _ (h.inhabited _ hentry)
    exact List.ne_nil_of_mem (h.mem_listenersAt.mpr ⟨listeners, hentry, hlistener⟩)
  · intro hne
    obtain ⟨listener, hlistener⟩ := List.exists_mem_of_ne_nil _ hne
    obtain ⟨listeners, hentry, -⟩ := h.mem_listenersAt.mp hlistener
    exact List.mem_map.mpr ⟨(address, listeners), hentry, rfl⟩

theorem WellFormed.addresses_ascending (h : registry.WellFormed) :
    registry.addresses.Pairwise (· < ·) :=
  List.pairwise_map.mpr h.ascending

theorem WellFormed.nodup_addresses (h : registry.WellFormed) : registry.addresses.Nodup := by
  refine h.addresses_ascending.imp ?_
  intro first second hlt heq
  exact Word.lt_irrefl second (heq ▸ hlt)

theorem WellFormed.nodup_pairs (h : registry.WellFormed) : registry.pairs.Nodup := by
  refine List.nodup_flatMap.mpr ⟨fun entry hentry => ?_, ?_⟩
  · exact (h.nodup entry hentry).map fun _ _ heq => (Prod.mk.inj heq).2
  · refine h.ascending.imp fun {first second} hlt pair hfirst hsecond => ?_
    obtain ⟨listener, -, rfl⟩ := List.mem_map.mp hfirst
    obtain ⟨other, -, heq⟩ := List.mem_map.mp hsecond
    rw [(Prod.mk.inj heq).1] at hlt
    exact Word.lt_irrefl _ hlt

/-- The addresses are those of the pairs. -/
theorem WellFormed.mem_addresses_iff_exists (h : registry.WellFormed) :
    address ∈ registry.addresses ↔ ∃ listener, (address, listener) ∈ registry.pairs := by
  rw [h.mem_addresses]
  constructor
  · intro hne
    obtain ⟨listener, hlistener⟩ := List.exists_mem_of_ne_nil _ hne
    exact ⟨listener, h.mem_pairs.mpr hlistener⟩
  · rintro ⟨listener, hpair⟩
    exact List.ne_nil_of_mem (h.mem_pairs.mp hpair)

theorem WellFormed.nodup_listenersAt (h : registry.WellFormed) (address : Address) :
    (registry.listenersAt address).Nodup := by
  rw [listenersAt]
  cases hlookup : registry.entries.lookup address with
  | none => exact List.nodup_nil
  | some listeners =>
      obtain ⟨before, after, heq, -⟩ := List.lookup_eq_some_iff.mp hlookup
      exact h.nodup (address, listeners) (heq ▸ by simp)

/-- Two well-kept registries with the same addresses list them in the same order. -/
theorem WellFormed.addresses_eq (h : registry.WellFormed) (hafter : after.WellFormed)
    (hsame : ∀ address, registry.listenersAt address = [] ↔ after.listenersAt address = []) :
    after.addresses = registry.addresses := by
  have hperm : after.addresses.Perm registry.addresses := by
    refine (List.perm_ext_iff_of_nodup ?_ ?_).mpr fun address => ?_
    · exact hafter.nodup_addresses
    · exact h.nodup_addresses
    · rw [hafter.mem_addresses, h.mem_addresses, ne_eq, ne_eq, hsame]
  refine hperm.eq_of_pairwise (fun first second _ _ hlt hlt' => ?_)
    hafter.addresses_ascending h.addresses_ascending
  exact absurd (Word.lt_trans hlt hlt') (Word.lt_irrefl first)

/-! ## What a change does -/

theorem add?_eq_some (hadd : registry.add? address listener = some (changed, after)) :
    listener ∉ registry.listenersAt address ∧
      changed = (registry.entries.lookup address).isNone ∧
      after = ⟨insertInto address listener registry.entries⟩ := by
  have habsent : listener ∉ registry.listenersAt address := fun hmem => by
    rw [add?_eq_none_iff.mpr hmem] at hadd
    cases hadd
  simp only [add?] at hadd
  split at hadd
  next hlookup =>
    cases hadd
    exact ⟨habsent, by rw [hlookup]; rfl, rfl⟩
  next hlookup =>
    split at hadd
    next => cases hadd
    next =>
      cases hadd
      exact ⟨habsent, by rw [hlookup]; rfl, rfl⟩

/-- No address is kept without listeners. -/
theorem WellFormed.lookup_eq_none_iff (h : registry.WellFormed) :
    registry.entries.lookup address = none ↔ registry.listenersAt address = [] := by
  rw [listenersAt]
  cases hlookup : registry.entries.lookup address with
  | none => simp
  | some listeners =>
      obtain ⟨before, after, heq, -⟩ := List.lookup_eq_some_iff.mp hlookup
      have hne : listeners ≠ [] := h.inhabited (address, listeners) (heq ▸ by simp)
      simp [hne]

/-- Where an address is unknown there is nothing to take out. -/
theorem eraseFrom_of_lookup_eq_none {entries : List (Address × List ListenerId)}
    (hlookup : entries.lookup address = none) : eraseFrom address listener entries = entries := by
  induction entries with
  | nil => rfl
  | cons entry rest ih =>
      obtain ⟨key, listeners⟩ := entry
      rw [List.lookup_cons] at hlookup
      split at hlookup
      next => cases hlookup
      next hne => rw [eraseFrom, if_neg (by simpa using hne), ih hlookup]

theorem remove_snd (registry : Registry) (address : Address) (listener : ListenerId) :
    (registry.remove address listener).2 = ⟨eraseFrom address listener registry.entries⟩ := by
  unfold remove
  split
  next hlookup => rw [eraseFrom_of_lookup_eq_none hlookup]
  next => rfl

/-- A removal is reported to change the addresses if the address was there and has no listener
left. -/
theorem remove_fst (registry : Registry) (address : Address) (listener : ListenerId) :
    (registry.remove address listener).1 = ((registry.entries.lookup address).isSome &&
      ((registry.listenersAt address).erase listener).isEmpty) := by
  unfold remove listenersAt
  cases registry.entries.lookup address with
  | none => rfl
  | some listeners => rfl

theorem WellFormed.listenersAt_of_add? (h : registry.WellFormed)
    (hadd : registry.add? address listener = some (changed, after)) (other : Address) :
    after.listenersAt other =
      if other = address then registry.listenersAt address ++ [listener]
      else registry.listenersAt other := by
  obtain ⟨-, -, rfl⟩ := add?_eq_some hadd
  exact among_insertInto h.ascending

theorem WellFormed.listenersAt_remove (h : registry.WellFormed) (address other : Address)
    (listener : ListenerId) :
    (registry.remove address listener).2.listenersAt other =
      if other = address then (registry.listenersAt address).erase listener
      else registry.listenersAt other := by
  rw [remove_snd]
  exact among_eraseFrom h.ascending

theorem WellFormed.add? (h : registry.WellFormed)
    (hadd : registry.add? address listener = some (changed, after)) : after.WellFormed := by
  obtain ⟨habsent, -, rfl⟩ := add?_eq_some hadd
  refine ⟨ascending_insertInto h.ascending, fun entry hmem => ?_, fun entry hmem => ?_⟩
  · rcases mem_insertInto hmem with hold | rfl | ⟨listeners, -, rfl⟩
    · exact h.inhabited entry hold
    · exact List.cons_ne_nil listener []
    · exact List.append_ne_nil_of_right_ne_nil _ (List.cons_ne_nil listener [])
  · rcases mem_insertInto hmem with hold | rfl | ⟨listeners, hold, rfl⟩
    · exact h.nodup entry hold
    · exact List.nodup_singleton _
    · have hnew : listener ∉ listeners := fun hlistener =>
        habsent (h.mem_listenersAt.mpr ⟨listeners, hold, hlistener⟩)
      exact List.nodup_append_comm.mp (List.nodup_cons.mpr ⟨hnew, h.nodup _ hold⟩)

theorem WellFormed.remove (h : registry.WellFormed) (address : Address) (listener : ListenerId) :
    (registry.remove address listener).2.WellFormed := by
  rw [remove_snd]
  refine ⟨ascending_eraseFrom h.ascending, fun entry hmem => ?_, fun entry hmem => ?_⟩
  · rcases mem_eraseFrom hmem with hold | ⟨listeners, -, hne, rfl⟩
    · exact h.inhabited entry hold
    · exact hne
  · rcases mem_eraseFrom hmem with hold | ⟨listeners, hold, -, rfl⟩
    · exact h.nodup entry hold
    · exact (h.nodup _ hold).erase listener

/-- A pair that is added without a new address leaves the addresses as they are. -/
theorem WellFormed.addresses_of_add? (h : registry.WellFormed)
    (hadd : registry.add? address listener = some (false, after)) :
    after.addresses = registry.addresses := by
  refine h.addresses_eq (h.add? hadd) fun other => ?_
  have hknown : registry.listenersAt address ≠ [] := by
    obtain ⟨-, hchanged, -⟩ := add?_eq_some hadd
    exact fun hnil => by simp [h.lookup_eq_none_iff.mpr hnil] at hchanged
  rw [h.listenersAt_of_add? hadd]
  split
  next heq => simp [heq, hknown]
  next => exact Iff.rfl

/-- A removal after which no address is gone leaves the addresses as they are. -/
theorem WellFormed.addresses_of_remove (h : registry.WellFormed)
    (hremove : (registry.remove address listener).1 = false) :
    (registry.remove address listener).2.addresses = registry.addresses := by
  refine h.addresses_eq (h.remove address listener) fun other => ?_
  have hkept : registry.listenersAt address = [] ↔
      (registry.remove address listener).2.listenersAt address = [] := by
    rw [h.listenersAt_remove, if_pos rfl]
    refine ⟨fun hnil => by rw [hnil, List.erase_nil], fun hnil => ?_⟩
    rw [remove_fst, hnil] at hremove
    exact h.lookup_eq_none_iff.mp (by simpa using hremove)
  by_cases heq : other = address
  · rw [heq]
    exact hkept
  · rw [h.listenersAt_remove, if_neg heq]

/-! ## Handling requests -/

theorem WellFormed.apply (h : registry.WellFormed) (command : Command) :
    (registry.apply command).WellFormed := by
  cases command with
  | register address listener =>
      simp only [Registry.apply]
      split
      next hadd => exact h.add? hadd
      next => exact h
  | unregister address listener => exact h.remove address listener

/-- A request that is not reported to change the addresses does not change them. -/
theorem WellFormed.addresses_apply (h : registry.WellFormed) {command : Command}
    (hchanges : registry.changes command = false) :
    (registry.apply command).addresses = registry.addresses := by
  cases command with
  | register address listener =>
      simp only [Registry.apply]
      split
      next changed after hadd =>
        obtain ⟨-, hchanged, -⟩ := add?_eq_some hadd
        have hfalse : changed = false := hchanged.trans hchanges
        exact h.addresses_of_add? (hfalse ▸ hadd)
      next => rfl
  | unregister address listener => exact h.addresses_of_remove hchanges

/-- A request to register adds its pair. -/
theorem WellFormed.mem_pairs_register (h : registry.WellFormed) {pair : Address × ListenerId} :
    pair ∈ (registry.apply (.register address listener)).pairs ↔
      pair = (address, listener) ∨ pair ∈ registry.pairs := by
  obtain ⟨other, found⟩ := pair
  rw [(h.apply _).mem_pairs, h.mem_pairs, Prod.mk.injEq]
  cases hadd : registry.add? address listener with
  | none =>
      have hmem := add?_eq_none_iff.mp hadd
      have hrepeats : registry.Repeats (.register address listener) := hmem
      rw [apply_of_repeats hrepeats]
      refine ⟨.inr, ?_⟩
      rintro (⟨rfl, rfl⟩ | hold)
      · exact hmem
      · exact hold
  | some result =>
      obtain ⟨changed, after⟩ := result
      simp only [Registry.apply, hadd]
      rw [h.listenersAt_of_add? hadd]
      split
      next heq => simp [heq, or_comm]
      next hne => simp [hne]

/-- A request to unregister removes its pair. -/
theorem WellFormed.mem_pairs_unregister (h : registry.WellFormed) {pair : Address × ListenerId} :
    pair ∈ (registry.apply (.unregister address listener)).pairs ↔
      pair ≠ (address, listener) ∧ pair ∈ registry.pairs := by
  obtain ⟨other, found⟩ := pair
  rw [(h.apply _).mem_pairs, h.mem_pairs, ne_eq, Prod.mk.injEq, Registry.apply,
    h.listenersAt_remove]
  split
  next heq => simp [heq, (h.nodup_listenersAt address).mem_erase_iff]
  next hne => simp [hne]

/-- A request is reported to change the addresses exactly if it does. -/
theorem WellFormed.changes_iff (h : registry.WellFormed) {command : Command}
    (hnew : ¬ registry.Repeats command) :
    registry.changes command = true ↔ (registry.apply command).addresses ≠ registry.addresses := by
  refine ⟨fun hchanges hsame => ?_, fun hother => ?_⟩
  · have hafter := h.apply command
    cases command with
    | register address listener =>
        -- The address is new: it is there afterwards, but was not there before.
        have hunknown : registry.listenersAt address = [] :=
          h.lookup_eq_none_iff.mp (Option.isNone_iff_eq_none.mp hchanges)
        have hmem := hafter.mem_addresses_iff_exists.mpr
          ⟨listener, h.mem_pairs_register.mpr (.inl rfl)⟩
        rw [hsame, h.mem_addresses] at hmem
        exact hmem hunknown
    | unregister address listener =>
        -- The address has lost its last listener: it was there before, but is gone afterwards.
        have hreported : (registry.remove address listener).1 = true := hchanges
        rw [remove_fst, Bool.and_eq_true, List.isEmpty_iff, Option.isSome_iff_ne_none, ne_eq,
          h.lookup_eq_none_iff] at hreported
        have hmem := h.mem_addresses.mpr hreported.1
        rw [← hsame, hafter.mem_addresses] at hmem
        refine hmem ?_
        rw [Registry.apply, h.listenersAt_remove, if_pos rfl]
        exact hreported.2
  · by_contra hunchanged
    exact hother (h.addresses_apply (Bool.eq_false_iff.mpr hunchanged))

/-- Only the pair of a request to unregister goes. -/
theorem WellFormed.mem_listenersAt_apply (h : registry.WellFormed) {command : Command}
    (hmem : listener ∈ registry.listenersAt address)
    (hother : command ≠ .unregister address listener) :
    listener ∈ (registry.apply command).listenersAt address := by
  cases command with
  | register added newcomer =>
      simp only [Registry.apply]
      split
      next hadd =>
        rw [h.listenersAt_of_add? hadd]
        split
        next heq => exact List.mem_append_left _ (heq ▸ hmem)
        next => exact hmem
      next => exact hmem
  | unregister removed leaver =>
      simp only [Registry.apply]
      rw [h.listenersAt_remove]
      split
      next heq =>
        have hne : listener ≠ leaver := fun h' => hother (by rw [heq, h'])
        exact (List.mem_erase_of_ne hne).mpr (heq ▸ hmem)
      next => exact hmem

theorem wellFormed_history (history : History) : history.registry.WellFormed := by
  induction history with
  | nil => exact wellFormed_empty
  | cons effect older ih =>
      cases effect
      case handled caller command => exact ih.apply command
      all_goals exact ih

end Registry

end LogRelay
