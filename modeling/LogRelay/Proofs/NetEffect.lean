import LogRelay.Proofs.Operations
import LogRelay.Proofs.RegistryPairs
import LogRelay.Proofs.Run
import Mathlib.Data.Finset.Dedup
import Mathlib.Data.Finset.Basic

/-!
# Requests amount to a set of pairs

The registry is kept in two levels, listeners by address, but it behaves as a finite set of
pairs: to register adds a pair to the set and to unregister removes one (`Command.effect`), so that
requests handled one after the other leave their net effect (`netEffect`).  The two levels show in
what a request reports.  It says that the addresses have changed when an address gets its first
pair or loses its last one, which is right because no address is ever kept without listeners.
-/

namespace LogRelay

/-- What a request does to a set of pairs. -/
def Command.effect (pairs : Finset (Address × ListenerId)) :
    Command → Finset (Address × ListenerId)
  | .register address listener => insert (address, listener) pairs
  | .unregister address listener => pairs.erase (address, listener)

/-- The pairs that are left by requests which are handled one after the other. -/
def netEffect (commands : List Command) : Finset (Address × ListenerId) :=
  commands.foldl Command.effect ∅

namespace Registry

variable {registry : Registry}

theorem WellFormed.toFinset_pairs_apply (h : registry.WellFormed) (command : Command) :
    (registry.apply command).pairs.toFinset = command.effect registry.pairs.toFinset := by
  ext pair
  rw [List.mem_toFinset]
  cases command with
  | register address listener =>
      rw [h.mem_pairs_register, Command.effect, Finset.mem_insert, List.mem_toFinset]
  | unregister address listener =>
      rw [h.mem_pairs_unregister, Command.effect, Finset.mem_erase, List.mem_toFinset]

theorem WellFormed.foldl_apply (h : registry.WellFormed) (commands : List Command) :
    (commands.foldl Registry.apply registry).WellFormed := by
  induction commands generalizing registry with
  | nil => exact h
  | cons command rest ih => exact ih (h.apply command)

theorem WellFormed.toFinset_pairs_foldl (h : registry.WellFormed) (commands : List Command) :
    (commands.foldl Registry.apply registry).pairs.toFinset =
      commands.foldl Command.effect registry.pairs.toFinset := by
  induction commands generalizing registry with
  | nil => rfl
  | cons command rest ih =>
      rw [List.foldl_cons, List.foldl_cons, ih (h.apply command), h.toFinset_pairs_apply]

/-- A request to register reports that the address is new if no pair has it. -/
theorem WellFormed.changes_register (h : registry.WellFormed) (address : Address)
    (listener : ListenerId) :
    registry.changes (.register address listener) = true ↔
      ∀ other, (address, other) ∉ registry.pairs.toFinset := by
  rw [changes, Option.isNone_iff_eq_none, h.lookup_eq_none_iff, List.eq_nil_iff_forall_not_mem]
  refine forall_congr' fun other => not_congr ?_
  rw [List.mem_toFinset]
  exact h.mem_pairs.symm

/-- A request to unregister reports that the address is gone if pairs had it and none has it any
more. -/
theorem WellFormed.changes_unregister (h : registry.WellFormed) (address : Address)
    (listener : ListenerId) :
    registry.changes (.unregister address listener) = true ↔
      (∃ other, (address, other) ∈ registry.pairs.toFinset) ∧
        ∀ other, (address, other) ∉ registry.pairs.toFinset.erase (address, listener) := by
  have hbefore : (registry.entries.lookup address).isSome = true ↔
      ∃ other, (address, other) ∈ registry.pairs.toFinset := by
    rw [Option.isSome_iff_ne_none, ne_eq, h.lookup_eq_none_iff, ← ne_eq, ← h.mem_addresses,
      h.mem_addresses_iff_exists]
    simp only [List.mem_toFinset]
  have hafter : (registry.listenersAt address).erase listener = [] ↔
      ∀ other, (address, other) ∉ registry.pairs.toFinset.erase (address, listener) := by
    rw [List.eq_nil_iff_forall_not_mem]
    refine forall_congr' fun other => not_congr ?_
    rw [(h.nodup_listenersAt address).mem_erase_iff, Finset.mem_erase, List.mem_toFinset,
      h.mem_pairs]
    simp
  rw [changes, remove_fst, Bool.and_eq_true, List.isEmpty_iff, hbefore, hafter]

end Registry

namespace Machine

/-- The relay after a request was handled; one over which it breaks down leaves it as it is. -/
def afterRequest (machine : Machine) (request : CallerId × Command) : Machine :=
  match machine.handle? request.1 request.2 with
  | some (_, after) => after
  | none => machine

variable {machine after : Machine} {caller : CallerId} {command : Command}

/-- The relay breaks down exactly over a pair that is registered already. -/
theorem handle?_eq_none_iff :
    machine.handle? caller command = none ↔ machine.registry.Repeats command := by
  refine ⟨handle?_eq_none, fun hrepeats => Option.eq_none_iff_forall_not_mem.mpr ?_⟩
  rintro ⟨changed, after⟩ hhandle
  obtain ⟨-, -, -, -, hnew, -⟩ := handle?_eq_some hhandle
  exact hnew hrepeats

theorem registry_afterRequest (machine : Machine) (request : CallerId × Command) :
    (machine.afterRequest request).registry = machine.registry.apply request.2 := by
  unfold afterRequest
  split
  next changed after hhandle =>
    obtain ⟨callers, -, -, -, -, rfl⟩ := handle?_eq_some hhandle
    rfl
  next hnone => exact (Registry.apply_of_repeats (handle?_eq_none hnone)).symm

theorem registry_foldl_afterRequest (machine : Machine) (requests : List (CallerId × Command)) :
    (requests.foldl afterRequest machine).registry =
      (requests.map (·.2)).foldl Registry.apply machine.registry := by
  induction requests generalizing machine with
  | nil => rfl
  | cons request rest ih =>
      rw [List.foldl_cons, ih, registry_afterRequest, List.map_cons, List.foldl_cons]

/-- A request that is handled makes the callbacks of its kind and no others. -/
theorem registry_and_history_of_handle? {changed : Bool}
    (h : machine.handle? caller command = some (changed, after)) :
    changed = machine.registry.changes command ∧
      after.registry = machine.registry.apply command ∧
      after.history = History.handling caller command ++ machine.history := by
  obtain ⟨callers, -, -, hchanged, -, rfl⟩ := handle?_eq_some h
  exact ⟨hchanged, rfl, history_record ..⟩

/-- After any requests that are handled with an empty registry at first, the registry holds their
net effect, each pair once.  The next request to register breaks the relay down exactly if its
pair is there; otherwise it adds the pair, calls nobody, and reports whether the address is new.
The next request to unregister calls its listener once, whether the pair is there or not,
removes this pair and no other, and reports whether pairs had the address and none has it any
more.  No address is kept without listeners, and the addresses are those of the pairs, in
ascending order. -/
theorem registry_is_net_effect (machine : Machine) (requests : List (CallerId × Command)) :
    let relay := requests.foldl afterRequest { machine with registry := {} }
    let pairs := netEffect (requests.map (·.2))
    (relay.registry.pairs.Nodup ∧ relay.registry.pairs.toFinset = pairs) ∧
    (∀ caller address listener,
      relay.handle? caller (.register address listener) = none ↔ (address, listener) ∈ pairs) ∧
    (∀ caller address listener changed after,
      relay.handle? caller (.register address listener) = some (changed, after) →
        (changed = true ↔ ∀ other, (address, other) ∉ pairs) ∧
          after.registry.pairs.toFinset = insert (address, listener) pairs ∧
          after.history = .handled caller (.register address listener) :: relay.history) ∧
    (∀ caller address listener, ∃ changed after,
      relay.handle? caller (.unregister address listener) = some (changed, after) ∧
        (changed = true ↔ (∃ other, (address, other) ∈ pairs) ∧
          ∀ other, (address, other) ∉ pairs.erase (address, listener)) ∧
        after.registry.pairs.toFinset = pairs.erase (address, listener) ∧
        after.history = .disconnected address listener ::
          .handled caller (.unregister address listener) :: relay.history) ∧
    (∀ entry ∈ relay.registry.entries, entry.2 ≠ []) ∧
    relay.registry.addresses.Pairwise (· < ·) ∧
    ∀ address, address ∈ relay.registry.addresses ↔ ∃ listener, (address, listener) ∈ pairs := by
  intro relay pairs
  have hregistry : relay.registry = (requests.map (·.2)).foldl Registry.apply {} :=
    registry_foldl_afterRequest ..
  have hwell : relay.registry.WellFormed := hregistry ▸ Registry.wellFormed_empty.foldl_apply _
  have hpairs : relay.registry.pairs.toFinset = pairs := by
    rw [hregistry]
    exact Registry.wellFormed_empty.toFinset_pairs_foldl _
  have hmem : ∀ pair, pair ∈ relay.registry.pairs ↔ pair ∈ pairs := fun pair => by
    rw [← hpairs, List.mem_toFinset]
  refine ⟨⟨hwell.nodup_pairs, hpairs⟩, ?_, ?_, ?_, hwell.inhabited, hwell.addresses_ascending, ?_⟩
  · intro caller address listener
    rw [handle?_eq_none_iff, ← hmem, hwell.mem_pairs]
    rfl
  · intro caller address listener changed after hhandle
    obtain ⟨hchanged, hafter, hhistory⟩ := registry_and_history_of_handle? hhandle
    refine ⟨?_, ?_, hhistory⟩
    · rw [hchanged, hwell.changes_register, hpairs]
    · rw [hafter, hwell.toFinset_pairs_apply, hpairs]
      rfl
  · intro caller address listener
    obtain ⟨⟨changed, after⟩, hhandle⟩ : ∃ result,
        relay.handle? caller (.unregister address listener) = some result :=
      Option.ne_none_iff_exists'.mp fun hnone => handle?_eq_none hnone
    obtain ⟨hchanged, hafter, hhistory⟩ := registry_and_history_of_handle? hhandle
    refine ⟨changed, after, hhandle, ?_, ?_, hhistory⟩
    · rw [hchanged, hwell.changes_unregister, hpairs]
    · rw [hafter, hwell.toFinset_pairs_apply, hpairs]
      rfl
  · intro address
    rw [hwell.mem_addresses_iff_exists]
    exact exists_congr fun listener => hmem (address, listener)

/-- Two listeners register at an address and the first one leaves: the address is kept for the
second one, which cannot register there again.  The address goes when the second one leaves. -/
theorem sample_registry_is_net_effect :
    let requests : List (CallerId × Command) :=
      [(0, .register Sample.address 0), (1, .register Sample.address 1),
        (2, .unregister Sample.address 0)]
    let relay := requests.foldl afterRequest { Sample.start with registry := {} }
    relay.registry.addresses = [Sample.address] ∧
      relay.handle? 3 (.register Sample.address 1) = none ∧
      ∃ after, relay.handle? 3 (.unregister Sample.address 1) = some (true, after) ∧
        after.registry.pairs.toFinset = ∅ := by
  intro requests relay
  obtain ⟨-, hregister, -, hunregister, -⟩ :=
    registry_is_net_effect Sample.start requests
  have hleft : netEffect (requests.map (·.2)) = {(Sample.address, 1)} := by decide
  rw [hleft] at hregister hunregister
  refine ⟨rfl, (hregister 3 _ _).mpr (Finset.mem_singleton_self _), ?_⟩
  obtain ⟨changed, after, hhandle, hchanged, hafter, -⟩ := hunregister 3 Sample.address 1
  have hgone : changed = true := hchanged.mpr ⟨⟨1, Finset.mem_singleton_self _⟩, by simp⟩
  exact ⟨after, hgone ▸ hhandle, by simpa using hafter⟩

end Machine

end LogRelay
