import LogRelay.Proofs.Queue
import LogRelay.Proofs.Routing
import LogRelay.Proofs.UsableSettings

/-!
# Requests are linear

However many calls to register and to unregister listeners are under way, the relay handles their
requests one after the other, in the order in which they have arrived in the mailbox
(`requests_are_linear`).  So at every moment the registry is the net effect of some first requests.

A call that returns tells what has become of its request.  Only if the control task has broken down,
a call to unregister a listener returns although nobody has handled its request
(`Sample.brittle_forgets_request`).
-/

namespace LogRelay

namespace Registry

variable {registry : Registry}

/-- A listener that was unregistered is registered no more. -/
theorem WellFormed.not_mem_listenersAt_apply (h : registry.WellFormed) (address : Address)
    (listener : ListenerId) :
    listener ∉ (registry.apply (.unregister address listener)).listenersAt address := by
  change listener ∉ (registry.remove address listener).2.listenersAt address
  rw [h.listenersAt_remove, if_pos rfl]
  exact (h.nodup_listenersAt address).not_mem_erase

end Registry

namespace History

variable {history : History}

/-- A listener was told that it is disconnected when the request to unregister it was handled, and
right after that it was registered for the address no more. -/
def Parted (history : History) (id : CallerId) (address : Address) (listener : ListenerId) : Prop :=
  ∃ newer older, history = newer ++ .disconnected address listener ::
      .handled id (.unregister address listener) :: older ∧
    listener ∉ (History.registry (.disconnected address listener ::
      .handled id (.unregister address listener) :: older)).listenersAt address

theorem HandledAt.parted {id : CallerId} {address : Address} {listener : ListenerId}
    {connected : Bool} (h : history.HandledAt id (.unregister address listener) connected) :
    history.Parted id address listener := by
  obtain ⟨newer, older, heq, -⟩ := h
  refine ⟨newer, older, ?_, ?_⟩
  · rw [heq, List.append_assoc]
    rfl
  · exact (Registry.wellFormed_history older).not_mem_listenersAt_apply address listener

end History

namespace Machine

variable {machine : Machine} {parameters : RelayParameters}
  {breaksOn : ListenerId → RawLog → Bool} {arrived : List (CallerId × Command)}

/-- A call that has registered its listener while the relay was connected was handled then. -/
theorem Queued.handledAt_of_registered (h : Queued machine arrived) {id : CallerId}
    {address : Address} {listener : ListenerId}
    (hcaller : machine.callers[id]? =
      some ⟨.command (.register address listener), .done (.registered true)⟩) :
    machine.history.HandledAt id (.register address listener) true := by
  have hstands := h.stands id _ hcaller
  generalize hresult : CallResult.registered true = result at hstands
  cases hstands with
  | waits hprogress => rcases hprogress with h | h <;> cases h
  | accepted hhandled =>
      cases hresult
      exact hhandled
  | refused => cases hresult

/-- A call that unregisters a listener returns after this was done, unless there is nobody who would
do it. -/
theorem Queued.parted_of_returned (h : Queued machine arrived) {id : CallerId} {address : Address}
    {listener : ListenerId} {result : CallResult}
    (hcaller : machine.callers[id]? =
      some ⟨.command (.unregister address listener), .done result⟩) :
    machine.IsDeaf ∨ machine.history.Parted id address listener := by
  cases h.stands id _ hcaller with
  | waits hprogress => rcases hprogress with h | h <;> cases h
  | accepted hhandled => exact .inr hhandled.parted
  | refused hdeaf => exact .inl hdeaf

/-- In every run in which no pair is registered twice, with settings that a relay can be run with,
the requests are handled in the order in which they have arrived, each at most once and each made
by its call; those that were not handled are still in the mailbox, unless it is closed.  The
registry is the net effect of those that were handled.

A call to register that returns `true` was handled at a moment when the relay was connected.  A
call to unregister that returns before the shutdown signal is raised was handled, its listener
was told that it is disconnected, and it was registered no more right after that, unless the
control task has broken down over a listener. -/
theorem requests_are_linear {moves : List Move}
    (hrun : (Machine.initial parameters breaksOn).run? moves = some machine)
    (hnew : ¬machine.history.Repeated) (hdebounce : parameters.debounce ≠ 0)
    (hroom : parameters.logRoom ≤ RelayParameters.greatestRoom) :
    (∃ lost, (Machine.initial parameters breaksOn).arrivals moves =
        machine.history.handled ++ machine.mailbox.requests ++ lost ∧
      (machine.mailbox.isOpen = true → lost = [])) ∧
    (((Machine.initial parameters breaksOn).arrivals moves).map (·.1)).Nodup ∧
    (∀ request ∈ (Machine.initial parameters breaksOn).arrivals moves,
      ∃ progress, machine.callers[request.1]? = some ⟨.command request.2, progress⟩) ∧
    machine.registry = (machine.history.handled.map (·.2)).foldl Registry.apply {} ∧
    (∀ id address listener,
      machine.callers[id]? =
          some ⟨.command (.register address listener), .done (.registered true)⟩ →
        machine.history.HandledAt id (.register address listener) true) ∧
    ∀ id address listener result,
      machine.callers[id]? =
          some ⟨.command (.unregister address listener), .done result⟩ →
        machine.raised = false →
          machine.history.Parted id address listener ∨
            machine.phase = .crashed ∧ machine.IsLetDown := by
  have hqueued := queued_of_run hrun
  have hfit : ¬parameters.IsUnfit := by
    rintro (hzero | hover)
    · exact hdebounce hzero
    · exact Nat.not_lt.mpr hroom hover
  refine ⟨hqueued.order, hqueued.nodup, hqueued.made, ?_, ?_, ?_⟩
  · rw [((Reachable.initial parameters breaksOn).run hrun).registry_eq, History.registry_eq_foldl]
  · exact fun id address listener hcaller => hqueued.handledAt_of_registered hcaller
  · intro id address listener result hcaller hquiet
    rcases hqueued.parted_of_returned hcaller with (hraised | hcrashed) | hparted
    · rw [hraised] at hquiet
      contradiction
    · exact .inr ⟨hcrashed, isLetDown_of_crashed hfit hrun hnew hcrashed⟩
    · exact .inl hparted

end Machine

/-! ## Two runs -/

namespace Sample

/-- After a log was delivered, its listener is unregistered. -/
def movesToUnregister : List Move :=
  movesToDeliver ++ [.step (.caller 0), .call (.command (.unregister address 0)),
    .step (.caller 1), .step .control, .step (.caller 1)]

/-- The relay when the listener is unregistered. -/
def unregistered : Machine := (start.run? movesToUnregister).getD default

/-- Both requests were handled, in the order in which they have arrived. -/
theorem unregistered_requests_are_linear :
    start.arrivals movesToUnregister = unregistered.history.handled ∧
      unregistered.history.HandledAt 0 (.register address 0) true ∧
      unregistered.history.Parted 1 address 0 := by
  have hrun : start.run? movesToUnregister = some unregistered := by rfl
  have hnew : ¬unregistered.history.Repeated := by decide
  obtain ⟨⟨lost, harrived, hlost⟩, -, -, -, hregistered, hreturned⟩ :=
    Machine.requests_are_linear hrun hnew (by decide) (by decide)
  have hmailbox : unregistered.mailbox.requests = [] ∧ unregistered.mailbox.isOpen = true := by
    decide
  refine ⟨?_, hregistered 0 address 0 rfl, ?_⟩
  · rw [start, harrived, hmailbox.1, hlost hmailbox.2, List.append_nil, List.append_nil]
  · refine (hreturned 1 address 0 .unregistered rfl (by decide)).resolve_right ?_
    rintro ⟨hcrashed, -⟩
    have hprocesses : unregistered.phase.isOver = false := by decide
    rw [hcrashed] at hprocesses
    cases hprocesses

/-- A log is taken on which a listener breaks down, and then the other listener is to be
unregistered. -/
def forgetful : Machine :=
  (brittle.run? [.call (.command (.unregister address 1)), .step (.caller 2)]).getD default

/-- The call has returned although the shutdown signal was not raised, but the request was not
handled, the listener was not told, and the pair is still registered. -/
theorem brittle_forgets_request :
    forgetful.Reachable ∧ forgetful.Returned 2 .unregistered ∧ forgetful.raised = false ∧
      (2, .unregister address 1) ∉ forgetful.history.handled ∧
      forgetful.history.lastNotice? 1 = some true ∧
      1 ∈ forgetful.registry.listenersAt address ∧ ¬forgetful.history.Repeated ∧
      forgetful.parameters.debounce ≠ 0 ∧
      forgetful.parameters.logRoom ≤ RelayParameters.greatestRoom := by
  have hreach : forgetful.Reachable := reachable_brittle.getD_run? (by decide)
  exact ⟨hreach, ⟨_, rfl, rfl⟩, by decide, by decide, by decide, by decide, by decide, by decide,
    by decide⟩

end Sample

end LogRelay
