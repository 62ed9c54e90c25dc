import LogRelay.Proofs.Run

/-!
# The life of a relay and its calls

A relay is started once and stopped once: the first start takes it out of its first state,
to which nothing leads back, and the one call that finds it running raises the shutdown
signal.  That call returns when the control task is no more.  All other attempts to start
or to stop it fail and change nothing.

The moves are sorted by what they mean for the calls (`Conduct`).
-/

namespace LogRelay

/-- Whether the move is that the relay is started. -/
def Move.isStart : Move → Bool
  | .start => true
  | _ => false

/-- Whether the call has stopped the relay: it waits for the end of the control task, or has
returned after it. -/
def Caller.hasStopped (caller : Caller) : Bool :=
  match caller.progress with
  | .joining | .done (.stopped (.ok _)) => true
  | _ => false

theorem Caller.hasStopped_asPosted (caller : Caller) :
    caller.asPosted.hasStopped = caller.hasStopped := by
  cases hprogress : caller.progress <;> simp [asPosted, hasStopped, hprogress]

theorem Caller.progress_of_asPosted {caller other : Caller}
    (h : other.asPosted = caller.asPosted) {result : CallResult}
    (hdone : other.progress = .done result) : caller.progress = .done result := by
  have hother : other.asPosted = other := by simp [asPosted, hdone]
  rw [hother] at h
  rw [h] at hdone
  cases hprogress : caller.progress <;> simp_all [asPosted]

namespace Machine

variable {machine after : Machine} {move : Move} {moves : List Move}

/-- The call has returned with this result. -/
def Returned (machine : Machine) (id : CallerId) (result : CallResult) : Prop :=
  ∃ caller, machine.callers[id]? = some caller ∧ caller.progress = .done result

/-- The call has stopped the relay. -/
def StoppedBy (machine : Machine) (id : CallerId) : Prop :=
  ∃ caller, machine.callers[id]? = some caller ∧ caller.hasStopped = true

theorem Returned.stoppedBy {id : CallerId} (h : machine.Returned id (.stopped (.ok ()))) :
    machine.StoppedBy id := by
  obtain ⟨caller, hcaller, hprogress⟩ := h
  exact ⟨caller, hcaller, by simp [Caller.hasStopped, hprogress]⟩

theorem getElem?_progress (machine : Machine) (id : CallerId)
    (progress : CallProgress CallResult) (other : CallerId) :
    (machine.progress id progress).callers[other]? =
      if id = other then machine.callers[other]?.map ({ · with progress })
      else machine.callers[other]? := by
  rw [Machine.progress, changeCaller, List.getElem?_modify]
  split
  next => rfl
  next => exact Option.map_id'

/-! ## What a move means for the calls -/

/-- What a move means for the life of the relay and for its calls. -/
inductive Conduct (machine : Machine) (move : Move) (after : Machine) : Prop
  /-- It does not concern them, except that calls may be answered. -/
  | aside (hlifecycle : after.lifecycle = machine.lifecycle)
      (hraised : after.raised = machine.raised)
      (hcallers : after.callers.map Caller.asPosted = machine.callers.map Caller.asPosted)
      (hover : machine.phase.isOver = true → after.phase = machine.phase)
  /-- The relay is started. -/
  | started (hmove : move.isStart = true) (hcreated : machine.lifecycle = .created)
      (hafter : after = { machine with lifecycle := .running, phase := .waiting })
  /-- A call is made. -/
  | called {request : CallRequest} (hafter : after = machine.call request)
  /-- A call takes a step. -/
  | moved {id : CallerId} {caller : Caller} (hcaller : machine.callers[id]? = some caller)
      (hstep : CallerStep machine id caller after)

/-- A control task that is no more takes no step. -/
theorem stepControl?_eq_none (h : machine.phase.isOver = true) :
    machine.stepControl? = none := by
  cases hphase : machine.phase
  case ended | crashed => simp [stepControl?, hphase]
  all_goals
    rw [hphase] at h
    cases h

theorem conduct_of_perform? (h : machine.perform? move = some after) :
    Conduct machine move after := by
  cases moveStep_of_perform? h with
  | controlled hstep =>
      have hframe := (controlStep_of_stepControl? hstep).frame
      refine .aside hframe.lifecycle hframe.raised hframe.callers fun hover => ?_
      rw [stepControl?_eq_none hover] at hstep
      cases hstep
  | advanced hcaller hstep => exact .moved hcaller hstep
  | started hcreated => exact .started rfl hcreated rfl
  | called => exact .called rfl
  | _ => exact .aside rfl rfl rfl fun _ => rfl

/-! ## Starting once -/

/-- Only a relay that is new can be started, and then it is no longer new. -/
theorem lifecycle_of_start (hmove : move.isStart = true) (h : machine.perform? move = some after) :
    machine.lifecycle = .created ∧ after.lifecycle = .running := by
  cases move
  case start =>
    obtain ⟨hcreated, rfl⟩ := eq_of_start h
    exact ⟨hcreated, rfl⟩
  all_goals cases hmove

theorem Conduct.lifecycle (h : Conduct machine move after) :
    (move.isStart = true ∧ after.lifecycle = .running) ∨
      after.lifecycle = machine.lifecycle ∨
      machine.lifecycle = .running ∧ after.lifecycle = .stopped := by
  cases h with
  | aside hlifecycle => exact .inr (.inl hlifecycle)
  | started hmove _ hafter =>
      subst hafter
      exact .inl ⟨hmove, rfl⟩
  | called hafter =>
      subst hafter
      exact .inr (.inl rfl)
  | moved _ hstep =>
      cases hstep with
      | stopBegun _ _ hrunning => exact .inr (.inr ⟨hrunning, rfl⟩)
      | advanced | accepted | refused | stopRefused | stopDone => exact .inr (.inl rfl)

/-- A relay that is not new is not started in a run. -/
theorem starts_eq_nil (h : machine.lifecycle ≠ .created)
    (hrun : machine.run? moves = some after) : moves.filter Move.isStart = [] := by
  induction moves generalizing machine with
  | nil => rfl
  | cons move moves ih =>
      obtain ⟨middle, hperform, hrest⟩ := Option.bind_eq_some_iff.mp hrun
      have hnot : move.isStart = false :=
        Bool.eq_false_iff.mpr fun hmove => h (lifecycle_of_start hmove hperform).1
      rw [List.filter_cons_of_neg (by simp [hnot])]
      refine ih ?_ hrest
      rcases (conduct_of_perform? hperform).lifecycle with ⟨-, hafter⟩ | hafter | ⟨-, hafter⟩
      · simp [hafter]
      · rwa [hafter]
      · simp [hafter]

/-- A relay is started at most once in a run. -/
theorem length_starts_le (hrun : machine.run? moves = some after) :
    (moves.filter Move.isStart).length ≤ 1 := by
  induction moves generalizing machine with
  | nil => exact Nat.zero_le 1
  | cons move moves ih =>
      obtain ⟨middle, hperform, hrest⟩ := Option.bind_eq_some_iff.mp hrun
      cases hmove : move.isStart with
      | false =>
          rw [List.filter_cons_of_neg (by simp [hmove])]
          exact ih hrest
      | true =>
          have hmiddle : middle.lifecycle ≠ .created := by
            simp [(lifecycle_of_start hmove hperform).2]
          rw [List.filter_cons_of_pos hmove, starts_eq_nil hmiddle hrest]
          exact Nat.le_refl 1

/-- A relay that is no longer new was started. -/
theorem exists_start (hcreated : machine.lifecycle = .created)
    (hrun : machine.run? moves = some after) (hafter : after.lifecycle ≠ .created) :
    ∃ move ∈ moves, move.isStart = true := by
  induction moves generalizing machine with
  | nil =>
      cases hrun
      exact absurd hcreated hafter
  | cons move moves ih =>
      obtain ⟨middle, hperform, hrest⟩ := Option.bind_eq_some_iff.mp hrun
      rcases (conduct_of_perform? hperform).lifecycle with
        ⟨hmove, -⟩ | hsame | ⟨hrunning, -⟩
      · exact ⟨move, List.mem_cons_self .., hmove⟩
      · obtain ⟨first, hmem, hstart⟩ := ih (hsame.trans hcreated) hrest
        exact ⟨first, List.mem_cons_of_mem _ hmem, hstart⟩
      · cases hcreated.symm.trans hrunning

/-! ## Stopping once -/

/-- The shutdown signal is raised by the one call that stops the relay; and that call returns only
when the control task is no more. -/
structure StopsOnce (machine : Machine) : Prop where
  raised : machine.raised = true ↔ machine.lifecycle = .stopped
  stopped : ∀ id, machine.StoppedBy id → machine.lifecycle = .stopped
  once : ∀ first second, machine.StoppedBy first → machine.StoppedBy second → first = second
  isOver : ∀ id, machine.Returned id (.stopped (.ok ())) → machine.phase.isOver = true

/-- A move by which no call comes to have stopped the relay. -/
theorem StopsOnce.of_stoppedBy (h : StopsOnce machine)
    (hlifecycle : after.lifecycle = machine.lifecycle) (hraised : after.raised = machine.raised)
    (hstopped : ∀ id, after.StoppedBy id → machine.StoppedBy id)
    (hover : ∀ id, after.Returned id (.stopped (.ok ())) → after.phase.isOver = true) :
    StopsOnce after := by
  refine ⟨?_, fun id hid => ?_, fun first second hfirst hsecond => ?_, hover⟩
  · rw [hraised, hlifecycle]
    exact h.raised
  · rw [hlifecycle]
    exact h.stopped id (hstopped id hid)
  · exact h.once first second (hstopped first hfirst) (hstopped second hsecond)

/-- Answering calls neither stops the relay nor makes such a call return. -/
theorem StopsOnce.of_aside (h : StopsOnce machine)
    (hlifecycle : after.lifecycle = machine.lifecycle) (hraised : after.raised = machine.raised)
    (hcallers : after.callers.map Caller.asPosted = machine.callers.map Caller.asPosted)
    (hover : machine.phase.isOver = true → after.phase = machine.phase) : StopsOnce after := by
  have hbefore : ∀ {id : CallerId} {later : Caller}, after.callers[id]? = some later →
      ∃ caller, machine.callers[id]? = some caller ∧ later.asPosted = caller.asPosted := by
    intro id later hlater
    have hview := congrArg (·[id]?) hcallers
    simp only [List.getElem?_map, hlater, Option.map_some] at hview
    obtain ⟨caller, hcaller, hsame⟩ := Option.map_eq_some_iff.mp hview.symm
    exact ⟨caller, hcaller, hsame.symm⟩
  have hstopped : ∀ id, after.StoppedBy id → machine.StoppedBy id := by
    rintro id ⟨later, hlater, hstops⟩
    obtain ⟨caller, hcaller, hsame⟩ := hbefore hlater
    refine ⟨caller, hcaller, ?_⟩
    rwa [← caller.hasStopped_asPosted, ← hsame, later.hasStopped_asPosted]
  refine h.of_stoppedBy hlifecycle hraised hstopped ?_
  rintro id ⟨later, hlater, hprogress⟩
  obtain ⟨caller, hcaller, hsame⟩ := hbefore hlater
  have hdone := h.isOver id ⟨caller, hcaller, Caller.progress_of_asPosted hsame hprogress⟩
  rw [hover hdone]
  exact hdone

/-- A call that moves on without having to do with stopping. -/
theorem StopsOnce.of_progress (h : StopsOnce machine) {id : CallerId}
    {progress : CallProgress CallResult}
    (hprogress : ∀ request, ({ request, progress } : Caller).hasStopped = false)
    (hlifecycle : after.lifecycle = machine.lifecycle) (hraised : after.raised = machine.raised)
    (hphase : after.phase = machine.phase)
    (hcallers : after.callers = (machine.progress id progress).callers) : StopsOnce after := by
  have hother : ∀ {other : CallerId} {later : Caller}, after.callers[other]? = some later →
      later.hasStopped = true → machine.callers[other]? = some later := by
    intro other later hlater hstops
    rw [hcallers, getElem?_progress] at hlater
    split at hlater
    next =>
      obtain ⟨caller, -, rfl⟩ := Option.map_eq_some_iff.mp hlater
      rw [hprogress caller.request] at hstops
      cases hstops
    next => exact hlater
  have hstopped : ∀ other, after.StoppedBy other → machine.StoppedBy other :=
    fun other ⟨later, hlater, hstops⟩ => ⟨later, hother hlater hstops, hstops⟩
  refine h.of_stoppedBy hlifecycle hraised hstopped ?_
  rintro other ⟨later, hlater, hdone⟩
  rw [hphase]
  exact h.isOver other ⟨later, hother hlater (by simp [Caller.hasStopped, hdone]), hdone⟩

theorem StopsOnce.of_callerStep (h : StopsOnce machine) {id : CallerId} {caller : Caller}
    (hcaller : machine.callers[id]? = some caller) (hstep : CallerStep machine id caller after) :
    StopsOnce after := by
  cases hstep with
  | advanced _ _ _ hprogress =>
      refine h.of_progress (fun request => ?_) rfl rfl rfl rfl
      rcases hprogress with ⟨rfl, -⟩ | ⟨rfl, -⟩
      all_goals rfl
  | @accepted command | @refused command =>
      refine h.of_progress (fun request => ?_) rfl rfl rfl rfl
      cases command
      all_goals rfl
  | stopRefused => exact h.of_progress (fun _ => rfl) rfl rfl rfl rfl
  | stopBegun hrequest hfresh hrunning =>
      -- The relay was running, so that no call had stopped it.
      have hnone : ∀ other, ¬machine.StoppedBy other := by
        intro other hother
        cases hrunning.symm.trans (h.stopped other hother)
      have honly : ∀ other, StoppedBy ({ machine with
          lifecycle := .stopped, raised := true }.progress id .joining) other → id = other := by
        rintro other ⟨later, hlater, hstops⟩
        rw [getElem?_progress] at hlater
        split at hlater
        next heq => exact heq
        next => exact absurd ⟨later, hlater, hstops⟩ (hnone other)
      refine ⟨⟨fun _ => rfl, fun _ => rfl⟩, fun _ _ => rfl, fun first second hfirst hsecond =>
        (honly first hfirst).symm.trans (honly second hsecond), ?_⟩
      rintro other ⟨later, hlater, hdone⟩
      rw [getElem?_progress] at hlater
      split at hlater
      next =>
        obtain ⟨found, -, rfl⟩ := Option.map_eq_some_iff.mp hlater
        cases hdone
      next =>
        exact absurd (Returned.stoppedBy ⟨later, hlater, hdone⟩) (hnone other)
  | stopDone hrequest hjoining hover =>
      have hid : machine.StoppedBy id := ⟨caller, hcaller, by simp [Caller.hasStopped, hjoining]⟩
      have hstopped : ∀ other,
          StoppedBy (machine.progress id (.done (.stopped (.ok ())))) other →
            machine.StoppedBy other := by
        rintro other ⟨later, hlater, hstops⟩
        rw [getElem?_progress] at hlater
        split at hlater
        next heq =>
          subst heq
          exact hid
        next => exact ⟨later, hlater, hstops⟩
      exact h.of_stoppedBy rfl rfl hstopped fun _ _ => hover

theorem StopsOnce.of_conduct (h : StopsOnce machine) (hconduct : Conduct machine move after) :
    StopsOnce after := by
  cases hconduct with
  | aside hlifecycle hraised hcallers hover => exact h.of_aside hlifecycle hraised hcallers hover
  | started _ hcreated hafter =>
      subst hafter
      have hnone : ∀ id, ¬machine.StoppedBy id := by
        intro id hid
        cases hcreated.symm.trans (h.stopped id hid)
      refine ⟨⟨fun hraised => ?_, nofun⟩, fun id hid => absurd hid (hnone id),
        fun first _ hfirst => absurd hfirst (hnone first),
        fun id hid => absurd hid.stoppedBy (hnone id)⟩
      cases hcreated.symm.trans (h.raised.mp hraised)
  | @called request hafter =>
      subst hafter
      have hother : ∀ {id : CallerId} {later : Caller},
          (machine.call request).callers[id]? = some later → later.hasStopped = true →
            machine.callers[id]? = some later := by
        intro id later hlater hstops
        rw [call, List.getElem?_append] at hlater
        split at hlater
        next => exact hlater
        next =>
          have hmem := List.mem_of_getElem? hlater
          rw [List.mem_singleton.mp hmem] at hstops
          cases hstops
      have hstopped : ∀ id, StoppedBy (machine.call request) id → machine.StoppedBy id :=
        fun id ⟨later, hlater, hstops⟩ => ⟨later, hother hlater hstops, hstops⟩
      refine h.of_stoppedBy rfl rfl hstopped ?_
      rintro id ⟨later, hlater, hdone⟩
      exact h.isOver id ⟨later, hother hlater (by simp [Caller.hasStopped, hdone]), hdone⟩
  | moved hcaller hstep => exact h.of_callerStep hcaller hstep

theorem Reachable.stopsOnce (h : Reachable machine) : StopsOnce machine := by
  induction h with
  | initial parameters breaksOn =>
      have hnone : ∀ id, ¬(Machine.initial parameters breaksOn).StoppedBy id := by
        rintro id ⟨caller, hcaller, -⟩
        cases hcaller
      refine ⟨⟨nofun, nofun⟩, fun id hid => absurd hid (hnone id),
        fun first _ hfirst => absurd hfirst (hnone first),
        fun id hid => absurd hid.stoppedBy (hnone id)⟩
  | move move hreach hperform ih => exact ih.of_conduct (conduct_of_perform? hperform)

end Machine

end LogRelay
