import LogRelay.Proofs.Operations

/-!
# What a step of a call can be

`CallerStep` lists the steps of a call, each with what it takes, and
`callerStep_of_stepCaller?` says that a call takes no others.  Once the shutdown signal is
raised, all that is left to a request is to be refused.
-/

namespace LogRelay.Machine

variable {machine after : Machine} {id : CallerId} {caller : Caller}

/-- A step of a call. -/
inductive CallerStep (machine : Machine) (id : CallerId) (caller : Caller) : Machine → Prop
  /-- A request joins the line, or is put into the mailbox. -/
  | advanced {command : Command} {mailbox : Mailbox} {progress : CallProgress CallResult}
      (hrequest : caller.request = .command command) (hsignal : machine.signalled = false)
      (hwaits : caller.progress = .fresh ∨ caller.progress = .inLine)
      (hprogress : progress = .inLine ∧ mailbox = machine.mailbox.enqueue id ∨
        progress = .posted ∧ mailbox = machine.mailbox.put id command)
      (hopen : machine.mailbox.isOpen = true) :
      CallerStep machine id caller ({ machine with mailbox }.progress id progress)
  /-- A request was handled, and the call returns. -/
  | accepted {command : Command} {answer : Option Bool}
      (hrequest : caller.request = .command command) (hsignal : machine.signalled = false)
      (hprogress : caller.progress = .answered answer) :
      CallerStep machine id caller
        (machine.progress id (.done (acceptance (answer.getD false) command)))
  /-- A request is refused, and the call returns. -/
  | refused {command : Command} (hrequest : caller.request = .command command)
      (hdone : ∀ result, caller.progress ≠ .done result)
      (hcause : machine.signalled = true ∨ machine.mailbox.isOpen = false ∧
        (caller.progress = .fresh ∨ caller.progress = .inLine)) :
      CallerStep machine id caller
        ({ machine with mailbox := machine.mailbox.leave id }.progress id
          (.done (refusal command)))
  /-- The relay cannot be stopped, and the call returns. -/
  | stopRefused {error : LifecycleError} (hrequest : caller.request = .stop)
      (hprogress : caller.progress = .fresh) (herror : machine.lifecycle.stop? = .error error) :
      CallerStep machine id caller (machine.progress id (.done (.stopped (.error error))))
  /-- The shutdown signal is raised. -/
  | stopBegun (hrequest : caller.request = .stop) (hprogress : caller.progress = .fresh)
      (hrunning : machine.lifecycle = .running) :
      CallerStep machine id caller
        ({ machine with lifecycle := .stopped, raised := true }.progress id .joining)
  /-- The control task is no more, and the call that has stopped it returns. -/
  | stopDone (hrequest : caller.request = .stop) (hprogress : caller.progress = .joining)
      (hover : machine.phase.isOver = true) :
      CallerStep machine id caller (machine.progress id (.done (.stopped (.ok ()))))

theorem callerStep_of_stepCommand? {command : Command}
    (hrequest : caller.request = .command command)
    (h : machine.stepCommand? id command caller.progress = some after) :
    CallerStep machine id caller after := by
  -- Whether the request is refused at once depends on the signal and on the mailbox.
  have hopen : ¬(machine.signalled || !machine.mailbox.isOpen) = true →
      machine.signalled = false ∧ machine.mailbox.isOpen = true := by
    simp
  have hcause : (machine.signalled || !machine.mailbox.isOpen) = true →
      machine.signalled = true ∨ machine.mailbox.isOpen = false := by
    simp
  cases hprogress : caller.progress with
  | fresh =>
      have hdone : ∀ result, caller.progress ≠ .done result := by simp [hprogress]
      simp only [stepCommand?, hprogress] at h
      split at h
      next hrefused =>
        cases h
        exact .refused hrequest hdone ((hcause hrefused).imp_right fun hclosed =>
          ⟨hclosed, .inl hprogress⟩)
      next hgoes =>
        obtain ⟨hsignal, hisOpen⟩ := hopen hgoes
        split at h
        next =>
          cases h
          exact .advanced hrequest hsignal (.inl hprogress) (.inr ⟨rfl, rfl⟩) hisOpen
        next =>
          cases h
          exact .advanced hrequest hsignal (.inl hprogress) (.inl ⟨rfl, rfl⟩) hisOpen
  | inLine =>
      have hdone : ∀ result, caller.progress ≠ .done result := by simp [hprogress]
      simp only [stepCommand?, hprogress] at h
      split at h
      next hrefused =>
        cases h
        exact .refused hrequest hdone ((hcause hrefused).imp_right fun hclosed =>
          ⟨hclosed, .inr hprogress⟩)
      next hgoes =>
        obtain ⟨hsignal, hisOpen⟩ := hopen hgoes
        split at h
        next =>
          cases h
          exact .advanced hrequest hsignal (.inr hprogress) (.inr ⟨rfl, rfl⟩) hisOpen
        next => cases h
  | posted =>
      have hdone : ∀ result, caller.progress ≠ .done result := by simp [hprogress]
      simp only [stepCommand?, hprogress] at h
      split at h
      next hsignal =>
        cases h
        exact .refused hrequest hdone (.inl hsignal)
      next => cases h
  | answered answer =>
      have hdone : ∀ result, caller.progress ≠ .done result := by simp [hprogress]
      simp only [stepCommand?, hprogress] at h
      split at h
      next hsignal =>
        cases h
        exact .refused hrequest hdone (.inl hsignal)
      next hsignal =>
        cases h
        exact .accepted hrequest (Bool.eq_false_iff.mpr hsignal) hprogress
  | joining => simp [stepCommand?, hprogress] at h
  | done result => simp [stepCommand?, hprogress] at h

theorem callerStep_of_stepStop? (hrequest : caller.request = .stop)
    (h : machine.stepStop? id caller.progress = some after) :
    CallerStep machine id caller after := by
  cases hprogress : caller.progress with
  | fresh =>
      simp only [stepStop?, hprogress] at h
      cases hlifecycle : machine.lifecycle with
      | created | stopped =>
          simp only [hlifecycle, Lifecycle.stop?] at h
          cases h
          exact .stopRefused hrequest hprogress (by rw [hlifecycle]; rfl)
      | running =>
          simp only [hlifecycle, Lifecycle.stop?] at h
          cases h
          exact .stopBegun hrequest hprogress hlifecycle
  | joining =>
      simp only [stepStop?, hprogress] at h
      split at h
      next hover =>
        cases h
        exact .stopDone hrequest hprogress hover
      next => cases h
  | inLine | posted | answered answer | done result => simp [stepStop?, hprogress] at h

/-- A call takes no other steps than those of the list. -/
theorem callerStep_of_stepCaller? (h : machine.stepCaller? id = some after) :
    ∃ caller, machine.callers[id]? = some caller ∧ CallerStep machine id caller after := by
  obtain ⟨caller, hcaller, h⟩ := Option.bind_eq_some_iff.mp h
  refine ⟨caller, hcaller, ?_⟩
  cases hrequest : caller.request with
  | command command =>
      rw [hrequest] at h
      exact callerStep_of_stepCommand? hrequest h
  | stop =>
      rw [hrequest] at h
      exact callerStep_of_stepStop? hrequest h

/-- A call that takes a step has not returned. -/
theorem CallerStep.isDone_eq_false (h : CallerStep machine id caller after) :
    caller.isDone = false := by
  cases h with
  | advanced _ _ hwaits =>
      rcases hwaits with hprogress | hprogress
      all_goals simp [Caller.isDone, hprogress]
  | accepted _ _ hprogress | stopRefused _ hprogress | stopBegun _ hprogress
  | stopDone _ hprogress => simp [Caller.isDone, hprogress]
  | refused _ hdone =>
      unfold Caller.isDone
      split
      next result hprogress => exact absurd hprogress (hdone result)
      next => rfl

/-- All that a call changes is the mailbox, the calls, and, if it stops the relay, its life. -/
theorem CallerStep.eq (h : CallerStep machine id caller after) :
    ∃ mailbox raised lifecycle callers, (machine.raised = true → raised = true) ∧
      (lifecycle = .created → machine.lifecycle = .created) ∧
      after = { machine with mailbox, raised, lifecycle, callers } := by
  cases h with
  | stopBegun => exact ⟨machine.mailbox, true, .stopped, _, fun _ => rfl, nofun, rfl⟩
  | advanced | refused =>
      exact ⟨_, machine.raised, machine.lifecycle, _, fun hraised => hraised,
        fun hcreated => hcreated, rfl⟩
  | accepted | stopRefused | stopDone =>
      exact ⟨machine.mailbox, machine.raised, machine.lifecycle, _, fun hraised => hraised,
        fun hcreated => hcreated, rfl⟩

end LogRelay.Machine
