import LogRelay.Proofs.Requests

/-!
# Late answers

Every request has a number of its own, and an answer is only taken in while the relay waits for
the answer to the request with that number.  Each step of the control task ends the wait: it takes
the answer, does without it, or leaves.  The number is never used again, because the count of the
requests never goes back (`ControlStep.requestCount_le`); so whatever the client answers later has
no effect at all (`Spent.reply`).
-/

namespace LogRelay

namespace Machine

variable {machine after : Machine} {number : Nat} {moves : List Move}

/-! ## The count of the requests -/

theorem BreaksDown.requestCount {quiet : History} (h : BreaksDown machine after quiet) :
    after.requestCount = machine.requestCount := by
  obtain ⟨subscriptions, callers, -, -, rfl⟩ := h.eq
  rfl

theorem Adopts.requestCount {fresh : Option Nat} {logs : List RawLog}
    (h : Adopts machine after fresh logs) : after.requestCount = machine.requestCount := by
  obtain ⟨quiet, subscriptions, -, -, rfl⟩ := h.eq
  rfl

theorem PassEnds.requestCount {fresh : Option Nat} {logs : List RawLog}
    (h : PassEnds machine fresh logs after) : after.requestCount = machine.requestCount := by
  cases h with
  | overcrowded _ hdown => exact hdown.requestCount
  | restless hadopts _ hdown => exact hdown.requestCount.trans hadopts.requestCount
  | completed hadopts => exact hadopts.requestCount

theorem requestCount_beginPass (machine : Machine) :
    machine.beginPass.requestCount = machine.requestCount := by
  rw [beginPass_eq]
  split
  next => exact (passEnds_completePass ..).requestCount
  next => rfl

theorem requestCount_dispatch (machine : Machine) (log : RawLog) :
    (machine.dispatch log).requestCount = machine.requestCount := by
  rcases machine.dispatch_cases log with ⟨-, heq⟩ | ⟨before, listener, rest, quiet, -, -, hdown⟩
  · rw [heq]
    rfl
  · exact hdown.requestCount

theorem ClientStep.requestCount_le (h : ClientStep machine after) :
    machine.requestCount ≤ after.requestCount := by
  cases h with
  | askedToSubscribe | askedForHeader | askedForLogs => exact Nat.le_succ _
  | _ => exact Nat.le_refl _

/-- The count of the requests never goes back. -/
theorem ControlStep.requestCount_le (h : ControlStep machine after) :
    machine.requestCount ≤ after.requestCount := by
  cases h with
  | talked _ htalk => exact htalk.requestCount_le
  | interrupted | handled | ticked | streamEnded => exact Nat.le_refl _
  | ready | resubscribed => exact Nat.le_of_eq (requestCount_beginPass _).symm
  | lost =>
      apply Nat.le_of_eq
      rw [requestCount_beginPass, notifyDisconnected_eq]
      rfl
  | @repeated caller command mailbox =>
      obtain ⟨quiet, hdown⟩ := machine.breaksDown_repeated caller command mailbox
      exact Nat.le_of_eq hdown.requestCount.symm
  | left =>
      obtain ⟨quiet, quiet', subscriptions, -, -, -, heq⟩ := machine.leave_eq machine.phase.fresh?
      apply Nat.le_of_eq
      rw [heq]
      rfl
  | fetched =>
      apply Nat.le_of_eq
      rw [(passEnds_completePass ..).requestCount]
      rfl
  | took =>
      apply Nat.le_of_eq
      rw [requestCount_dispatch]
      rfl
  | ended =>
      obtain ⟨callers, heq, -⟩ := machine.closeMailbox_eq
      apply Nat.le_of_eq
      rw [heq]

/-- A request that is waited for after a step was waited for before, or is new. -/
theorem ControlStep.number_eq {request : ClientRequest} {deadline : Nat}
    (h : ControlStep machine after)
    (hasking : after.phase.attempt? = some (.asking request number deadline)) :
    number = machine.requestCount ∧ after.requestCount = machine.requestCount + 1 := by
  cases h.clientStep_of_asking hasking with
  | askedToSubscribe | askedForHeader | askedForLogs =>
      cases hasking
      exact ⟨rfl, rfl⟩
  | _ => cases hasking

theorem OutsideStep.requestCount_eq (h : OutsideStep machine after) :
    after.requestCount = machine.requestCount := by
  cases h with
  | _ => rfl

theorem OutsideStep.attempt?_eq (h : OutsideStep machine after) :
    after.phase.attempt? = machine.phase.attempt? := by
  rcases h.aside.phase with hsame | ⟨hidle, hwaiting⟩
  · rw [hsame]
  · rw [hidle, hwaiting]
    rfl

/-- The number of the request that is waited for is among those that were used. -/
theorem Reachable.number_lt {request : ClientRequest} {deadline : Nat} (h : Reachable machine)
    (hasking : machine.phase.attempt? = some (.asking request number deadline)) :
    number < machine.requestCount := by
  induction h using Reachable.always with
  | initial => cases hasking
  | control _ _ hstep _ =>
      obtain ⟨hnumber, hcount⟩ := hstep.number_eq hasking
      omega
  | outside _ _ hstep ih =>
      rw [hstep.requestCount_eq]
      exact ih (hstep.attempt?_eq ▸ hasking)

/-! ## Requests that are over -/

/-- The request with this number was made, and nobody waits for its answer any more. -/
structure Spent (number : Nat) (machine : Machine) : Prop where
  used : number < machine.requestCount
  unawaited : ∀ request deadline,
    machine.phase.attempt? ≠ some (.asking request number deadline)

/-- An answer to such a request has no effect. -/
theorem Spent.reply (h : Spent number machine) (answer : ClientAnswer) :
    machine.reply number answer = machine := by
  have hnot : machine.awaits number = false := by
    unfold awaits
    split
    next request asked deadline hasking =>
      have hother : asked ≠ number := fun heq => h.unawaited request deadline (heq ▸ hasking)
      simp [hother]
    next => rfl
  unfold Machine.reply
  rw [hnot]
  exact if_neg Bool.false_ne_true

/-- Any step of the control task ends the wait for an answer. -/
theorem ControlStep.spent (h : ControlStep machine after) (hused : number < machine.requestCount) :
    Spent number after := by
  refine ⟨Nat.lt_of_lt_of_le hused h.requestCount_le, fun request deadline hasking => ?_⟩
  have hnew := (h.number_eq hasking).1
  omega

theorem Spent.of_run (h : Spent number machine) (hreach : machine.Reachable)
    (hrun : machine.run? moves = some after) : Spent number after := by
  refine hreach.along (fun move hfirst hperform hbefore => ?_) h hrun
  by_cases hmove : move = .step .control
  · subst hmove
    exact (controlStep_of_stepControl? hperform).spent hbefore.used
  · have hstep := outsideStep_of_perform? hmove hfirst.idle_of_created hperform
    refine ⟨hstep.requestCount_eq ▸ hbefore.used, fun request deadline hasking => ?_⟩
    exact hbefore.unawaited request deadline (hstep.attempt?_eq ▸ hasking)

/-- Once the control task has taken a step, an answer to the request that it has waited for has no
effect, however the run goes on. -/
theorem Reachable.reply_eq {request : ClientRequest} {deadline : Nat} {next : Machine}
    (h : machine.Reachable)
    (hasking : machine.phase.attempt? = some (.asking request number deadline))
    (hstep : machine.stepControl? = some next) (hrun : next.run? moves = some after)
    (answer : ClientAnswer) : after.reply number answer = after := by
  have hspent := (controlStep_of_stepControl? hstep).spent (h.number_lt hasking)
  have hnext : next.Reachable := h.move (.step .control) hstep
  exact (hspent.of_run hnext hrun).reply answer

end Machine

end LogRelay
