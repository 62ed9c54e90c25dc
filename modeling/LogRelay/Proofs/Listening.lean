import LogRelay.Proofs.Conservation
import LogRelay.Proofs.Holding

/-!
# The relay listens to what it holds

Until the shutdown signal is raised or the control task breaks down, all subscriptions are
attended.  A log that the client sends on a subscription which the relay has obtained
and not given back may find no room, but it never finds that nobody is listening.
-/

namespace LogRelay.Machine

variable {machine after : Machine}

theorem ControlStep.attended (h : ControlStep machine after)
    (hattended : machine.subscriptions.Attended) (hsignal : machine.signalled = false)
    (hrunning : after.phase ≠ .crashed) : after.subscriptions.Attended := by
  cases h with
  | interrupted | handled | ticked | streamEnded => exact hattended
  | ready | resubscribed => exact attended_beginPass hattended hrunning
  | @repeated caller command mailbox =>
      obtain ⟨quiet, hdown⟩ := machine.breaksDown_repeated caller command mailbox
      exact absurd hdown.phase hrunning
  | left _ hraised => cases hsignal.symm.trans hraised
  | talked _ htalk =>
      obtain ⟨phase, requestCount, answer, talk, -, -, -, rfl⟩ := htalk.eq
      exact hattended
  | @fetched _ _ _ _ _ query logs =>
      have hanswered : (machine.record
          [.answered (.filter query) (.logs logs)]).subscriptions.Attended := hattended
      exact attended_completePass hanswered _ _ hrunning
  | @lost _ number _ _ error subscription later _ _ _ hsubscription hfailure =>
      have hlater : later.IsAttended :=
        (hattended subscription (List.mem_of_getElem? hsubscription)).of_failure? hfailure
      have htold : ({ machine with
          subscriptions := machine.subscriptions.set number later }.record
            [.lost error]).notifyDisconnected.subscriptions.Attended := by
        rw [notifyDisconnected_eq]
        exact hattended.set hlater number
      exact attended_beginPass htold hrunning
  | @took _ _ log pipeline =>
      have htook : ({ machine with pipeline }.record [.took log]).subscriptions.Attended :=
        hattended
      exact attended_dispatch htook log hrunning
  | ended =>
      obtain ⟨callers, heq, -⟩ := machine.closeMailbox_eq
      rw [heq]
      exact hattended

theorem OutsideStep.attended (h : OutsideStep machine after)
    (hattended : machine.subscriptions.Attended) (hsignal : machine.signalled = false) :
    after.subscriptions.Attended := by
  cases h with
  | staged hstep =>
      rw [hsignal] at hstep
      exact Pipeline.attended_of_step? hattended hstep
  | @accepted number log subscription hnumber =>
      obtain ⟨hclosed, haccepts⟩ := hattended subscription (List.mem_of_getElem? hnumber)
      have hlater : { subscription with logs := subscription.logs ++ [log] }.IsAttended :=
        ⟨hclosed, haccepts⟩
      exact hattended.set hlater number
  | shut _ _ hkept => exact hkept hattended
  | opened room => exact hattended.concat room
  | granted | replied | started | arranged => exact hattended

theorem Reachable.attended (h : Reachable machine) (hsignal : machine.signalled = false)
    (hrunning : machine.phase ≠ .crashed) : machine.subscriptions.Attended := by
  induction h using Reachable.always with
  | initial => exact fun _ hmem => absurd hmem List.not_mem_nil
  | control hreach _ hstep ih =>
      have hbefore := hstep.frame.signalled ▸ hsignal
      exact hstep.attended (ih hbefore hstep.phase_ne_crashed) hbefore hrunning
  | outside hreach _ hstep ih =>
      have hbefore := hstep.signalled hsignal
      refine hstep.attended (ih hbefore fun hcrashed => ?_) hbefore
      -- Nothing from outside brings a relay back that has broken down.
      rcases hstep.aside.phase with hsame | ⟨hidle, -⟩
      · exact hrunning (hsame.trans hcrashed)
      · cases hidle.symm.trans hcrashed

/-- What the relay holds, it listens to. -/
theorem Reachable.push_ne_closed (h : Reachable machine) (hsignal : machine.signalled = false)
    {number : Nat} (hleased : number ∈ machine.history.leased)
    (hup : number ∉ machine.history.tornDown) (log : RawLog) :
    (machine.push number log).1 ≠ .closed := by
  have hheld := h.held
  -- After a breakdown nothing is held.
  have hrunning : machine.phase ≠ .crashed := by
    intro hcrashed
    have hmem := (hheld.holding number).mp (History.mem_outstanding.mpr ⟨hleased, hup⟩)
    rw [holding_eq_nil (by rw [hcrashed]; rfl)] at hmem
    cases hmem
  unfold push
  cases hnumber : machine.subscriptions[number]? with
  | none => simp
  | some subscription =>
      have hattended := h.attended hsignal hrunning subscription (List.mem_of_getElem? hnumber)
      have hopen : subscription.unsubscribed = false := by
        refine Bool.eq_false_iff.mpr fun hdown => hup ((hheld.tallied.marks number).mp ?_)
        rw [Subscriptions.marks, List.getElem?_map, hnumber, Option.map_some, hdown]
      have hpush := hattended.push_ne_closed hopen log
      rcases heq : subscription.push log with ⟨result, later⟩
      rw [heq] at hpush
      cases result with
      | taken => simp [heq]
      | full | missing => simp [heq]
      | closed => exact absurd rfl hpush

end LogRelay.Machine
