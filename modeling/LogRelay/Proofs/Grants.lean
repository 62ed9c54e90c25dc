import LogRelay.Proofs.Run

/-!
# Every pass has a subscription of its own

The client gives no subscription away twice, and so the numbers with which the passes
are completed are all different.  The subscription that a pass has obtained but not yet
taken into use is not among them, and an answer that waits to be taken never brings a
subscription that was obtained before (`Granted`).
-/

namespace LogRelay

/-- The numbers of the subscriptions that were taken into use. -/
def History.used (history : History) : List Nat := history.passes.filterMap (·.2)

theorem History.used_of_passes {history later : History} (h : later.passes = history.passes) :
    later.used = history.used := by
  rw [History.used, h, History.used]

theorem History.SamePasses.used {history later : History} (h : history.SamePasses later) :
    later.used = history.used :=
  History.used_of_passes h.passes

theorem History.used_gathered (logs : List RawLog) (fresh : Option Nat) (older : History) :
    History.used (.gathered logs fresh :: older) = older.used ++ fresh.toList := by
  cases fresh
  all_goals simp [used]

theorem Phase.fresh?_of_attempt? {phase : Phase} (h : phase.attempt? = none) :
    phase.fresh? = none := by
  cases phase
  case backfilling => cases h
  all_goals rfl

theorem Phase.attempt?_afterHandling {phase : Phase} (h : phase.handlesRequests = true)
    (changed : Bool) : (phase.afterHandling changed).attempt? = none := by
  cases phase
  case waiting => rfl
  case processing => rfl
  all_goals cases h

namespace Machine

variable {machine after : Machine}

/-! ## What the operations say of passes -/

theorem BreaksDown.samePasses {quiet : History} (h : BreaksDown machine after quiet) :
    machine.history.SamePasses after.history := by
  rw [h.history]
  exact h.isQuiet.isOffPass.samePasses machine.history

theorem Adopts.samePasses {fresh : Option Nat} {logs : List RawLog}
    (h : Adopts machine after fresh logs) : machine.history.SamePasses after.history := by
  obtain ⟨quiet, hquiet, heq⟩ := h.history
  have hround := History.isOffPass_round true machine.registry
  rw [heq]
  exact (hround.append hquiet.isOffPass).samePasses machine.history

/-- A pass that ends has said once what it has gathered. -/
theorem PassEnds.samePasses {fresh : Option Nat} {logs : List RawLog}
    (h : PassEnds machine fresh logs after) :
    History.SamePasses (.gathered logs fresh :: machine.history) after.history := by
  cases h with
  | overcrowded hroom hdown => exact hdown.samePasses
  | restless hadopts hdebounce hdown => exact hadopts.samePasses.trans hdown.samePasses
  | completed hadopts => exact hadopts.samePasses

theorem PassEnds.current {fresh : Option Nat} {logs : List RawLog}
    (h : PassEnds machine fresh logs after) :
    after.current = machine.current ∨ after.current = fresh := by
  cases h with
  | overcrowded hroom hdown => exact .inl hdown.current
  | restless hadopts hdebounce hdown => exact .inr (hdown.current.trans hadopts.current)
  | completed hadopts => exact .inr hadopts.current

theorem PassEnds.attempt? {fresh : Option Nat} {logs : List RawLog}
    (h : PassEnds machine fresh logs after) : after.phase.attempt? = none := by
  cases h with
  | overcrowded hroom hdown | restless hadopts hdebounce hdown =>
      rw [hdown.phase]
      rfl
  | completed hadopts => rfl

theorem samePasses_leave (machine : Machine) (fresh : Option Nat) :
    machine.history.SamePasses (machine.leave fresh).history := by
  obtain ⟨quiet, quiet', subscriptions, hquiet, hquiet', -, heq⟩ := machine.leave_eq fresh
  rw [heq, history_record]
  refine History.IsOffPass.samePasses ((History.IsOffPass.append ?_ ?_).append ?_) _
  · exact hquiet'.isOffPass
  · split
    next => exact History.isOffPass_round false machine.registry
    next => exact History.isQuiet_nil.isOffPass
  · exact hquiet.isOffPass

theorem samePasses_dispatch (machine : Machine) (log : RawLog) :
    machine.history.SamePasses (machine.dispatch log).history := by
  have hout : ∀ listeners, machine.history.SamePasses
      (machine.record (History.handOut log listeners)).history := by
    intro listeners
    rw [history_record]
    exact (History.isOffPass_handOut log listeners).samePasses machine.history
  rcases machine.dispatch_cases log with ⟨-, heq⟩ | ⟨before, listener, rest, quiet, -, -, hdown⟩
  · rw [heq]
    exact hout _
  · exact (hout before).trans hdown.samePasses

/-! ## Subscriptions are given away once -/

/-- No subscription is given away or taken into use twice. -/
structure Granted (machine : Machine) : Prop where
  pending : ∀ request number deadline subscription,
    machine.phase.attempt? = some (.asking request number deadline) →
      machine.answer = some (.subscribed subscription) →
        subscription ∉ machine.history.obtained
  fresh : ∀ number, machine.phase.fresh? = some number →
    number ∈ machine.history.obtained ∧ number ∉ machine.history.used
  used : ∀ number ∈ machine.history.used, number ∈ machine.history.obtained
  nodup : machine.history.used.Nodup
  current : ∀ number, machine.current = some number → number ∈ machine.history.used

/-- A step that says nothing of passes and after which nothing is asked. -/
theorem Granted.of_samePasses (h : Granted machine)
    (hsame : machine.history.SamePasses after.history) (hcurrent : after.current = machine.current)
    (hfresh : after.phase.fresh? = none)
    (hasking : ∀ request number deadline,
      after.phase.attempt? ≠ some (.asking request number deadline)) : Granted after where
  pending request number deadline _ hattempt := absurd hattempt (hasking request number deadline)
  fresh number hnumber := by
    rw [hfresh] at hnumber
    cases hnumber
  used number hnumber := by
    rw [hsame.used] at hnumber
    rw [hsame.obtained]
    exact h.used number hnumber
  nodup := hsame.used ▸ h.nodup
  current number hnumber := by
    rw [hsame.used]
    exact h.current number (hcurrent ▸ hnumber)

theorem Granted.of_passEnds (h : Granted machine) {fresh : Option Nat} {logs : List RawLog}
    (hfresh : ∀ number, fresh = some number →
      number ∈ machine.history.obtained ∧ number ∉ machine.history.used)
    (hends : PassEnds machine fresh logs after) : Granted after := by
  have hsame := hends.samePasses
  have hused : after.history.used = machine.history.used ++ fresh.toList := by
    rw [hsame.used, History.used_gathered]
  refine ⟨fun _ _ _ _ hattempt => ?_, fun number hnumber => ?_, fun number hnumber => ?_, ?_,
    fun number hnumber => ?_⟩
  · rw [hends.attempt?] at hattempt
    cases hattempt
  · rw [Phase.fresh?_of_attempt? hends.attempt?] at hnumber
    cases hnumber
  · rw [hsame.obtained]
    rw [hused] at hnumber
    rcases List.mem_append.mp hnumber with hold | hnew
    · exact h.used number hold
    · exact (hfresh number (Option.mem_toList.mp hnew)).1
  · rw [hused]
    refine h.nodup.append (by cases fresh <;> simp) fun number hold hnew => ?_
    exact (hfresh number (Option.mem_toList.mp hnew)).2 hold
  · rw [hused]
    rcases hends.current with hsame | hnew
    · exact List.mem_append_left _ (h.current number (hsame ▸ hnumber))
    · exact List.mem_append_right _ (Option.mem_toList.mpr (hnew ▸ hnumber))

theorem Granted.of_beginPass (h : Granted machine) : Granted machine.beginPass := by
  rw [beginPass_eq]
  split
  next =>
    refine Granted.of_passEnds ?_ (fun number hnumber => ?_) (passEnds_completePass ..)
    · exact ⟨h.pending, h.fresh, h.used, h.nodup, h.current⟩
    · cases hnumber
  next =>
    refine ⟨fun _ _ _ _ hattempt => ?_, fun number hnumber => ?_, h.used, h.nodup, h.current⟩
    · cases hattempt
    · cases hnumber

theorem Granted.of_clientStep (h : Granted machine) (hstep : ClientStep machine after) :
    Granted after := by
  have hobtained : ∀ request answer number,
      number ∈ machine.history.obtained →
        number ∈ History.obtained (.answered request answer :: machine.history) := by
    intro request answer number hnumber
    cases answer
    case subscribed subscription => exact List.mem_cons_of_mem _ hnumber
    all_goals exact hnumber
  cases hstep with
  | askedToSubscribe hphase =>
      refine ⟨fun _ _ _ _ _ hanswer => ?_, fun number hnumber => ?_, h.used, h.nodup, h.current⟩
      · cases hanswer
      · cases hnumber
  | restedToSubscribe hphase =>
      refine ⟨fun _ _ _ _ hattempt => ?_, fun number hnumber => ?_, h.used, h.nodup, h.current⟩
      · cases hattempt
      · cases hnumber
  | refusedToSubscribe hphase =>
      refine ⟨fun _ _ _ _ hattempt => ?_, fun number hnumber => ?_, fun number hnumber => ?_,
        h.nodup, h.current⟩
      · cases hattempt
      · cases hnumber
      · exact hobtained _ _ number (h.used number hnumber)
  | gaveUpToSubscribe hphase =>
      refine ⟨fun _ _ _ _ hattempt => ?_, fun number hnumber => ?_, h.used, h.nodup, h.current⟩
      · cases hattempt
      · cases hnumber
  | @subscribed addresses failures number deadline obtained request hphase hanswer =>
      -- The answer was pending, so that it brings a subscription which was not obtained before.
      have hnew : obtained ∉ machine.history.obtained :=
        h.pending request number deadline obtained (by rw [hphase]; rfl) hanswer
      refine ⟨fun _ _ _ _ hattempt => ?_, fun number hnumber => ?_, fun number hnumber => ?_,
        h.nodup, h.current⟩
      · cases hattempt
      · obtain rfl : obtained = number := Option.some.inj hnumber
        exact ⟨List.mem_cons_self .., fun hused => hnew (h.used obtained hused)⟩
      · exact hobtained _ _ number (h.used number hnumber)
  | askedForHeader hphase =>
      refine ⟨fun _ _ _ _ _ hanswer => ?_, fun number hnumber => ?_, h.used, h.nodup, h.current⟩
      · cases hanswer
      · exact h.fresh number (by rw [hphase]; exact hnumber)
  | restedToFetch hphase =>
      refine ⟨fun _ _ _ _ hattempt => ?_, fun number hnumber => ?_, h.used, h.nodup, h.current⟩
      · cases hattempt
      · exact h.fresh number (by rw [hphase]; exact hnumber)
  | refusedToFetch hphase =>
      refine ⟨fun _ _ _ _ hattempt => ?_, fun number hnumber => ?_, fun number hnumber => ?_,
        h.nodup, h.current⟩
      · cases hattempt
      · obtain ⟨hmem, hnew⟩ := h.fresh number (by rw [hphase]; exact hnumber)
        exact ⟨hobtained _ _ number hmem, hnew⟩
      · exact hobtained _ _ number (h.used number hnumber)
  | gaveUpToFetch hphase =>
      refine ⟨fun _ _ _ _ hattempt => ?_, fun number hnumber => ?_, h.used, h.nodup, h.current⟩
      · cases hattempt
      · exact h.fresh number (by rw [hphase]; exact hnumber)
  | askedForLogs hphase =>
      refine ⟨fun _ _ _ _ _ hanswer => ?_, fun number hnumber => ?_, h.used, h.nodup, h.current⟩
      · cases hanswer
      · exact h.fresh number (by rw [hphase]; exact hnumber)

/-- Neither handing a log out nor breaking down begins a pass. -/
theorem attempt?_dispatch (machine : Machine) (log : RawLog)
    (hphase : machine.phase.attempt? = none) :
    (machine.dispatch log).phase.attempt? = none ∧
      (machine.dispatch log).current = machine.current := by
  rcases machine.dispatch_cases log with ⟨-, heq⟩ | ⟨before, listener, rest, quiet, -, -, hdown⟩
  · rw [heq]
    exact ⟨hphase, rfl⟩
  · rw [hdown.phase, hdown.current]
    exact ⟨rfl, rfl⟩

theorem Granted.of_controlStep (h : Granted machine) (hstep : ControlStep machine after) :
    Granted after := by
  -- What most steps have in common: they leave the passes alone and ask for nothing.
  have hquiet : ∀ {later : Machine}, machine.history.SamePasses later.history →
      later.current = machine.current → later.phase.attempt? = none → Granted later := by
    intro later hsame hcurrent hattempt
    have hfresh := Phase.fresh?_of_attempt? hattempt
    refine h.of_samePasses hsame hcurrent hfresh fun _ _ _ hasking => ?_
    rw [hattempt] at hasking
    cases hasking
  cases hstep with
  | interrupted => exact hquiet (.refl _) rfl rfl
  | ready | resubscribed => exact h.of_beginPass
  | handled hphase =>
      refine hquiet ?_ rfl ?_
      · rw [history_record]
        exact History.IsOffPass.samePasses (History.isOffPass_handling _ _) machine.history
      · exact Phase.attempt?_afterHandling hphase _
  | @repeated caller command mailbox =>
      obtain ⟨quiet, hdown⟩ := machine.breaksDown_repeated caller command mailbox
      have hhandled : machine.history.SamePasses (.handled caller command :: machine.history) :=
        ⟨rfl, fun _ => rfl, rfl, rfl, fun _ => rfl⟩
      refine hquiet (hhandled.trans hdown.samePasses) hdown.current ?_
      rw [hdown.phase]
      rfl
  | left =>
      have hsame := machine.samePasses_leave machine.phase.fresh?
      obtain ⟨quiet, quiet', subscriptions, -, -, -, heq⟩ := machine.leave_eq machine.phase.fresh?
      refine hquiet hsame ?_ ?_
      · rw [heq]
        rfl
      · rw [heq]
        rfl
  | talked _ htalk => exact h.of_clientStep htalk
  | @fetched fresh addresses failures number deadline query logs hphase =>
      refine Granted.of_passEnds ?_ (fun number hnumber => ?_) (passEnds_completePass ..)
      · refine ⟨fun _ _ _ _ _ hanswer => ?_, h.fresh, h.used, h.nodup, h.current⟩
        exact h.pending _ _ _ _ ‹_› hanswer
      · exact h.fresh number (by rw [hphase]; exact hnumber)
  | @lost _ _ _ _ error _ _ hphase =>
      have hlost : machine.history.SamePasses (.lost error :: machine.history) :=
        ⟨rfl, fun _ => rfl, rfl, rfl, fun _ => rfl⟩
      refine Granted.of_beginPass (hquiet ?_ ?_ ?_)
      · rw [notifyDisconnected_eq, history_record]
        exact hlost.trans ((History.isOffPass_round false machine.registry).samePasses _)
      · rw [notifyDisconnected_eq]
        rfl
      · rw [notifyDisconnected_eq]
        exact congrArg Phase.attempt? hphase
  | ticked => exact hquiet (.refl _) rfl rfl
  | @took _ _ log pipeline hphase =>
      have htook : machine.history.SamePasses (.took log :: machine.history) :=
        ⟨rfl, fun _ => rfl, rfl, rfl, fun _ => rfl⟩
      have hattempt := attempt?_dispatch ({ machine with pipeline }.record [.took log]) log
        (congrArg Phase.attempt? hphase)
      have hsame := samePasses_dispatch ({ machine with pipeline }.record [.took log]) log
      exact hquiet (htook.trans hsame) hattempt.2 hattempt.1
  | streamEnded => exact hquiet (.refl _) rfl rfl
  | ended =>
      obtain ⟨callers, heq, -⟩ := machine.closeMailbox_eq
      rw [heq]
      exact hquiet (.refl _) rfl rfl

theorem Granted.of_outsideStep (h : Granted machine) (hstep : OutsideStep machine after) :
    Granted after := by
  cases hstep with
  | granted hawaits hnew =>
      refine ⟨fun _ _ _ _ _ hanswer => ?_, h.fresh, h.used, h.nodup, h.current⟩
      cases hanswer
      exact hnew
  | replied hanswer =>
      refine ⟨fun _ _ _ _ _ hsubscribed => ?_, h.fresh, h.used, h.nodup, h.current⟩
      cases hsubscribed
      cases hanswer
  | started =>
      refine ⟨fun _ _ _ _ hattempt => ?_, fun _ hfresh => ?_, h.used, h.nodup, h.current⟩
      · cases hattempt
      · cases hfresh
  | _ => exact ⟨h.pending, h.fresh, h.used, h.nodup, h.current⟩

theorem Reachable.granted (h : Reachable machine) : Granted machine := by
  induction h using Reachable.always with
  | initial =>
      refine ⟨fun _ _ _ _ hattempt => ?_, fun _ hfresh => ?_, fun _ hused => ?_, List.nodup_nil,
        fun _ hcurrent => ?_⟩
      · cases hattempt
      · cases hfresh
      · cases hused
      · cases hcurrent
  | control _ _ hstep ih => exact ih.of_controlStep hstep
  | outside _ _ hstep ih => exact ih.of_outsideStep hstep

end Machine

end LogRelay
