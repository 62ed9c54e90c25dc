import LogRelay.Proofs.BreakDown
import LogRelay.Proofs.Holding
import LogRelay.Proofs.Routing

/-!
# Subscriptions are torn down once and replaced without a gap

A subscription is torn down for one of three reasons.  The shutdown signal is raised; the
control task breaks down; or a pass is complete, and then the earlier logs and the new
subscription are part of the log stream before the old one is torn down (`Replaces`).
None is torn down twice, and none is left when the control task is over.
-/

namespace LogRelay

namespace Machine

variable {machine after : Machine}

/-! ## Replacing -/

/-- With this step a subscription is replaced.  First the pass has gathered its logs, and was given
a new subscription or has no addresses (`before`).  Then both are appended to the log
stream, the old subscription is torn down, and the listeners are told that they are
connected. -/
structure Replaces (machine after before : Machine) (number : Nat) (fresh : Option Nat)
    (logs : List RawLog) : Prop where
  current : before.current = some number
  outstanding : number ∈ before.history.outstanding
  pipeline : before.pipeline = machine.pipeline
  created : ∀ new, fresh = some new → new ≠ number ∧ new ∈ before.history.outstanding ∧
    ∃ query older, before.history =
      .gathered logs fresh :: .answered (.filter query) (.logs logs) :: older
  idle : fresh = none → before.registry.addresses = [] ∧ logs = [] ∧
    ∃ older, before.history = .gathered [] none :: .began [] :: older
  joined : ∃ nextTick, after =
    { { (before.join fresh logs).discard (some number) with current := fresh }.notifyConnected with
      phase := .processing nextTick false true }
  history : after.history =
    History.round true before.registry ++ .unsubscribed number :: before.history

/-- A pass that ends with processing replaces what it tears down. -/
theorem Held.replaces_of_completePass {start : Machine} (h : Held machine) {fresh : Option Nat}
    {logs : List RawLog} (hcompletes : Completes machine fresh logs)
    (hpipeline : machine.pipeline = start.pipeline)
    (hrunning : (machine.completePass fresh logs).phase ≠ .crashed) {number : Nat}
    (hdown : number ∈ (machine.completePass fresh logs).history.tornDown)
    (hbefore : number ∉ machine.history.tornDown) :
    ∃ before, Replaces start (machine.completePass fresh logs) before number fresh logs := by
  obtain ⟨hholding, hdistinct, hfresh, hcurrent, hcreated, hidle⟩ := hcompletes
  rcases h.tallied.completePass hfresh hcurrent logs with
    ⟨hreleases, nextTick, heq⟩ | ⟨-, hcrashed⟩
  · have hnumber : number ∈ machine.current.toList :=
      ((hreleases.tornDown number).mp hdown).resolve_left hbefore
    have hinUse : (machine.record [.gathered logs fresh]).current = some number :=
      Option.mem_toList.mp hnumber
    have hgathered : Releases machine (machine.record [.gathered logs fresh]) [] :=
      h.tallied.of_effect rfl trivial rfl
    have hheld : Held (machine.record [.gathered logs fresh]) :=
      h.of_releases_nothing hgathered rfl h.unused
    have houtstanding : ∀ other ∈ machine.holding,
        other ∈ (machine.record [.gathered logs fresh]).history.outstanding :=
      fun other hother => (hheld.holding other).mpr hother
    rw [hholding] at houtstanding
    refine ⟨machine.record [.gathered logs fresh], hinUse,
      houtstanding number (List.mem_append_right _ hnumber), hpipeline, fun new hnew => ?_,
      fun hnone => ?_, ⟨nextTick, ?_⟩, ?_⟩
    · have hmem : new ∈ fresh.toList := Option.mem_toList.mpr hnew
      obtain ⟨query, older, hhistory⟩ := hcreated new hnew
      exact ⟨fun hsame => hdistinct new hmem (hsame ▸ hnumber),
        houtstanding new (List.mem_append_left _ hmem), query, older,
        congrArg (List.cons _) hhistory⟩
    · obtain ⟨haddresses, rfl, older, hhistory⟩ := hidle hnone
      subst hnone
      exact ⟨haddresses, rfl, older, congrArg (List.cons _) hhistory⟩
    · rw [heq, adopt_eq, hinUse]
    · have hjoined : Releases (machine.record [.gathered logs fresh])
          ((machine.record [.gathered logs fresh]).join fresh logs) [] :=
        hheld.tallied.of_same rfl rfl
      have hhistory := hjoined.tallied.history_discard (hcurrent number hnumber) hbefore
      have hregistry : (((machine.record [.gathered logs fresh]).join fresh logs).discard
          (some number)).registry = machine.registry := by
        obtain ⟨quiet, subscriptions, hletsGo⟩ :=
          ((machine.record [.gathered logs fresh]).join fresh logs).letsGo_discard (some number)
        rw [hletsGo.eq]
        rfl
      rw [heq, adopt_eq, hinUse, notifyConnected_eq]
      refine (history_record ..).trans ?_
      rw [hregistry]
      exact congrArg _ hhistory
  · exact absurd hcrashed hrunning

theorem Settles.replaces (hsettles : Settles machine after) (h : Held machine)
    (hsignal : machine.signalled = false) (hrunning : after.phase ≠ .crashed) {number : Nat}
    (hdown : number ∈ after.history.tornDown) (hbefore : number ∉ machine.history.tornDown) :
    ∃ before fresh logs, Replaces machine after before number fresh logs := by
  cases hsettles with
  | kept hreleases =>
      have hnone := ((hreleases.tornDown number).mp hdown).resolve_left hbefore
      exact absurd hnone List.not_mem_nil
  | leased _ hhistory =>
      rw [hhistory] at hdown
      exact absurd hdown hbefore
  | dropped _ _ _ hreason =>
      rcases hreason with hraised | hcrashed
      · rw [hsignal] at hraised
        cases hraised
      · exact absurd hcrashed hrunning
  | @completed middle fresh logs hreleases hholding hunused hpipeline hcompletes hafter =>
      have hmiddle : number ∉ middle.history.tornDown := by
        intro hmem
        have hnone := ((hreleases.tornDown number).mp hmem).resolve_left hbefore
        exact absurd hnone List.not_mem_nil
      have hheld := h.of_releases_nothing hreleases hholding hunused
      subst hafter
      obtain ⟨before, hreplaces⟩ :=
        hheld.replaces_of_completePass hcompletes hpipeline hrunning hdown hmiddle
      exact ⟨before, fresh, logs, hreplaces⟩

theorem Reachable.replaces (h : Reachable machine) {move : Move}
    (hperform : machine.perform? move = some after) (hsignal : machine.signalled = false)
    (hrunning : after.phase ≠ .crashed) {number : Nat}
    (hdown : number ∈ after.history.tornDown) (hbefore : number ∉ machine.history.tornDown) :
    ∃ before fresh logs, Replaces machine after before number fresh logs := by
  by_cases hmove : move = .step .control
  · subst hmove
    have hstep := controlStep_of_stepControl? hperform
    have hsettles := h.held.settles h.granted h.lent h.covered h.fetches hstep
    exact hsettles.replaces h.held hsignal hrunning hdown hbefore
  · -- No other move tears anything down.
    have haside := (outsideStep_of_perform? hmove h.idle_of_created hperform).aside
    rcases haside.history with heq | ⟨sender, log, heq⟩
    all_goals
      rw [heq] at hdown
      exact absurd hdown hbefore

/-- No subscription is torn down twice, or without having been obtained, and when the control task
is over, each that was obtained has been torn down.  At no moment there are more than two
that are not.  Unless the shutdown signal is raised or the control task breaks down over some
fault, a subscription is torn down only when it is replaced. -/
theorem Reachable.subscriptions_are_released (h : Reachable machine) :
    (∀ number, machine.history.tornDown.count number ≤ 1) ∧
    (∀ number ∈ machine.history.tornDown, number ∈ machine.history.leased) ∧
    (machine.phase.isOver = true → ∀ number ∈ machine.history.leased,
      machine.history.tornDown.count number = 1) ∧
    (∀ older : History, older <:+ machine.history → older.outstanding.length ≤ 2) ∧
    (∀ move after, machine.perform? move = some after → machine.signalled = false →
      after.phase ≠ .crashed → ∀ number ∈ after.history.tornDown,
        number ∉ machine.history.tornDown →
          ∃ before fresh logs, Replaces machine after before number fresh logs) ∧
    (machine.phase = .crashed → machine.HasFault) := by
  have hheld := h.held
  have hnodup := hheld.tallied.nodup
  refine ⟨List.nodup_iff_count_le_one.mp hnodup, hheld.tornDown, fun hover number hleased => ?_,
    hheld.few, fun move after hperform hsignal hrunning number hdown hbefore =>
      h.replaces hperform hsignal hrunning hdown hbefore, h.explained.fault⟩
  -- Nothing is held any more, so that what was obtained and is not torn down does not exist.
  have hnone : machine.holding = [] := by
    refine holding_eq_nil ?_
    cases hphase : machine.phase
    case ended | crashed => rfl
    all_goals
      rw [hphase] at hover
      cases hover
  refine List.count_eq_one_of_mem hnodup ?_
  by_contra hnot
  have hmem := (hheld.holding number).mp (History.mem_outstanding.mpr ⟨hleased, hnot⟩)
  rw [hnone] at hmem
  exact absurd hmem List.not_mem_nil

end Machine

/-! ## A run to the end -/

namespace Sample

/-- The address of another contract. -/
def otherAddress : Address := ⟨List.replicate 19 0 ++ [1], rfl⟩

/-- After a log was delivered, the listener is registered for another address too, and the next pass
fetches. -/
def movesToReplace : List Move :=
  movesToDeliver ++ [.call (.command (.register otherAddress 0)), .step (.caller 1),
    .step .control, .wait 100, .step .control, .step .control, .openSubscription room, .grant 3 1,
    .step .control, .step .control, .reply 4 (.header (some { number := 6 })), .step .control,
    .reply 5 (.logs [])]

/-- The pass is completed, and then the relay is stopped. -/
def movesToEnd : List Move :=
  movesToReplace ++ [.step .control, .call .stop, .step (.caller 2), .step .control,
    .step (.stage 2), .step (.stage 3), .step (.stage 4), .step (.stage 5), .step .control]

/-- The relay before the subscription is replaced. -/
def replacing : Machine := (start.run? movesToReplace).getD default

/-- The relay after the subscription was replaced. -/
def replaced : Machine := (replacing.perform? (.step .control)).getD default

/-- The relay after it was stopped. -/
def ended : Machine := (start.run? movesToEnd).getD default

theorem reachable_replacing : replacing.Reachable :=
  Machine.Reachable.getD_run? (.initial parameters fun _ _ => false) (by decide)

theorem reachable_ended : ended.Reachable :=
  Machine.Reachable.getD_run? (.initial parameters fun _ _ => false) (by decide)

end Sample

namespace Machine

/-- The first subscription is replaced by the second, and in the end both have been torn down. -/
theorem sample_subscriptions_are_released :
    (∃ before fresh logs, Replaces Sample.replacing Sample.replaced before 0 fresh logs) ∧
      Sample.ended.history.leased = [1, 0] ∧ Sample.ended.history.tornDown.count 0 = 1 ∧
        Sample.ended.history.tornDown.count 1 = 1 := by
  have hreplacing := Reachable.subscriptions_are_released Sample.reachable_replacing
  have hended := Reachable.subscriptions_are_released Sample.reachable_ended
  have hperform : Sample.replacing.perform? (.step .control) = some Sample.replaced := by rfl
  have hsignal : Sample.replacing.signalled = false := by decide
  have hphase : Sample.replaced.phase = .processing 150 false true := by rfl
  have hleased : Sample.ended.history.leased = [1, 0] := by decide
  have hover : Sample.ended.phase.isOver = true := by decide
  refine ⟨?_, hleased, hended.2.2.1 hover 0 (by decide), hended.2.2.1 hover 1 (by decide)⟩
  exact hreplacing.2.2.2.2.1 _ _ hperform hsignal (by simp [hphase]) 0 (by decide) (by decide)

end Machine

namespace Sample

/-- When a listener breaks down, the only subscription is torn down although nothing has replaced
it, the shutdown signal was not raised, and its address is still registered. -/
theorem brittle_tears_down :
    brittle.Reachable ∧ brittle.signalled = false ∧ ¬brittle.history.Repeated ∧
      brittle.parameters.debounce ≠ 0 ∧
      brittle.parameters.logRoom ≤ RelayParameters.greatestRoom ∧
      brittle.registry.addresses = [address] ∧ brittle.history.leased = [0] ∧
      brittle.history.tornDown = [0] := by
  refine ⟨reachable_brittle, ?_, ?_, ?_, ?_, ?_, ?_, ?_⟩
  all_goals decide

end Sample

end LogRelay
