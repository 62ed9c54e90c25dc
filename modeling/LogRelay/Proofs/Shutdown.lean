import LogRelay.Proofs.BreakDown
import LogRelay.Proofs.Calls

/-!
# After the shutdown signal

Once the shutdown signal is raised, the control task takes at most two more steps: it leaves
what it was doing, and it ends when all stages have stopped.  All that it does on its
way is to give subscriptions back and, if the relay says that it is connected, to tell every
listener once that it is no longer (`Farewell`).

When the control task is no more, nothing changes any more but what is being called and what
the client sends (`Rests`), and every call returns in one step.
-/

namespace LogRelay

/-! ## Effects on the way out -/

namespace Effect

/-- Whether a listener is called. -/
def isCallback : Effect → Bool
  | .connected .. | .disconnected .. | .delivered .. => true
  | _ => false

/-- Whether the effect can follow the shutdown signal: the client sends a log, a subscription is
given back, or the relay says that it is not connected. -/
def IsFarewell : Effect → Prop
  | .accepted .. | .unsubscribed _ | .switched false | .disconnected .. => True
  | _ => False

theorem IsTearDown.isFarewell {effect : Effect} (h : effect.IsTearDown) : effect.IsFarewell := by
  cases effect
  case unsubscribed number => exact trivial
  all_goals exact h.elim

end Effect

namespace History

/-- The calls to listeners. -/
def callbacks (history : History) : History := history.filter Effect.isCallback

/-- One call for each pair of the registry, which says that the relay is disconnected. -/
def goodbyes (registry : Registry) : History :=
  (registry.pairs.map fun (address, listener) => Effect.disconnected address listener).reverse

theorem callbacks_append (newer older : History) :
    (newer ++ older).callbacks = newer.callbacks ++ older.callbacks :=
  List.filter_append ..

theorem IsQuiet.callbacks {quiet : History} (h : quiet.IsQuiet) : quiet.callbacks = [] := by
  refine List.filter_eq_nil_iff.mpr fun effect hmem => ?_
  have hdown := h effect hmem
  cases effect
  case unsubscribed number => exact Bool.false_ne_true
  all_goals exact hdown.elim

theorem round_false (registry : Registry) :
    round false registry = goodbyes registry ++ [.switched false] := rfl

theorem isFarewell_goodbyes (registry : Registry) :
    ∀ effect ∈ goodbyes registry, effect.IsFarewell ∧ effect.isCallback = true := by
  intro effect hmem
  obtain ⟨pair, -, rfl⟩ := List.mem_map.mp (List.mem_reverse.mp hmem)
  exact ⟨trivial, rfl⟩

theorem callbacks_round_false (registry : Registry) :
    (round false registry).callbacks = goodbyes registry := by
  have hall : (goodbyes registry).callbacks = goodbyes registry :=
    List.filter_eq_self.mpr fun effect hmem => (isFarewell_goodbyes registry effect hmem).2
  rw [round_false, callbacks_append, hall]
  exact List.append_nil _

theorem isFarewell_round_false (registry : Registry) :
    ∀ effect ∈ round false registry, effect.IsFarewell := by
  intro effect hmem
  rw [round_false] at hmem
  rcases List.mem_append.mp hmem with hgoodbye | hlast
  · exact (isFarewell_goodbyes registry effect hgoodbye).1
  · rw [List.mem_singleton.mp hlast]
    exact trivial

end History

theorem Phase.isOver_of_isActive {phase : Phase} (h : phase.isActive = true) :
    phase.isOver = false := by
  cases phase
  case subscribing | backfilling | processing => rfl
  all_goals cases h

namespace Machine

variable {machine after : Machine} {move : Move} {moves : List Move}

/-! ## Where the control task is -/

/-- Where a step of the control task leads to. -/
inductive Destination (machine after : Machine) : Prop
  /-- It is in a pass or processes. -/
  | active (hphase : after.phase.isActive = true)
  /-- It has broken down. -/
  | crashed (hphase : after.phase = .crashed)
  /-- It has waited for other services, and goes on or stops doing so. -/
  | waited (hbefore : machine.phase = .waiting)
      (hphase : after.phase = .waiting ∨ after.phase = .joining)
      (hconnected : after.connected = machine.connected)
  /-- It has left what it was doing. -/
  | left (hphase : after.phase = .joining) (hconnected : after.connected = false)
  /-- It has ended, as all stages have stopped. -/
  | ended (hbefore : machine.phase = .joining) (hphase : after.phase = .ended)
      (hfinished : after.pipeline.allFinished = true)
      (hconnected : after.connected = machine.connected)

theorem PassEnds.destination {start : Machine} {fresh : Option Nat} {logs : List RawLog}
    (h : PassEnds machine fresh logs after) : Destination start after := by
  cases h with
  | overcrowded _ hdown => exact .crashed hdown.phase
  | restless _ _ hdown => exact .crashed hdown.phase
  | completed => exact .active rfl

theorem destination_beginPass (start machine : Machine) :
    Destination start machine.beginPass := by
  rw [beginPass_eq]
  split
  next => exact (passEnds_completePass ..).destination
  next => exact .active rfl

theorem ControlStep.destination (h : ControlStep machine after) : Destination machine after := by
  cases h with
  | interrupted hphase => exact .waited hphase (.inr rfl) rfl
  | ready | lost | resubscribed => exact destination_beginPass ..
  | handled hphase =>
      cases hcase : machine.phase
      case waiting => exact .waited hcase (.inl rfl) rfl
      case processing => exact .active rfl
      all_goals
        rw [hcase] at hphase
        cases hphase
  | @repeated caller command mailbox =>
      obtain ⟨quiet, hdown⟩ := machine.breaksDown_repeated caller command mailbox
      exact .crashed hdown.phase
  | left =>
      obtain ⟨quiet, quiet', subscriptions, -, -, -, heq⟩ := machine.leave_eq machine.phase.fresh?
      rw [heq]
      exact .left rfl rfl
  | talked _ htalk =>
      obtain ⟨phase, requestCount, answer, talk, -, -, hpassing, rfl⟩ := htalk.eq
      refine .active ?_
      change phase.isActive = true
      cases phase
      case subscribing | backfilling => rfl
      all_goals cases hpassing
  | fetched => exact (passEnds_completePass ..).destination
  | ticked | streamEnded => exact .active rfl
  | @took _ _ log pipeline hphase =>
      rcases dispatch_cases ({ machine with pipeline }.record [.took log]) log with
        ⟨-, heq⟩ | ⟨_, _, _, quiet, -, -, hdown⟩
      · rw [heq]
        exact .active (congrArg Phase.isActive hphase)
      · exact .crashed hdown.phase
  | ended hphase hfinished =>
      obtain ⟨callers, heq, -⟩ := machine.closeMailbox_eq
      rw [heq]
      exact .ended hphase rfl hfinished rfl

/-- Outside passes and processing the relay does not say that it is connected, unless the control
task has broken down. -/
def Modest (machine : Machine) : Prop :=
  machine.connected = true → machine.phase.isActive = true ∨ machine.phase = .crashed

theorem Modest.of_controlStep (h : Modest machine) (hstep : ControlStep machine after) :
    Modest after := by
  intro hconnected
  cases hstep.destination with
  | active hphase => exact .inl hphase
  | crashed hphase => exact .inr hphase
  | waited hbefore _ hsame | ended hbefore _ _ hsame =>
      have hmodest := h (hsame ▸ hconnected)
      rw [hbefore] at hmodest
      rcases hmodest with hactive | hcrashed
      · cases hactive
      · cases hcrashed
  | left _ hnot => cases hconnected.symm.trans hnot

theorem Reachable.modest (h : Reachable machine) : Modest machine := by
  induction h using Reachable.always with
  | initial =>
      intro hconnected
      cases hconnected
  | control _ _ hstep ih => exact ih.of_controlStep hstep
  | outside _ _ hstep ih =>
      intro hconnected
      have haside := hstep.aside
      have hbefore := ih (haside.connected ▸ hconnected)
      rcases haside.phase with hsame | ⟨hidle, -⟩
      · exact hsame ▸ hbefore
      · rw [hidle] at hbefore
        rcases hbefore with hactive | hcrashed
        · cases hactive
        · cases hcrashed

/-- All stages have stopped when the control task is no more. -/
theorem Reachable.allFinished (h : Reachable machine) (hover : machine.phase.isOver = true) :
    machine.pipeline.allFinished = true := by
  induction h using Reachable.always with
  | initial => cases hover
  | control _ hafter hstep _ =>
      cases hstep.destination with
      | active hphase =>
          rw [Phase.isOver_of_isActive hphase] at hover
          cases hover
      | crashed hphase => exact hafter.explained.stopped hphase
      | waited _ hphase =>
          rcases hphase with hphase | hphase
          all_goals
            rw [hphase] at hover
            cases hover
      | left hphase =>
          rw [hphase] at hover
          cases hover
      | ended _ _ hfinished => exact hfinished
  | @outside machine after hreach _ hstep ih =>
      have haside := hstep.aside
      have hsame := haside.phase_eq fun hwaiting => by
        rw [hwaiting] at hover
        cases hover
      have hfinished := ih (hsame ▸ hover)
      -- No stage can take a step any more, and no other move touches the stages.
      cases hstep with
      | staged hstep =>
          rw [Pipeline.step?_eq_none hfinished] at hstep
          cases hstep
      | _ => exact hfinished

/-! ## The way out -/

/-- What has followed since a moment at which the shutdown signal was raised. -/
structure Farewell (machine after : Machine) : Prop where
  history : ∃ newer, after.history = newer ++ machine.history ∧
    (∀ effect ∈ newer, effect.IsFarewell) ∧
    newer.callbacks = if machine.connected = true ∧ after.connected = false then
      History.goodbyes machine.registry else []
  registry : after.registry = machine.registry
  connected : after.connected = true → machine.connected = true
  signalled : after.signalled = true

theorem Farewell.refl (h : machine.signalled = true) : Farewell machine machine := by
  refine ⟨⟨[], rfl, fun _ hmem => absurd hmem List.not_mem_nil, ?_⟩, rfl, id, h⟩
  rw [if_neg (by simp)]
  rfl

/-- A step that calls no listener and leaves the relay saying what it says. -/
theorem Farewell.of_silent {later : Machine} (h : Farewell machine after) {burst : History}
    (hhistory : later.history = burst ++ after.history)
    (hburst : ∀ effect ∈ burst, effect.IsFarewell) (hcallbacks : burst.callbacks = [])
    (hregistry : later.registry = after.registry) (hconnected : later.connected = after.connected)
    (hsignal : later.signalled = true) : Farewell machine later := by
  obtain ⟨⟨newer, hnewer, hkinds, hcalled⟩, hsame, hbefore, -⟩ := h
  refine ⟨⟨burst ++ newer, ?_, List.forall_mem_append.mpr ⟨hburst, hkinds⟩, ?_⟩,
    hregistry.trans hsame, hconnected ▸ hbefore, hsignal⟩
  · rw [hhistory, hnewer, List.append_assoc]
  · rw [History.callbacks_append, hcallbacks, List.nil_append, hconnected]
    exact hcalled

theorem Farewell.of_leave {fresh : Option Nat} (h : Farewell machine after)
    (hsignal : (after.leave fresh).signalled = true) : Farewell machine (after.leave fresh) := by
  obtain ⟨quiet, quiet', subscriptions, hquiet, hquiet', -, heq⟩ := after.leave_eq fresh
  have hdown : ∀ {history : History}, history.IsQuiet →
      ∀ effect ∈ history, effect.IsFarewell :=
    fun hhistory effect hmem => (hhistory effect hmem).isFarewell
  cases hconnected : after.connected with
  | false =>
      rw [hconnected] at heq
      have hsilent : (quiet' ++ [] ++ quiet).IsQuiet :=
        (hquiet'.append History.isQuiet_nil).append hquiet
      rw [heq] at hsignal ⊢
      exact h.of_silent (history_record ..) (hdown hsilent) hsilent.callbacks rfl hconnected.symm
        hsignal
  | true =>
      -- The one round of calls.
      obtain ⟨⟨newer, hnewer, hkinds, hcalled⟩, hsame, hbefore, -⟩ := h
      rw [hconnected, if_neg (by simp)] at hcalled
      rw [hconnected, if_pos rfl] at heq
      rw [heq] at hsignal ⊢
      refine ⟨⟨quiet' ++ History.round false after.registry ++ quiet ++ newer, ?_, ?_, ?_⟩, hsame,
        nofun, hsignal⟩
      · rw [history_record, List.append_assoc _ newer, ← hnewer]
        rfl
      · have hround := History.isFarewell_round_false after.registry
        exact List.forall_mem_append.mpr ⟨List.forall_mem_append.mpr
          ⟨List.forall_mem_append.mpr ⟨hdown hquiet', hround⟩, hdown hquiet⟩, hkinds⟩
      · rw [if_pos ⟨hbefore hconnected, rfl⟩, ← hsame]
        simp only [History.callbacks_append, hquiet.callbacks, hquiet'.callbacks, hcalled,
          History.callbacks_round_false, List.nil_append, List.append_nil]

theorem Farewell.of_controlStep {later : Machine} (h : Farewell machine after)
    (hstep : ControlStep after later) : Farewell machine later := by
  have hraised := h.signalled
  have hsignal := hstep.frame.signalled.trans hraised
  have hnone : ∀ effect ∈ ([] : History), effect.IsFarewell :=
    fun _ hmem => absurd hmem List.not_mem_nil
  -- Whatever else it could do, it only does without the signal.
  cases hstep with
  | interrupted => exact h.of_silent (List.nil_append _).symm hnone rfl rfl rfl hsignal
  | left => exact h.of_leave hsignal
  | ended =>
      obtain ⟨callers, heq, -⟩ := after.closeMailbox_eq
      rw [heq] at hsignal ⊢
      exact h.of_silent (List.nil_append _).symm hnone rfl rfl rfl hsignal
  | ready _ hquiet | handled _ hquiet | repeated _ hquiet | talked hquiet | fetched _ hquiet
  | lost _ hquiet | resubscribed _ hquiet | ticked _ hquiet | took _ hquiet
  | streamEnded _ hquiet => cases hraised.symm.trans hquiet

theorem OutsideStep.signalled_of_signalled (h : OutsideStep machine after)
    (hsignal : machine.signalled = true) : after.signalled = true := by
  cases h with
  | arranged hkept => exact hkept hsignal
  | _ => exact hsignal

theorem Farewell.of_outsideStep {later : Machine} (h : Farewell machine after)
    (hstep : OutsideStep after later) : Farewell machine later := by
  have haside := hstep.aside
  have hsignal := hstep.signalled_of_signalled h.signalled
  rcases haside.history with hsame | ⟨number, log, hmore⟩
  · have hnone : ∀ effect ∈ ([] : History), effect.IsFarewell :=
      fun _ hmem => absurd hmem List.not_mem_nil
    exact h.of_silent (hsame.trans (List.nil_append _).symm) hnone rfl haside.registry
      haside.connected hsignal
  · have hone : ∀ effect ∈ [Effect.accepted number log], effect.IsFarewell :=
      List.forall_mem_singleton.mpr trivial
    exact h.of_silent hmore hone rfl haside.registry haside.connected hsignal

theorem Farewell.of_run {later : Machine} (h : Farewell machine after) (hreach : Reachable after)
    (hrun : after.run? moves = some later) : Farewell machine later := by
  refine hreach.along (fun move hfirst hperform hbefore => ?_) h hrun
  by_cases hmove : move = .step .control
  · subst hmove
    exact hbefore.of_controlStep (controlStep_of_stepControl? hperform)
  · exact hbefore.of_outsideStep (outsideStep_of_perform? hmove hfirst.idle_of_created hperform)

/-! ## After the end -/

/-- What a call returns that finds the relay stopped. -/
def parting : CallRequest → CallResult
  | .command command => refusal command
  | .stop => .stopped (.error .alreadyStopped)

/-- The calls from the given number on have found the relay stopped, or have taken no step yet. -/
def Partings (machine : Machine) (first : CallerId) : Prop :=
  ∀ id caller, first ≤ id → machine.callers[id]? = some caller →
    caller.progress = .fresh ∨ caller.progress = .done (parting caller.request)

/-- A call that moves on finds the relay stopped. -/
theorem Partings.of_progress {first id : CallerId} {progress : CallProgress CallResult}
    (h : machine.Partings first)
    (hcallers : after.callers = (machine.progress id progress).callers)
    (hparting : ∀ caller, first ≤ id → machine.callers[id]? = some caller →
      progress = .done (parting caller.request)) : after.Partings first := by
  intro other later hother hlater
  rw [hcallers, getElem?_progress] at hlater
  split at hlater
  next heq =>
    subst heq
    obtain ⟨caller, hcaller, rfl⟩ := Option.map_eq_some_iff.mp hlater
    exact .inr (hparting caller hother hcaller)
  next => exact h other later hother hlater

/-- Only one thing can happen to a call when the relay was stopped. -/
theorem Partings.of_callerStep {first id : CallerId} {caller : Caller}
    (h : machine.Partings first) (hlifecycle : machine.lifecycle = .stopped)
    (hsignal : machine.signalled = true) (hcaller : machine.callers[id]? = some caller)
    (hstep : CallerStep machine id caller after) : after.Partings first := by
  cases hstep with
  | advanced _ hquiet | accepted _ hquiet => cases hsignal.symm.trans hquiet
  | refused hrequest =>
      refine h.of_progress rfl fun found _ hfound => ?_
      obtain rfl : caller = found := Option.some.inj (hcaller.symm.trans hfound)
      rw [hrequest]
      rfl
  | stopRefused hrequest _ herror =>
      rw [hlifecycle] at herror
      cases herror
      refine h.of_progress rfl fun found _ hfound => ?_
      obtain rfl : caller = found := Option.some.inj (hcaller.symm.trans hfound)
      rw [hrequest]
      rfl
  | stopBegun _ _ hrunning => cases hlifecycle.symm.trans hrunning
  | stopDone _ hjoining =>
      refine h.of_progress rfl fun found hfirst hfound => ?_
      -- A call that waits for the end was made before.
      obtain rfl : caller = found := Option.some.inj (hcaller.symm.trans hfound)
      rcases h id caller hfirst hcaller with hfresh | hdone
      · cases hjoining.symm.trans hfresh
      · cases hjoining.symm.trans hdone

theorem Partings.of_conduct {first : CallerId} (h : machine.Partings first)
    (hlifecycle : machine.lifecycle = .stopped) (hsignal : machine.signalled = true)
    (hconduct : Conduct machine move after) : after.Partings first := by
  cases hconduct with
  | aside _ _ hcallers =>
      intro id later hfirst hlater
      have hview := congrArg (·[id]?) hcallers
      simp only [List.getElem?_map, hlater, Option.map_some] at hview
      obtain ⟨caller, hcaller, hsame⟩ := Option.map_eq_some_iff.mp hview.symm
      -- A call that has not been posted cannot be answered.
      have heq : later = caller := by
        rcases h id caller hfirst hcaller with hprogress | hprogress
        all_goals
          simp only [Caller.asPosted, hprogress] at hsame
          cases hlater : later.progress <;> simp_all
      exact heq ▸ h id caller hfirst hcaller
  | started _ hcreated => cases hlifecycle.symm.trans hcreated
  | called hafter =>
      subst hafter
      intro id later hfirst hlater
      rw [call, List.getElem?_append] at hlater
      split at hlater
      next => exact h id later hfirst hlater
      next =>
        rw [List.mem_singleton.mp (List.mem_of_getElem? hlater)]
        exact .inl rfl
  | moved hcaller hstep => exact h.of_callerStep hlifecycle hsignal hcaller hstep

/-- What is left to change when the relay was stopped and the control task is no more: the client
may send logs, and calls may be made, which find the relay stopped. -/
structure Rests (machine after : Machine) : Prop where
  history : ∃ newer, after.history = newer ++ machine.history ∧
    ∀ effect ∈ newer, ∃ number log, effect = .accepted number log
  phase : after.phase = machine.phase
  connected : after.connected = machine.connected
  registry : after.registry = machine.registry
  lifecycle : after.lifecycle = .stopped
  raised : after.raised = true
  calls : after.Partings machine.callers.length

theorem Rests.refl (hlifecycle : machine.lifecycle = .stopped) (hraised : machine.raised = true) :
    Rests machine machine := by
  refine ⟨⟨[], rfl, fun _ hmem => absurd hmem List.not_mem_nil⟩, rfl, rfl, rfl, hlifecycle, hraised,
    fun id caller hlater hcaller => ?_⟩
  have hlength := (List.getElem?_eq_some_iff.mp hcaller).1
  exact absurd hlength (Nat.not_lt.mpr hlater)

theorem signalled_of_raised (h : machine.raised = true) : machine.signalled = true := by
  rw [signalled_eq, h, Bool.true_or]

theorem Conduct.raised (h : Conduct machine move after) (hraised : machine.raised = true) :
    after.raised = true := by
  cases h with
  | aside _ hsame => exact hsame.trans hraised
  | started _ _ hafter | called hafter =>
      subst hafter
      exact hraised
  | moved _ hstep =>
      obtain ⟨mailbox, raised, lifecycle, callers, hkept, -, rfl⟩ := hstep.eq
      exact hkept hraised

theorem Rests.of_perform? {later : Machine} (h : Rests machine after)
    (hover : machine.phase.isOver = true) (hreach : Reachable after)
    (hperform : after.perform? move = some later) : Rests machine later := by
  have hstill : after.phase.isOver = true := h.phase ▸ hover
  have hconduct := conduct_of_perform? hperform
  have hmove : move ≠ .step .control := by
    rintro rfl
    rw [perform?, step?, stepControl?_eq_none hstill] at hperform
    cases hperform
  have haside := (outsideStep_of_perform? hmove hreach.idle_of_created hperform).aside
  refine ⟨?_, ?_, haside.connected.trans h.connected, haside.registry.trans h.registry, ?_,
    hconduct.raised h.raised,
    h.calls.of_conduct h.lifecycle (signalled_of_raised h.raised) hconduct⟩
  · obtain ⟨newer, hnewer, honly⟩ := h.history
    rcases haside.history with hsame | ⟨number, log, hmore⟩
    · exact ⟨newer, hsame.trans hnewer, honly⟩
    · refine ⟨.accepted number log :: newer, hmore.trans (congrArg (List.cons _) hnewer), ?_⟩
      exact List.forall_mem_cons.mpr ⟨⟨number, log, rfl⟩, honly⟩
  · rcases haside.phase with hsame | ⟨hidle, -⟩
    · exact hsame.trans h.phase
    · rw [hidle] at hstill
      cases hstill
  · rcases hconduct.lifecycle with ⟨hstart, -⟩ | hsame | ⟨hrunning, -⟩
    · cases h.lifecycle.symm.trans (lifecycle_of_start hstart hperform).1
    · exact hsame.trans h.lifecycle
    · cases h.lifecycle.symm.trans hrunning

theorem Rests.of_run {later : Machine} (h : Rests machine after)
    (hover : machine.phase.isOver = true) (hreach : Reachable after)
    (hrun : after.run? moves = some later) : Rests machine later :=
  hreach.along (fun _ hfirst hperform hbefore => hbefore.of_perform? hover hfirst hperform) h hrun

/-- A call to a relay that was stopped returns in one step. -/
theorem returned_of_fresh (hlifecycle : machine.lifecycle = .stopped)
    (hsignal : machine.signalled = true) {id : CallerId} {caller : Caller}
    (hcaller : machine.callers[id]? = some caller) (hfresh : caller.progress = .fresh) :
    ∃ final, machine.step? (.caller id) = some final ∧
      final.Returned id (parting caller.request) := by
  have hreturned : ∀ relay : Machine, relay.callers = machine.callers →
      ∀ result, (relay.progress id (.done result)).Returned id result := by
    intro relay hsame result
    refine ⟨{ caller with progress := .done result }, ?_, rfl⟩
    rw [getElem?_progress, if_pos rfl, hsame, hcaller]
    rfl
  cases hrequest : caller.request with
  | command command =>
      refine ⟨{ machine with mailbox := machine.mailbox.leave id }.progress id
        (.done (refusal command)), ?_, hreturned _ rfl _⟩
      simp [step?, stepCaller?, hcaller, hrequest, hfresh, stepCommand?, hsignal]
  | stop =>
      refine ⟨machine.progress id (.done (.stopped (.error .alreadyStopped))), ?_,
        hreturned _ rfl _⟩
      simp [step?, stepCaller?, hcaller, hrequest, hfresh, stepStop?, hlifecycle, Lifecycle.stop?]

end Machine

end LogRelay
