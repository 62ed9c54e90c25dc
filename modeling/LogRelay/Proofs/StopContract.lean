import LogRelay.Proofs.Forwarding
import LogRelay.Proofs.Routing

/-!
# What stopping a relay means

Here it is put together what holds for starting and stopping a relay, in every run: the
attempts that fail change nothing, the shutdown signal is followed by nothing but a
farewell, and when the call that has stopped the relay returns, the relay is at rest for
good.

The one reservation is about a control task that has broken down.  It has said no farewell,
so that the relay may go on saying that it is connected.
-/

namespace LogRelay

namespace Machine

variable {machine after : Machine} {moves : List Move}

/-- What holds as long as the relay was not started: it can be started, and to stop it fails and
changes nothing but the call itself. -/
structure Unstarted (machine : Machine) : Prop where
  start : ∃ started, machine.start = .ok started
  stop : ∀ id caller, machine.callers[id]? = some caller → caller.request = .stop →
    caller.progress = .fresh →
      machine.step? (.caller id) =
        some (machine.progress id (.done (.stopped (.error .notStarted))))

theorem unstarted (h : machine.lifecycle = .created) : Unstarted machine := by
  refine ⟨⟨_, start_eq_ok h⟩, fun id caller hcaller hrequest hfresh => ?_⟩
  simp [step?, stepCaller?, hcaller, hrequest, hfresh, stepStop?, h, Lifecycle.stop?]

/-- A call to stop the relay that fails changes nothing but itself. -/
theorem eq_of_stopRefused {id : CallerId} {error : LifecycleError}
    (hstep : machine.step? (.caller id) = some after)
    (hreturned : after.Returned id (.stopped (.error error))) :
    after = machine.progress id (.done (.stopped (.error error))) := by
  obtain ⟨later, hlater, hdone⟩ := hreturned
  obtain ⟨caller, hcaller, hcase⟩ := callerStep_of_stepCaller? hstep
  have hprogress : ∀ progress, after.callers = (machine.progress id progress).callers →
      progress = .done (.stopped (.error error)) := by
    intro progress hcallers
    rw [hcallers, getElem?_progress, if_pos rfl, hcaller] at hlater
    cases hlater
    exact hdone
  cases hcase with
  | stopRefused =>
      cases hprogress _ rfl
      rfl
  | advanced _ _ _ hwaiting =>
      have hnot := hprogress _ rfl
      rcases hwaiting with ⟨rfl, -⟩ | ⟨rfl, -⟩
      all_goals cases hnot
  | @accepted command | @refused command =>
      have hnot := hprogress _ rfl
      cases command
      all_goals cases hnot
  | stopBegun | stopDone => cases hprogress _ rfl

/-- What holds when the relay was stopped and the control task is no more: the relay rests,
however the run goes on, and whatever is called then fails in one step. -/
structure AtRest (machine : Machine) : Prop where
  isOver : machine.phase.isOver = true
  disconnected : machine.phase ≠ .crashed → machine.connected = false
  rests : ∀ later after, machine.run? later = some after → Rests machine after
  start : ∀ later after, machine.run? later = some after →
    after.start = .error .alreadyStarted
  returns : ∀ later after, machine.run? later = some after →
    ∀ id caller, machine.callers.length ≤ id → after.callers[id]? = some caller →
      caller.progress = .fresh → ∃ final, after.step? (.caller id) = some final ∧
        final.Returned id (parting caller.request)

theorem Reachable.disconnected (h : Reachable machine) (hover : machine.phase.isOver = true)
    (hrunning : machine.phase ≠ .crashed) : machine.connected = false := by
  refine Bool.eq_false_iff.mpr fun hconnected => ?_
  rcases h.modest hconnected with hactive | hcrashed
  · rw [Phase.isOver_of_isActive hactive] at hover
    cases hover
  · exact hrunning hcrashed

theorem Reachable.atRest (h : Reachable machine) (hlifecycle : machine.lifecycle = .stopped)
    (hover : machine.phase.isOver = true) : AtRest machine := by
  have hraised := h.stopsOnce.raised.mpr hlifecycle
  have hrests : ∀ later after, machine.run? later = some after → Rests machine after :=
    fun later after hlater => (Rests.refl hlifecycle hraised).of_run hover h hlater
  refine ⟨hover, h.disconnected hover, hrests, fun later after hlater => ?_,
    fun later after hlater id caller _ hcaller hfresh => ?_⟩
  · exact start_eq_error (by simp [(hrests later after hlater).lifecycle])
  · have hstill := hrests later after hlater
    exact returned_of_fresh hstill.lifecycle (signalled_of_raised hstill.raised) hcaller hfresh

/-- In every run the relay is started at most once and stopped by at most one call, which returns
only after the start; what fails changes nothing.  Once the shutdown signal is raised, a farewell
is all that follows, in which every registered pair is called once if the relay says that it is
connected.  When the call that has stopped the relay returns, every stage has finished, the relay
says that it is disconnected, and it rests for good.  Only a control task that has broken down,
over some fault, leaves the relay as connected as it was. -/
theorem stop_contract {parameters : RelayParameters} {breaksOn : ListenerId → RawLog → Bool}
    (hrun : (Machine.initial parameters breaksOn).run? moves = some machine) :
    (moves.filter Move.isStart).length ≤ 1 ∧
    (∀ first, machine.Returned first (.stopped (.ok ())) →
      (∃ move ∈ moves, move.isStart = true) ∧
        ∀ second, machine.Returned second (.stopped (.ok ())) → first = second) ∧
    ((∀ move ∈ moves, move.isStart = false) → Unstarted machine) ∧
    (∀ error, machine.start = .error error →
      error = .alreadyStarted ∧ ∃ move ∈ moves, move.isStart = true) ∧
    (∀ id after error, machine.step? (.caller id) = some after →
      after.Returned id (.stopped (.error error)) →
        after = machine.progress id (.done (.stopped (.error error)))) ∧
    (machine.signalled = true → machine.registry.pairs.Nodup ∧
      ∀ later after, machine.run? later = some after → Farewell machine after ∧
        (after.phase.isOver = true → after.phase ≠ .crashed → after.connected = false)) ∧
    (∀ id, machine.Returned id (.stopped (.ok ())) → AtRest machine ∧
      ∀ first rest earlier, moves = first ++ rest →
        (Machine.initial parameters breaksOn).run? first = some earlier →
          ∀ stage ∈ earlier.pipeline, ∃ second third middle, rest = second ++ third ∧
            earlier.run? second = some middle ∧
              ∃ done ∈ middle.pipeline, done.id = stage.id ∧ done.finished = true) ∧
    (machine.phase = .crashed → machine.HasFault) := by
  have hstart : (Machine.initial parameters breaksOn).Reachable := .initial parameters breaksOn
  have hreach : machine.Reachable := hstart.run hrun
  have honce := hreach.stopsOnce
  have hstarted : machine.lifecycle ≠ .created → ∃ move ∈ moves, move.isStart = true :=
    exists_start rfl hrun
  refine ⟨length_starts_le hrun, fun first hfirst => ⟨hstarted ?_, fun second hsecond => ?_⟩,
    fun hnone => unstarted ?_, fun error herror => ?_, fun id after error => eq_of_stopRefused,
    fun hsignal => ⟨hreach.wellFormed.nodup_pairs, fun later after hlater => ?_⟩,
    fun id hid => ⟨?_, ?_⟩, hreach.explained.fault⟩
  · simp [honce.stopped first hfirst.stoppedBy]
  · exact honce.once first second hfirst.stoppedBy hsecond.stoppedBy
  · refine Classical.byContradiction fun hnot => ?_
    obtain ⟨move, hmem, hmove⟩ := hstarted hnot
    cases (hnone move hmem).symm.trans hmove
  · have hnot : machine.lifecycle ≠ .created := by
      intro hcreated
      rw [start_eq_ok hcreated] at herror
      cases herror
    rw [start_eq_error hnot] at herror
    cases herror
    exact ⟨rfl, hstarted hnot⟩
  · exact ⟨(Farewell.refl hsignal).of_run hreach hlater, (hreach.run hlater).disconnected⟩
  · exact hreach.atRest (honce.stopped id hid.stoppedBy) (honce.isOver id hid)
  · intro first rest earlier hmoves hfirst stage hstage
    subst hmoves
    rw [run?_append hfirst] at hrun
    exact (hstart.run hfirst).finishes hrun (honce.isOver id hid) hstage

end Machine

/-! ## Two runs that are stopped -/

namespace Sample

/-- After a log was delivered, the relay is told to stop. -/
def movesToSignal : List Move := movesToDeliver ++ [.call .stop, .step (.caller 1)]

/-- All stages stop, and so does the control task. -/
def movesToPart : List Move :=
  [.step .control, .step (.stage 2), .step (.stage 3), .step .control, .step (.caller 1)]

/-- The relay when the shutdown signal is raised. -/
def signalled : Machine := (start.run? movesToSignal).getD default

/-- The relay when the call to stop it returns. -/
def parted : Machine := (signalled.run? movesToPart).getD default

end Sample

namespace Machine

/-- The listener is told once that the relay is disconnected, and then the relay rests. -/
theorem sample_stop_contract :
    AtRest Sample.parted ∧ ∃ newer, Sample.parted.history = newer ++ Sample.signalled.history ∧
      newer.callbacks = [.disconnected Sample.address 0] := by
  have hsignalled : Sample.start.run? Sample.movesToSignal = some Sample.signalled := by rfl
  have hparted : Sample.signalled.run? Sample.movesToPart = some Sample.parted := by rfl
  have hrun :
      Sample.start.run? (Sample.movesToSignal ++ Sample.movesToPart) = some Sample.parted := by
    rw [run?_append hsignalled]
    exact hparted
  have hreturned : Sample.parted.Returned 1 (.stopped (.ok ())) := ⟨_, rfl, rfl⟩
  obtain ⟨-, -, -, -, -, hfarewell, -, -⟩ := stop_contract hsignalled
  obtain ⟨-, -, -, -, -, -, hrest, -⟩ := stop_contract hrun
  have hsignal : Sample.signalled.signalled = true := by decide
  obtain ⟨newer, hhistory, -, hcallbacks⟩ := ((hfarewell hsignal).2 _ _ hparted).1.history
  have hconnected : Sample.signalled.connected = true ∧ Sample.parted.connected = false := by decide
  rw [if_pos hconnected] at hcallbacks
  exact ⟨(hrest 1 hreturned).1, newer, hhistory, hcallbacks⟩

end Machine

namespace Sample

/-- A log is taken on which a listener breaks down, and then the relay is stopped. -/
def stranded : Machine :=
  (brittle.run? [.call .stop, .step (.caller 2), .step (.caller 2)]).getD default

/-- The call to stop the relay has returned, but the relay says that it is connected, and no
listener was told otherwise, although no pair was registered twice. -/
theorem stranded_stays_connected :
    stranded.Reachable ∧ stranded.Returned 2 (.stopped (.ok ())) ∧ stranded.connected = true ∧
      stranded.history.lastNotice? 0 = some true ∧ stranded.registry.addresses = [address] ∧
      ¬stranded.history.Repeated ∧ stranded.parameters.debounce ≠ 0 ∧
      stranded.parameters.logRoom ≤ RelayParameters.greatestRoom := by
  have hreach : stranded.Reachable := reachable_brittle.getD_run? (by decide)
  exact ⟨hreach, ⟨_, rfl, rfl⟩, by decide, by decide, by decide, by decide, by decide, by decide⟩

end Sample

end LogRelay
