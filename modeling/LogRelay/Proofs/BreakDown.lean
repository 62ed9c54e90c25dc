import LogRelay.Proofs.Course
import LogRelay.Proofs.Stages

/-!
# Why the control task breaks down

There are four faults over which the control task breaks down (`HasFault`): a pair was
registered that was registered already, the debounce time is zero, the room for logs is
more than a channel can have, or a listener has broken down on a log that was taken for it.
When it has broken down, all stages have stopped.
-/

namespace LogRelay

instance (registry : Registry) (command : Command) : Decidable (registry.Repeats command) :=
  match command with
  | .register address listener =>
      inferInstanceAs (Decidable (listener ∈ registry.listenersAt address))
  | .unregister .. => inferInstanceAs (Decidable False)

namespace History

/-- The requests that were handled, the latest first, each with the registry before it. -/
@[simp] def requests : History → List (Command × Registry)
  | [] => []
  | .handled _ command :: older => (command, registry older) :: requests older
  | _ :: older => requests older

theorem IsOffStream.requests {newer : History} (h : newer.IsOffStream) (older : History) :
    (newer ++ older).requests = older.requests := by
  refine append_eq_of_neutral older fun effect hmem history => ?_
  have haside := h effect hmem
  cases effect
  case handled caller command => exact haside.elim
  all_goals rfl

/-- A pair was registered that was registered already. -/
def Repeated (history : History) : Prop :=
  ∃ request ∈ history.requests, request.2.Repeats request.1

instance (history : History) : Decidable history.Repeated :=
  inferInstanceAs (Decidable (∃ request ∈ history.requests, request.2.Repeats request.1))

theorem Repeated.cons {older : History} (h : older.Repeated) (effect : Effect) :
    Repeated (effect :: older) := by
  obtain ⟨request, hmem, hrepeats⟩ := h
  refine ⟨request, ?_, hrepeats⟩
  cases effect
  case handled caller command => exact List.mem_cons_of_mem _ hmem
  all_goals exact hmem

theorem Repeated.append {older : History} (h : older.Repeated) (newer : History) :
    (newer ++ older).Repeated := by
  induction newer with
  | nil => exact h
  | cons effect newer ih => exact ih.cons effect

end History

theorem Pipeline.allFinished_stop (pipeline : Pipeline) :
    Pipeline.allFinished (pipeline.map Stage.stop) = true := by
  rw [allFinished, List.all_map]
  exact List.all_eq_true.mpr fun _ _ => rfl

namespace Machine

variable {machine after : Machine}

/-- A log was taken on which one of its receivers breaks down. -/
def IsLetDown (machine : Machine) : Prop :=
  ∃ log ∈ machine.history.taken, ∃ listener ∈ History.receivers log machine.registry,
    machine.breaksOn listener log = true

/-- There is a fault over which the control task has broken down. -/
def HasFault (machine : Machine) : Prop :=
  machine.history.Repeated ∨ machine.parameters.debounce = 0 ∨
    RelayParameters.greatestRoom < machine.parameters.logRoom ∨ machine.IsLetDown

/-- If the control task has broken down, all stages have stopped, and there is a fault. -/
structure Explained (machine : Machine) : Prop where
  stopped : machine.phase = .crashed → machine.pipeline.allFinished = true
  fault : machine.phase = .crashed → machine.HasFault

theorem explained_of_phase (h : machine.phase ≠ .crashed) : Explained machine :=
  ⟨fun hcrashed => absurd hcrashed h, fun hcrashed => absurd hcrashed h⟩

theorem Explained.of_breaksDown {quiet : History} (hdown : BreaksDown machine after quiet)
    (hfault : after.HasFault) : Explained after := by
  refine ⟨fun _ => ?_, fun _ => hfault⟩
  obtain ⟨subscriptions, callers, -, -, rfl⟩ := hdown.eq
  exact Pipeline.allFinished_stop machine.pipeline

theorem PassEnds.explained {fresh : Option Nat} {logs : List RawLog}
    (h : PassEnds machine fresh logs after) : Explained after := by
  have hparameters := h.frame.parameters
  cases h with
  | overcrowded hroom hdown =>
      exact .of_breaksDown hdown (.inr (.inr (.inl (hparameters ▸ hroom))))
  | restless hadopts hdebounce hdown =>
      exact .of_breaksDown hdown (.inr (.inl (hparameters ▸ hdebounce)))
  | completed hadopts => exact explained_of_phase (by simp)

theorem explained_beginPass (machine : Machine) : Explained machine.beginPass := by
  rw [beginPass_eq]
  split
  next => exact (passEnds_completePass ..).explained
  next => exact explained_of_phase (by simp)

theorem explained_dispatch (hrunning : machine.phase ≠ .crashed) {log : RawLog}
    (htaken : log ∈ machine.history.taken) : Explained (machine.dispatch log) := by
  have hbreaksOn := (machine.frame_dispatch log).breaksOn
  rcases machine.dispatch_cases log with
    ⟨-, heq⟩ | ⟨before, breaker, rest, quiet, hreceivers, hbreaks, hdown⟩
  · rw [heq]
    exact explained_of_phase hrunning
  · have hstill : log ∈ (machine.dispatch log).history.taken := by
      rw [hdown.offStream.sameRoutes.taken, history_record, History.taken_handOut]
      exact htaken
    have hmem : breaker ∈ History.receivers log (machine.dispatch log).registry := by
      rw [hdown.offStream.registry]
      change breaker ∈ History.receivers log machine.registry
      rw [hreceivers]
      exact List.mem_append_right before (List.mem_cons_self ..)
    exact .of_breaksDown hdown
      (.inr (.inr (.inr ⟨log, hstill, breaker, hmem, hbreaksOn ▸ hbreaks⟩)))

theorem ControlStep.explained (h : ControlStep machine after)
    (hregistry : machine.registry = machine.history.registry) : Explained after := by
  have hrunning := h.phase_ne_crashed
  cases h with
  | interrupted | ticked | streamEnded | ended => exact explained_of_phase (by simp)
  | ready | resubscribed => exact explained_beginPass machine
  | @handled caller command mailbox callers hphase =>
      refine explained_of_phase ?_
      cases hcase : machine.phase
      case waiting => simp [record, Phase.afterHandling]
      case processing => simp [record, Phase.afterHandling]
      all_goals
        rw [hcase] at hphase
        cases hphase
  | @repeated caller command mailbox _ _ _ hrepeats =>
      obtain ⟨quiet, hdown⟩ := machine.breaksDown_repeated caller command mailbox
      have hrepeated : History.Repeated (.handled caller command :: machine.history) :=
        ⟨(command, machine.history.registry), List.mem_cons_self .., hregistry ▸ hrepeats⟩
      refine .of_breaksDown hdown (.inl ?_)
      rw [hdown.history]
      exact hrepeated.append quiet
  | left =>
      obtain ⟨quiet, quiet', subscriptions, -, -, -, heq⟩ :=
        machine.leave_eq machine.phase.fresh?
      rw [heq]
      exact explained_of_phase (by simp [record])
  | talked _ htalk =>
      obtain ⟨phase, requestCount, answer, talk, -, -, hpassing, rfl⟩ := htalk.eq
      refine explained_of_phase fun hcrashed => ?_
      obtain rfl : phase = .crashed := hcrashed
      cases hpassing
  | fetched => exact (passEnds_completePass ..).explained
  | lost => exact explained_beginPass _
  | took hphase =>
      refine explained_dispatch (fun hcrashed => ?_) ?_
      · exact hrunning hcrashed
      · exact List.mem_append_right _ (List.mem_singleton_self _)

theorem Explained.of_outsideStep (h : Explained machine) (hstep : OutsideStep machine after) :
    Explained after := by
  have haside := hstep.aside
  have hphase : after.phase = .crashed → machine.phase = .crashed := by
    intro hcrashed
    rw [haside.phase_eq (by simp [hcrashed])]
    exact hcrashed
  have hfault : machine.HasFault → after.HasFault := by
    rintro (hrepeated | hdebounce | hroom | ⟨log, htaken, listener, hmem, hbreaks⟩)
    · refine .inl ?_
      rcases haside.history with hsame | ⟨number, log, hmore⟩
      · exact hsame ▸ hrepeated
      · exact hmore ▸ hrepeated.cons _
    · exact .inr (.inl (haside.parameters ▸ hdebounce))
    · exact .inr (.inr (.inl (haside.parameters ▸ hroom)))
    · exact .inr (.inr (.inr ⟨log, haside.alike.taken ▸ htaken, listener, haside.registry ▸ hmem,
        haside.breaksOn ▸ hbreaks⟩))
  refine ⟨fun hcrashed => ?_, fun hcrashed => hfault (h.fault (hphase hcrashed))⟩
  -- No stage can take a step any more, and no other move touches the stages.
  have hstopped := h.stopped (hphase hcrashed)
  cases hstep with
  | staged hstep =>
      rw [Pipeline.step?_eq_none hstopped] at hstep
      cases hstep
  | _ => exact hstopped

theorem Reachable.explained (h : Reachable machine) : Explained machine := by
  induction h using Reachable.always with
  | initial => exact explained_of_phase (by simp [Machine.initial, create])
  | control hreach _ hstep ih => exact hstep.explained hreach.registry_eq
  | outside _ _ hstep ih => exact ih.of_outsideStep hstep

end Machine

end LogRelay
