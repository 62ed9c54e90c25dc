import LogRelay.Proofs.Run

/-!
# What a move means for requests and logs

Most moves are off the stream: they neither handle a request nor take a log from the
log stream nor deliver one.  The few others are listed in `Course`: a request is
handled, or a log is taken and handed out.  In each case the registry stays what the
handled requests lead to (`Reachable.registry_eq`).
-/

namespace LogRelay

namespace History

theorem registry_handOut (log : RawLog) (listeners : List ListenerId) (older : History) :
    (handOut log listeners ++ older).registry = older.registry := by
  refine append_eq_of_neutral older fun effect hmem history => ?_
  obtain ⟨listener, -, rfl⟩ := List.mem_map.mp (List.mem_reverse.mp hmem)
  rfl

theorem taken_handOut (log : RawLog) (listeners : List ListenerId) (older : History) :
    (handOut log listeners ++ older).taken = older.taken := by
  refine append_eq_of_neutral older fun effect hmem history => ?_
  obtain ⟨listener, -, rfl⟩ := List.mem_map.mp (List.mem_reverse.mp hmem)
  rfl

end History

namespace Machine

/-! ## Moves off the stream -/

/-- Between the two states no request is handled and nothing happens to the logs of the stream. -/
structure OffStream (machine after : Machine) : Prop where
  history : ∃ burst, History.IsOffStream burst ∧ after.history = burst ++ machine.history
  registry : after.registry = machine.registry

variable {machine after : Machine}

theorem OffStream.refl (machine : Machine) : OffStream machine machine :=
  ⟨⟨[], fun _ h => absurd h List.not_mem_nil, rfl⟩, rfl⟩

theorem OffStream.trans {first second third : Machine} (h : OffStream first second)
    (h' : OffStream second third) : OffStream first third := by
  obtain ⟨⟨burst, hburst, heq⟩, hregistry⟩ := h
  obtain ⟨⟨burst', hburst', heq'⟩, hregistry'⟩ := h'
  refine ⟨⟨burst' ++ burst, hburst'.append hburst, ?_⟩, hregistry'.trans hregistry⟩
  rw [heq', heq, List.append_assoc]

theorem OffStream.sameRoutes (h : OffStream machine after) :
    machine.history.SameRoutes after.history := by
  obtain ⟨⟨burst, hburst, heq⟩, -⟩ := h
  rw [heq]
  exact hburst.sameRoutes machine.history

theorem offStream_record (machine : Machine) {effects : History} (h : effects.IsOffStream) :
    OffStream machine (machine.record effects) :=
  ⟨⟨effects, h, machine.history_record effects⟩, rfl⟩

theorem BreaksDown.offStream {quiet : History} (h : BreaksDown machine after quiet) :
    OffStream machine after := by
  refine ⟨⟨quiet, h.isQuiet.isWithClient.isOffStream, h.history⟩, ?_⟩
  obtain ⟨subscriptions, callers, -, -, heq⟩ := h.eq
  rw [heq]
  rfl

theorem Adopts.offStream {fresh : Option Nat} {logs : List RawLog}
    (h : Adopts machine after fresh logs) : OffStream machine after := by
  obtain ⟨quiet, subscriptions, hquiet, -, heq⟩ := h.eq
  rw [heq]
  have hround := History.isOffStream_round true machine.registry
  exact ⟨⟨_, hround.append hquiet.isWithClient.isOffStream, history_record ..⟩, rfl⟩

theorem PassEnds.offStream {fresh : Option Nat} {logs : List RawLog}
    (h : PassEnds machine fresh logs after) : OffStream machine after := by
  have hgathered : OffStream machine (machine.record [.gathered logs fresh]) :=
    machine.offStream_record (History.isOffStream_singleton trivial)
  cases h with
  | overcrowded hroom hdown => exact hgathered.trans hdown.offStream
  | restless hadopts hdebounce hdown =>
      exact (hgathered.trans hadopts.offStream).trans hdown.offStream
  | completed hadopts =>
      obtain ⟨hhistory, hregistry⟩ := hgathered.trans hadopts.offStream
      exact ⟨hhistory, hregistry⟩

theorem offStream_beginPass (machine : Machine) : OffStream machine machine.beginPass := by
  rw [beginPass_eq]
  split
  next =>
    refine OffStream.trans ?_ (passEnds_completePass ..).offStream
    exact machine.offStream_record (History.isOffStream_singleton trivial)
  next =>
    have hbegan : History.IsOffStream [.began machine.registry.addresses] :=
      History.isOffStream_singleton trivial
    exact ⟨⟨_, hbegan, machine.history_record _⟩, rfl⟩

theorem offStream_notifyDisconnected (machine : Machine) :
    OffStream machine machine.notifyDisconnected := by
  rw [notifyDisconnected_eq]
  have hround := History.isOffStream_round false machine.registry
  exact ⟨⟨_, hround, history_record ..⟩, rfl⟩

theorem offStream_leave (machine : Machine) (fresh : Option Nat) :
    OffStream machine (machine.leave fresh) := by
  obtain ⟨quiet, quiet', subscriptions, hquiet, hquiet', -, heq⟩ := machine.leave_eq fresh
  rw [heq]
  refine ⟨⟨_, (History.IsOffStream.append ?_ ?_).append ?_, history_record ..⟩, rfl⟩
  · exact hquiet'.isWithClient.isOffStream
  · split
    next => exact History.isOffStream_round false machine.registry
    next => exact History.isWithClient_nil.isOffStream
  · exact hquiet.isWithClient.isOffStream

/-! ## What a move means for requests and logs -/

/-- The control task breaks down over a request: it says nothing about that, and gives back the
subscriptions that it has. -/
structure BreaksOver (machine : Machine) (caller : CallerId) (command : Command)
    (after : Machine) : Prop where
  phase : after.phase = .crashed
  connected : after.connected = machine.connected
  history : ∃ quiet, History.IsQuiet quiet ∧
    after.history = quiet ++ .handled caller command :: machine.history

/-- What a move means for requests and logs. -/
inductive Course (machine after : Machine) : Prop
  /-- It does not concern them. -/
  | offStream (haside : OffStream machine after)
  /-- A request is handled. -/
  | handled {caller : CallerId} {command : Command}
      (hhistory : after.history = History.handling caller command ++ machine.history)
      (hregistry : after.registry = machine.registry.apply command)
      (hnew : ¬ machine.registry.Repeats command)
  /-- The control task breaks down over a request. -/
  | repeated {caller : CallerId} {command : Command}
      (hrepeats : machine.registry.Repeats command)
      (hdown : OffStream (machine.record [.handled caller command]) after)
      (hover : BreaksOver machine caller command after)
      (hphase : machine.phase.handlesRequests = true)
  /-- A log is taken and goes to all its receivers. -/
  | handedOut {log : RawLog}
      (hhistory : after.history =
        History.handOut log (History.receivers log machine.registry) ++
          .took log :: machine.history)
      (hregistry : after.registry = machine.registry)
  /-- A log is taken, and one of its receivers breaks down. -/
  | brokeDown {log : RawLog} {before rest : List ListenerId} {breaker : ListenerId}
      (hreceivers : History.receivers log machine.registry = before ++ breaker :: rest)
      (hbreaks : after.breaksOn breaker log = true)
      (hdown : OffStream (machine.record (History.handOut log before ++ [.took log])) after)
      (hphase : after.phase = .crashed)

theorem course_took {pipeline : Pipeline} {log : RawLog} :
    Course machine (({ machine with pipeline }.record [.took log]).dispatch log) := by
  have hframe := frame_dispatch ({ machine with pipeline }.record [.took log]) log
  rcases dispatch_cases ({ machine with pipeline }.record [.took log]) log with
    ⟨-, heq⟩ | ⟨before, breaker, rest, quiet, hreceivers, hbreaks, hdown⟩
  · have hhistory := history_record ({ machine with pipeline }.record [.took log])
      (History.handOut log (History.receivers log machine.registry))
    rw [heq]
    exact .handedOut hhistory rfl
  · refine .brokeDown hreceivers (by rw [hframe.breaksOn]; exact hbreaks) ?_ ?_
    · obtain ⟨⟨burst, hburst, hhistory⟩, hregistry⟩ := hdown.offStream
      refine ⟨⟨burst, hburst, ?_⟩, hregistry⟩
      rw [hhistory, history_record, history_record, history_record, List.append_assoc]
      rfl
    · exact hdown.phase

theorem ControlStep.course (h : ControlStep machine after) : Course machine after := by
  cases h with
  | interrupted | ticked | streamEnded =>
      exact .offStream ⟨(OffStream.refl machine).history, rfl⟩
  | ready | resubscribed => exact .offStream machine.offStream_beginPass
  | handled _ _ _ _ hnew _ => exact .handled (history_record ..) rfl hnew
  | @repeated caller command mailbox hphase _ _ hrepeats =>
      obtain ⟨quiet, hdown⟩ := machine.breaksDown_repeated caller command mailbox
      obtain ⟨hhistory, hregistry⟩ := hdown.offStream
      refine .repeated hrepeats ⟨hhistory, hregistry⟩ ⟨hdown.phase, ?_, ?_⟩ hphase
      · exact hdown.connected
      · exact ⟨quiet, hdown.isQuiet, hdown.history⟩
  | left => exact .offStream (machine.offStream_leave _)
  | talked _ htalk =>
      obtain ⟨phase, requestCount, answer, talk, hwith, -, -, rfl⟩ := htalk.eq
      exact .offStream ⟨⟨talk, hwith.isOffStream, history_record ..⟩, rfl⟩
  | @fetched _ _ _ _ _ query logs =>
      refine .offStream (OffStream.trans ?_ (passEnds_completePass ..).offStream)
      exact machine.offStream_record (History.isOffStream_singleton trivial)
  | lost =>
      refine .offStream (OffStream.trans ?_ (offStream_beginPass _))
      refine OffStream.trans ?_ (offStream_notifyDisconnected _)
      exact ⟨⟨[.lost _], History.isOffStream_singleton trivial, rfl⟩, rfl⟩
  | took => exact course_took
  | ended =>
      obtain ⟨callers, heq, -⟩ := machine.closeMailbox_eq
      rw [heq]
      exact .offStream ⟨(OffStream.refl machine).history, rfl⟩

theorem OutsideStep.course (h : OutsideStep machine after) : Course machine after := by
  have haside := h.aside
  refine .offStream ⟨?_, haside.registry⟩
  rcases haside.history with heq | ⟨number, log, heq⟩
  · exact ⟨[], History.isWithClient_nil.isOffStream, heq⟩
  · exact ⟨[.accepted number log], History.isOffStream_singleton trivial, heq⟩

/-- Nothing that has happened is forgotten. -/
theorem Course.grows (h : Course machine after) :
    ∃ burst, after.history = burst ++ machine.history := by
  cases h with
  | offStream haside =>
      obtain ⟨⟨burst, -, heq⟩, -⟩ := haside
      exact ⟨burst, heq⟩
  | handled hhistory => exact ⟨_, hhistory⟩
  | @repeated caller command _ hdown =>
      obtain ⟨⟨burst, -, heq⟩, -⟩ := hdown
      refine ⟨burst ++ [.handled caller command], ?_⟩
      rw [heq, history_record, List.append_assoc]
  | @handedOut log hhistory =>
      refine ⟨History.handOut log (History.receivers log machine.registry) ++ [.took log], ?_⟩
      rw [hhistory, List.append_assoc]
      rfl
  | @brokeDown log before _ _ _ _ hdown =>
      obtain ⟨⟨burst, -, heq⟩, -⟩ := hdown
      refine ⟨burst ++ (History.handOut log before ++ [.took log]), ?_⟩
      rw [heq, history_record]
      simp only [List.append_assoc]

theorem Reachable.grows_of_perform? (h : Reachable machine) {move : Move}
    (hperform : machine.perform? move = some after) :
    ∃ burst, after.history = burst ++ machine.history := by
  by_cases hmove : move = .step .control
  · subst hmove
    exact (controlStep_of_stepControl? hperform).course.grows
  · exact (outsideStep_of_perform? hmove h.idle_of_created hperform).course.grows

theorem ControlStep.phase_ne_crashed (h : ControlStep machine after) :
    machine.phase ≠ .crashed := by
  intro hcrashed
  cases h with
  | handled hphase | repeated hphase | left hphase =>
      rw [hcrashed] at hphase
      cases hphase
  | talked _ htalk =>
      obtain ⟨-, -, -, -, -, hphase, -, -⟩ := htalk.eq
      rw [hcrashed] at hphase
      cases hphase
  | interrupted hphase | ready hphase | fetched hphase | lost hphase | resubscribed hphase
  | ticked hphase | took hphase | streamEnded hphase | ended hphase =>
      rw [hcrashed] at hphase
      cases hphase

/-! ## The registry -/

theorem Course.registry_eq (h : Course machine after)
    (hregistry : machine.registry = machine.history.registry) :
    after.registry = after.history.registry := by
  cases h with
  | offStream haside => rw [haside.registry, hregistry, haside.sameRoutes.registry]
  | @handled caller command hhistory hafter =>
      rw [hhistory, hafter, hregistry]
      cases command
      all_goals rfl
  | repeated hrepeats hdown =>
      -- The request is in the history, but a pair that is registered again changes nothing.
      have hstays := Registry.apply_of_repeats (hregistry ▸ hrepeats)
      rw [hdown.registry, hdown.sameRoutes.registry, history_record]
      exact hregistry.trans hstays.symm
  | handedOut hhistory hafter =>
      rw [hhistory, hafter, hregistry, History.registry_handOut]
      rfl
  | @brokeDown log before _ _ _ _ hdown =>
      rw [hdown.registry, hdown.sameRoutes.registry, history_record, List.append_assoc,
        History.registry_handOut]
      exact hregistry

/-- The registry is what the handled requests lead to. -/
theorem Reachable.registry_eq (h : Reachable machine) :
    machine.registry = machine.history.registry := by
  induction h using Reachable.always with
  | initial => rfl
  | control _ _ hstep ih => exact hstep.course.registry_eq ih
  | outside _ _ hstep ih => exact hstep.course.registry_eq ih

theorem Reachable.wellFormed (h : Reachable machine) : machine.registry.WellFormed :=
  h.registry_eq ▸ Registry.wellFormed_history machine.history

end Machine

end LogRelay
