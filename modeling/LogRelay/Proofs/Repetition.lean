import LogRelay.Proofs.Holding
import LogRelay.Proofs.Notifications
import LogRelay.Proofs.StopContract

/-!
# What registering a pair twice leaves behind

The control task breaks down over a pair that is registered again, and says nothing on its
way: what the relay says of its connection, and what every listener was last told, stays as
it was when the request was handled (`Aftermath`).  Nothing that can happen later changes it,
and that includes a call to stop the relay, which returns as usual.

Whether the relay then looks connected depends on what it was doing.

* While it waits for other services no pass has gathered anything, and it is not connected.
* While it processes, a pass has, and it is connected.

Requests are handled at no other time, so the relay is left looking connected exactly if a pass
has gathered its logs before (`connected_iff`).
-/

namespace LogRelay

/-- Whether the effect can follow the breakdown: the client sends a log, or a subscription is given
back. -/
def Effect.IsAftermath : Effect → Prop
  | .accepted .. | .unsubscribed _ => True
  | _ => False

namespace History

theorem IsQuiet.isAftermath {quiet : History} (h : quiet.IsQuiet) :
    ∀ effect ∈ quiet, effect.IsAftermath := by
  intro effect hmem
  have hdown := h effect hmem
  cases effect
  case unsubscribed number => exact trivial
  all_goals exact hdown.elim

theorem requests_handOut (log : RawLog) (listeners : List ListenerId) (older : History) :
    (handOut log listeners ++ older).requests = older.requests := by
  refine append_eq_of_neutral older fun effect hmem history => ?_
  obtain ⟨listener, -, rfl⟩ := List.mem_map.mp (List.mem_reverse.mp hmem)
  rfl

theorem requests_handling (caller : CallerId) (command : Command) (older : History) :
    (handling caller command ++ older).requests = (command, older.registry) :: older.requests := by
  cases command <;> rfl

theorem Repeated.of_requests {history later : History} (h : later.Repeated)
    (hrequests : later.requests = history.requests) : history.Repeated := by
  obtain ⟨request, hmem, hrepeats⟩ := h
  exact ⟨request, hrequests ▸ hmem, hrepeats⟩

/-- What was said last stays so in the aftermath. -/
theorem alike_of_aftermath {newer : History} (hnewer : ∀ effect ∈ newer, effect.IsAftermath)
    (older : History) :
    (newer ++ older).isConnected = older.isConnected ∧ (newer ++ older).passes = older.passes ∧
      ∀ listener, (newer ++ older).lastNotice? listener = older.lastNotice? listener := by
  have hneutral : ∀ {α : Type} (read : History → α),
      (∀ number log history, read (.accepted number log :: history) = read history) →
      (∀ number history, read (.unsubscribed number :: history) = read history) →
        read (newer ++ older) = read older := by
    intro α read haccepted hunsubscribed
    refine append_eq_of_neutral older fun effect hmem history => ?_
    have hkind := hnewer effect hmem
    cases effect
    case accepted number log => exact haccepted number log history
    case unsubscribed number => exact hunsubscribed number history
    all_goals exact hkind.elim
  refine ⟨hneutral isConnected ?_ ?_, hneutral passes ?_ ?_, fun listener =>
    hneutral (lastNotice? listener) ?_ ?_⟩
  all_goals intros; rfl

end History

namespace Machine

variable {machine after : Machine}

/-! ## Passes and the connection -/

theorem passes_ne_nil_of_passEnds {fresh : Option Nat} {logs : List RawLog}
    (h : PassEnds machine fresh logs after) : after.history.passes ≠ [] := by
  have hpasses := h.samePasses.passes
  intro hnil
  rw [hnil] at hpasses
  simp at hpasses

/-- No pass has gathered anything before the control task goes on to its first pass. -/
theorem Reachable.passes_eq_nil (h : Reachable machine) (hearly : machine.phase.isEarly = true) :
    machine.history.passes = [] := by
  induction h using Reachable.always with
  | initial => rfl
  | @control machine after _ _ hstep ih =>
      have hbefore : machine.phase = .waiting := by
        cases hstep.destination with
        | active hphase =>
            rw [Phase.isEarly_of_isActive hphase] at hearly
            cases hearly
        | crashed hphase | left hphase | ended _ hphase =>
            rw [hphase] at hearly
            cases hearly
        | waited hbefore => exact hbefore
      have hnone := ih (by rw [hbefore]; rfl)
      cases hstep.flow with
      | still hstill => rw [hstill.passes, hnone]
      | took _ _ _ hstill =>
          rw [hstill.passes]
          exact hnone
      | driedUp _ hstill =>
          rw [hstill.passes]
          exact hnone
      | gathered _ _ hends _ =>
          -- The first pass has gathered its logs, and so the control task processes.
          cases hends with
          | overcrowded _ hdown | restless _ _ hdown =>
              rw [hdown.phase] at hearly
              cases hearly
          | completed => cases hearly
  | outside _ _ hstep ih =>
      have haside := hstep.aside
      rw [haside.alike.passes]
      refine ih ?_
      rcases haside.phase with hsame | ⟨hidle, -⟩
      · rwa [← hsame]
      · rw [hidle]
        rfl

/-- The relay only says that it is connected once a pass has gathered its logs. -/
def ConnectsByPass (machine : Machine) : Prop :=
  machine.connected = true → machine.history.passes ≠ []

theorem ConnectsByPass.of_eq (h : ConnectsByPass machine)
    (hconnected : after.connected = machine.connected)
    (hpasses : after.history.passes = machine.history.passes) : ConnectsByPass after := by
  intro hafter
  rw [hpasses]
  exact h (hconnected ▸ hafter)

theorem ConnectsByPass.of_beginPass (h : ConnectsByPass machine) :
    ConnectsByPass machine.beginPass := by
  rw [beginPass_eq]
  split
  next => exact fun _ => passes_ne_nil_of_passEnds (passEnds_completePass ..)
  next => exact h.of_eq rfl rfl

theorem ConnectsByPass.of_controlStep (h : ConnectsByPass machine)
    (hstep : ControlStep machine after) : ConnectsByPass after := by
  cases hstep with
  | interrupted | ticked | streamEnded => exact h
  | ready | resubscribed => exact h.of_beginPass
  | @handled caller command mailbox callers =>
      have hsame := (History.isOffPass_handling caller command).samePasses machine.history
      exact h.of_eq rfl (by rw [history_record]; exact hsame.passes)
  | @repeated caller command mailbox =>
      obtain ⟨quiet, hdown⟩ := machine.breaksDown_repeated caller command mailbox
      exact h.of_eq hdown.connected hdown.samePasses.passes
  | left =>
      obtain ⟨quiet, quiet', subscriptions, -, -, -, heq⟩ :=
        machine.leave_eq machine.phase.fresh?
      intro hafter
      rw [heq] at hafter
      cases hafter
  | talked _ htalk =>
      obtain ⟨phase, requestCount, answer, talk, hwith, -, -, rfl⟩ := htalk.eq
      exact h.of_eq rfl (by rw [history_record]; exact (hwith.alike machine.history).passes)
  | fetched => exact fun _ => passes_ne_nil_of_passEnds (passEnds_completePass ..)
  | lost =>
      -- The listeners have just been told that the connection is lost.
      refine ConnectsByPass.of_beginPass fun hconnected => ?_
      rw [notifyDisconnected_eq] at hconnected
      cases hconnected
  | @took _ _ log pipeline =>
      have hsame := samePasses_dispatch ({ machine with pipeline }.record [.took log]) log
      refine h.of_eq ?_ hsame.passes
      rcases dispatch_cases ({ machine with pipeline }.record [.took log]) log with
        ⟨-, heq⟩ | ⟨_, _, _, quiet, -, -, hdown⟩
      · rw [heq]
        rfl
      · exact hdown.connected
  | ended =>
      obtain ⟨callers, heq, -⟩ := machine.closeMailbox_eq
      rw [heq]
      exact h

theorem Reachable.connectsByPass (h : Reachable machine) : ConnectsByPass machine := by
  induction h using Reachable.always with
  | initial =>
      intro hconnected
      cases hconnected
  | control _ _ hstep ih => exact ih.of_controlStep hstep
  | outside _ _ hstep ih => exact ih.of_eq hstep.aside.connected hstep.aside.alike.passes

/-- When requests are handled, the relay is connected exactly if there was a pass. -/
theorem Reachable.connected_iff (h : Reachable machine)
    (hhandles : machine.phase.handlesRequests = true) :
    machine.connected = true ↔ machine.history.passes ≠ [] := by
  refine ⟨h.connectsByPass, fun hpasses => ?_⟩
  cases hphase : machine.phase
  case waiting => exact absurd (h.passes_eq_nil (by rw [hphase]; rfl)) hpasses
  case processing nextTick stale logsOpen => exact h.processesConnected _ _ _ hphase
  all_goals
    rw [hphase] at hhandles
    cases hhandles

/-! ## The breakdown -/

/-- The control task has broken down over a request to register a pair again, and what the relay
says of its connection is what it said before. -/
structure Aftermath (machine : Machine) : Prop where
  phase : machine.phase = .crashed
  connected : machine.connected = true ↔ machine.history.passes ≠ []
  history : ∃ (newer : History) (caller : CallerId) (command : Command) (older : History),
    machine.history = newer ++ .handled caller command :: older ∧
      older.registry.Repeats command ∧ ∀ effect ∈ newer, effect.IsAftermath

theorem Aftermath.of_breaksOver {caller : CallerId} {command : Command} (hreach : Reachable machine)
    (hrepeats : machine.registry.Repeats command)
    (hhandles : machine.phase.handlesRequests = true)
    (hover : BreaksOver machine caller command after) : Aftermath after := by
  obtain ⟨quiet, hquiet, hhistory⟩ := hover.history
  have haftermath := hquiet.isAftermath
  have hpasses : after.history.passes = machine.history.passes := by
    rw [hhistory]
    exact (History.alike_of_aftermath haftermath (.handled caller command :: machine.history)).2.1
  refine ⟨hover.phase, ?_, quiet, caller, command, machine.history, hhistory, ?_, haftermath⟩
  · rw [hover.connected, hpasses]
    exact hreach.connected_iff hhandles
  · rw [← hreach.registry_eq]
    exact hrepeats

/-- A pair was registered that was registered already only if the control task has broken down over
it. -/
theorem Aftermath.of_controlStep (hreach : Reachable machine) (hstep : ControlStep machine after)
    (hbefore : ¬machine.history.Repeated) (hrepeated : after.history.Repeated) :
    Aftermath after := by
  cases hstep.course with
  | offStream haside =>
      obtain ⟨⟨burst, hburst, hhistory⟩, -⟩ := haside
      rw [hhistory] at hrepeated
      exact absurd (hrepeated.of_requests (hburst.requests machine.history)) hbefore
  | handled hhistory _ hnew =>
      obtain ⟨request, hmem, hrepeats⟩ := hrepeated
      rw [hhistory, History.requests_handling, ← hreach.registry_eq] at hmem
      rcases List.mem_cons.mp hmem with rfl | hmem
      · exact absurd hrepeats hnew
      · exact absurd ⟨request, hmem, hrepeats⟩ hbefore
  | repeated hrepeats _ hover hhandles => exact .of_breaksOver hreach hrepeats hhandles hover
  | handedOut hhistory =>
      rw [hhistory] at hrepeated
      exact absurd (hrepeated.of_requests (History.requests_handOut _ _ (.took _ :: _))) hbefore
  | @brokeDown log before _ _ _ _ hdown =>
      obtain ⟨⟨burst, hburst, hhistory⟩, -⟩ := hdown
      rw [hhistory, history_record, List.append_assoc] at hrepeated
      have htaken := hrepeated.of_requests (hburst.requests _)
      have hagain := htaken.of_requests (History.requests_handOut log before (.took log :: _))
      exact absurd hagain hbefore

theorem Aftermath.of_outsideStep (h : Aftermath machine) (hstep : OutsideStep machine after) :
    Aftermath after := by
  have haside := hstep.aside
  obtain ⟨newer, caller, command, older, hhistory, hrepeats, hnewer⟩ := h.history
  refine ⟨?_, ?_, ?_⟩
  · rcases haside.phase with hsame | ⟨hidle, -⟩
    · rw [hsame, h.phase]
    · rw [h.phase] at hidle
      cases hidle
  · rw [haside.connected, haside.alike.passes]
    exact h.connected
  · rcases haside.history with hsame | ⟨number, log, hmore⟩
    · exact ⟨newer, caller, command, older, hsame.trans hhistory, hrepeats, hnewer⟩
    · refine ⟨.accepted number log :: newer, caller, command, older, ?_, hrepeats, ?_⟩
      · rw [hmore, hhistory, List.cons_append]
      · exact List.forall_mem_cons.mpr ⟨trivial, hnewer⟩

theorem Reachable.aftermath (h : Reachable machine) (hrepeated : machine.history.Repeated) :
    Aftermath machine := by
  induction h using Reachable.always with
  | initial =>
      obtain ⟨request, hmem, -⟩ := hrepeated
      cases hmem
  | @control machine after hreach _ hstep ih =>
      by_cases hbefore : machine.history.Repeated
      · exact absurd (ih hbefore).phase hstep.phase_ne_crashed
      · exact .of_controlStep hreach hstep hbefore hrepeated
  | @outside machine after _ _ hstep ih =>
      refine (ih ?_).of_outsideStep hstep
      rcases hstep.aside.history with hsame | ⟨number, log, hmore⟩
      · rwa [hsame] at hrepeated
      · rw [hmore] at hrepeated
        exact hrepeated.of_requests rfl

/-- What is said in the aftermath stays so, however the run goes on. -/
theorem Aftermath.of_run {moves : List Move} (h : Aftermath machine) (hreach : Reachable machine)
    (hrun : machine.run? moves = some after) :
    after.connected = machine.connected ∧
      ∀ listener, after.history.lastNotice? listener = machine.history.lastNotice? listener := by
  refine (hreach.along (P := fun later => Aftermath later ∧ later.connected = machine.connected ∧
    ∀ listener, later.history.lastNotice? listener = machine.history.lastNotice? listener)
      ?_ ⟨h, rfl, fun _ => rfl⟩ hrun).2
  rintro first second move hfirst hperform ⟨hbroken, hconnected, hnotices⟩
  by_cases hmove : move = .step .control
  · subst hmove
    exact absurd hbroken.phase (controlStep_of_stepControl? hperform).phase_ne_crashed
  · have hstep := outsideStep_of_perform? hmove hfirst.idle_of_created hperform
    have haside := hstep.aside
    exact ⟨hbroken.of_outsideStep hstep, haside.connected.trans hconnected, fun listener =>
      (haside.alike.lastNotice? listener).trans (hnotices listener)⟩

/-- When a pair was registered that was registered already, the control task has broken down over
it, and since then nobody was told anything: what the relay says of its connection, and what
every listener was last told, is what it was at that moment, and stays so however the run
goes on and whoever stops the relay.  The relay looks disconnected to everybody exactly if no
pass had gathered its logs; otherwise it goes on saying that it is connected. -/
theorem Reachable.repetition_freezes_connection (h : Reachable machine)
    (hrepeated : machine.history.Repeated) :
    machine.phase = .crashed ∧
    (∃ (newer : History) (caller : CallerId) (command : Command) (older : History),
      machine.history = newer ++ .handled caller command :: older ∧
      older.registry.Repeats command ∧ (∀ effect ∈ newer, effect.IsAftermath) ∧
      machine.connected = older.isConnected ∧
      ∀ listener, machine.history.lastNotice? listener = older.lastNotice? listener) ∧
    (∀ moves after, machine.run? moves = some after → after.connected = machine.connected ∧
      ∀ listener, after.history.lastNotice? listener = machine.history.lastNotice? listener) ∧
    (machine.connected = true ↔ machine.history.passes ≠ []) ∧
    ((machine.connected = false ∧ ∀ listener,
      machine.history.lastNotice? listener ≠ some true) ↔ machine.history.passes = []) := by
  have hbroken := h.aftermath hrepeated
  have htruthful := h.truthful
  refine ⟨hbroken.phase, ?_, fun moves after => hbroken.of_run h, hbroken.connected, ?_⟩
  · obtain ⟨newer, caller, command, older, hhistory, hrepeats, hnewer⟩ := hbroken.history
    obtain ⟨hconnected, -, hnotices⟩ :=
      History.alike_of_aftermath hnewer (.handled caller command :: older)
    refine ⟨newer, caller, command, older, hhistory, hrepeats, hnewer, ?_, fun listener => ?_⟩
    · rw [htruthful.connected, hhistory, hconnected]
      rfl
    · rw [hhistory, hnotices]
      rfl
  · constructor
    · rintro ⟨hconnected, -⟩
      by_contra hpasses
      rw [hbroken.connected.mpr hpasses] at hconnected
      cases hconnected
    · intro hpasses
      have hconnected : machine.connected = false :=
        Bool.eq_false_iff.mpr fun hsays => hbroken.connected.mp hsays hpasses
      refine ⟨hconnected, fun listener htold => ?_⟩
      cases (htruthful.told listener htold).1.symm.trans hconnected

end Machine

/-! ## A pair that is registered twice while the relay processes -/

namespace Sample

/-- After a log was delivered, its listener is registered again, and then the relay is stopped. -/
def doubled : Machine :=
  (machine.run? [.call (.command (.register address 0)), .step (.caller 1), .step .control,
    .call .stop, .step (.caller 2), .step (.caller 2)]).getD default

end Sample

namespace Machine

/-- The call to stop the relay has returned, but the relay says that it is connected, as the
listener was told last, because a pass had gathered its logs. -/
theorem sample_repetition_freezes_connection :
    Sample.doubled.Reachable ∧ Sample.doubled.history.Repeated ∧
      Sample.doubled.Returned 2 (.stopped (.ok ())) ∧ Sample.doubled.phase = .crashed ∧
      Sample.doubled.history.passes ≠ [] ∧ Sample.doubled.connected = true ∧
      Sample.doubled.history.lastNotice? 0 = some true := by
  have hreach : Sample.doubled.Reachable := Sample.reachable.getD_run? (by decide)
  have hrepeated : Sample.doubled.history.Repeated := by decide
  have hpasses : Sample.doubled.history.passes ≠ [] := by decide
  obtain ⟨hphase, -, -, hconnected, -⟩ := hreach.repetition_freezes_connection hrepeated
  exact ⟨hreach, hrepeated, ⟨_, rfl, rfl⟩, hphase, hpasses, hconnected.mpr hpasses, by decide⟩

end Machine

end LogRelay
