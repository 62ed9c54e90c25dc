import LogRelay.Proofs.Notifications
import LogRelay.Proofs.Shutdown

/-!
# What becomes of a request

A request is taken out of the mailbox by the control task, or given up with all others when the
control task is no more.  `MailStep` says what a step of the control task does to the mailbox and to
the calls, and `History.handlings` which requests were handled.
-/

namespace LogRelay

/-! ## Requests in a history -/

namespace History

/-- The requests that were handled, the latest first, each with who made it and with what had
happened before. -/
@[simp] def handlings : History → List (CallerId × Command × History)
  | [] => []
  | .handled caller command :: older => (caller, command, older) :: handlings older
  | _ :: older => handlings older

/-- The requests that were handled, the oldest first, with who made them. -/
def handled (history : History) : List (CallerId × Command) :=
  (history.handlings.map fun (caller, command, _) => (caller, command)).reverse

theorem handled_of_handlings {history later : History} {caller : CallerId} {command : Command}
    (h : later.handlings = (caller, command, history) :: history.handlings) :
    later.handled = history.handled ++ [(caller, command)] := by
  simp [handled, h]

theorem registry_eq_foldl (history : History) :
    history.registry = (history.handled.map (·.2)).foldl Registry.apply {} := by
  induction history with
  | nil => rfl
  | cons effect older ih =>
      cases effect
      case handled caller command =>
        rw [handled_of_handlings rfl, List.map_append, List.foldl_append, ← ih]
        rfl
      all_goals exact ih

theorem mem_handlings {newer older : History} {caller : CallerId} {command : Command} :
    (caller, command, older) ∈ handlings (newer ++ .handled caller command :: older) := by
  induction newer with
  | nil => exact List.mem_cons_self
  | cons effect newer ih =>
      cases effect
      case handled other command => exact List.mem_cons_of_mem _ ih
      all_goals exact ih

theorem IsOffStream.handlings {newer : History} (h : newer.IsOffStream) (older : History) :
    (newer ++ older).handlings = older.handlings := by
  refine append_eq_of_neutral older ?_
  intro effect hmem history
  have haside := h effect hmem
  cases effect
  case handled caller command => exact haside.elim
  all_goals rfl

theorem handlings_handling (caller : CallerId) (command : Command) (older : History) :
    (handling caller command ++ older).handlings =
      (caller, command, older) :: older.handlings := by
  cases command <;> rfl

theorem handlings_handOut (log : RawLog) (listeners : List ListenerId) (older : History) :
    (handOut log listeners ++ older).handlings = older.handlings := by
  refine append_eq_of_neutral older ?_
  intro effect hmem history
  obtain ⟨listener, -, rfl⟩ := List.mem_map.mp (List.mem_reverse.mp hmem)
  rfl

/-- The request was handled at a moment when the relay said that it was connected, or that it was
not. -/
def HandledAt (history : History) (caller : CallerId) (command : Command) (connected : Bool) :
    Prop :=
  ∃ newer older, history = newer ++ handling caller command ++ older ∧
    older.isConnected = connected

theorem HandledAt.append {older : History} {caller : CallerId} {command : Command}
    {connected : Bool} (h : older.HandledAt caller command connected) (newer : History) :
    (newer ++ older).HandledAt caller command connected := by
  obtain ⟨between, before, rfl, hconnected⟩ := h
  exact ⟨newer ++ between, before, by simp only [List.append_assoc], hconnected⟩

end History

/-! ## Answers -/

namespace Caller

variable {caller : Caller} {answer : Option Bool}

theorem request_answer (caller : Caller) (answer : Option Bool) :
    (caller.answer answer).request = caller.request := by
  unfold Caller.answer
  split <;> rfl

theorem answer_of_posted (h : caller.progress = .posted) :
    caller.answer answer = { caller with progress := .answered answer } := by
  simp [Caller.answer, h]

theorem answer_of_ne_posted (h : caller.progress ≠ .posted) : caller.answer answer = caller := by
  unfold Caller.answer
  split
  · next hposted => exact absurd hposted h
  · rfl

theorem answer_answer (caller : Caller) (answer : Option Bool) :
    (caller.answer answer).answer answer = caller.answer answer := by
  by_cases h : caller.progress = .posted
  · rw [answer_of_posted h]
    exact answer_of_ne_posted (by simp)
  · rw [answer_of_ne_posted h, answer_of_ne_posted h]

end Caller

theorem Mailbox.take?_eq_some {mailbox after : Mailbox} {request : CallerId × Command}
    (h : mailbox.take? = some (request, after)) :
    mailbox.requests = request :: after.requests ∧ after.isOpen = mailbox.isOpen := by
  unfold take? at h
  split at h
  · contradiction
  · next hrequests =>
    cases h
    exact ⟨hrequests, rfl⟩

namespace Machine

variable {machine after : Machine}

theorem getElem?_answerCaller (machine : Machine) (answer : Option Bool) (caller id : CallerId) :
    (machine.answerCaller answer caller).callers[id]? =
      if caller = id then machine.callers[id]?.map (Caller.answer answer)
      else machine.callers[id]? := by
  change (machine.callers.modify caller (Caller.answer answer))[id]? = _
  rw [List.getElem?_modify]
  split
  · rfl
  · exact Option.map_id'

/-- When the mailbox is closed, the calls whose requests are in it are answered. -/
theorem getElem?_closeMailbox (machine : Machine) (id : CallerId) :
    machine.closeMailbox.callers[id]? = machine.callers[id]?.map fun caller =>
      if id ∈ machine.mailbox.requests.map (·.1) then caller.answer none else caller := by
  rw [callers_closeMailbox]
  generalize machine.mailbox.requests = requests
  generalize machine.callers = callers
  induction requests generalizing callers with
  | nil => simp
  | cons request rest ih =>
      rw [List.foldl_cons, ih, List.getElem?_modify, Option.map_eq_map, Option.map_map]
      refine congrArg (Option.map · callers[id]?) (funext fun caller => ?_)
      by_cases hfirst : request.1 = id
      · by_cases hrest : id ∈ rest.map (·.1)
        · simp [hfirst, hrest, Caller.answer_answer]
        · simp [hfirst, hrest]
      · have hne : id ≠ request.1 := Ne.symm hfirst
        simp only [Function.comp_apply, hfirst, if_false, List.map_cons, List.mem_cons, hne,
          false_or]

/-! ## What a step of the control task does to the mailbox -/

/-- What a step of the control task does to the mailbox and to the calls. -/
inductive MailStep (machine after : Machine) : Prop
  /-- It leaves them alone. -/
  | aside (hmailbox : after.mailbox = machine.mailbox) (hcallers : after.callers = machine.callers)
      (hhandlings : after.history.handlings = machine.history.handlings)
  /-- It takes a request out, handles it and answers the call. -/
  | handled {id : CallerId} {command : Command} {mailbox : Mailbox}
      (hhandles : machine.phase.handlesRequests = true) (hsignal : machine.signalled = false)
      (htake : machine.mailbox.take? = some ((id, command), mailbox))
      (hnew : ¬machine.registry.Repeats command) (hmailbox : after.mailbox = mailbox)
      (hcallers : after.callers = (machine.answerCaller (some machine.connected) id).callers)
      (hhistory : after.history = History.handling id command ++ machine.history)
  /-- It breaks down over a request, and gives up all others. -/
  | repeated {id : CallerId} {command : Command} {mailbox : Mailbox}
      (hhandles : machine.phase.handlesRequests = true)
      (htake : machine.mailbox.take? = some ((id, command), mailbox))
      (hrepeats : machine.registry.Repeats command) (hphase : after.phase = .crashed)
      (hmailbox : after.mailbox = mailbox.close)
      (hcallers : after.callers = machine.closeMailbox.callers)
      (hhistory : ∃ quiet, History.IsQuiet quiet ∧
        after.history = quiet ++ .handled id command :: machine.history)
  /-- It is no more, and gives up all requests. -/
  | closed (hover : after.phase.isOver = true) (hmailbox : after.mailbox = machine.mailbox.close)
      (hcallers : after.callers = machine.closeMailbox.callers)
      (hhandlings : after.history.handlings = machine.history.handlings)

theorem BreaksDown.mailbox {quiet : History} (h : BreaksDown machine after quiet) :
    after.mailbox = machine.mailbox.close := by
  obtain ⟨subscriptions, callers, -, -, rfl⟩ := h.eq
  rfl

theorem BreaksDown.mailStep {start : Machine} {quiet : History} (h : BreaksDown machine after quiet)
    (hmailbox : machine.mailbox = start.mailbox) (hcallers : machine.callers = start.callers)
    (hhandlings : machine.history.handlings = start.history.handlings) : MailStep start after := by
  refine .closed ?_ ?_ ?_ ?_
  · rw [h.phase]
    rfl
  · rw [h.mailbox, hmailbox]
  · rw [h.callers, callers_closeMailbox, callers_closeMailbox, hmailbox, hcallers]
  · rw [h.history, h.isQuiet.isWithClient.isOffStream.handlings, hhandlings]

theorem Adopts.mail {fresh : Option Nat} {logs : List RawLog}
    (h : Adopts machine after fresh logs) :
    after.mailbox = machine.mailbox ∧ after.callers = machine.callers ∧
      after.history.handlings = machine.history.handlings := by
  obtain ⟨⟨burst, hburst, hhistory⟩, -⟩ := h.offStream
  obtain ⟨quiet, subscriptions, -, -, rfl⟩ := h.eq
  refine ⟨rfl, rfl, ?_⟩
  rw [hhistory, hburst.handlings]

theorem PassEnds.mailStep {start : Machine} {fresh : Option Nat} {logs : List RawLog}
    (h : PassEnds machine fresh logs after) (hmailbox : machine.mailbox = start.mailbox)
    (hcallers : machine.callers = start.callers)
    (hhandlings : machine.history.handlings = start.history.handlings) : MailStep start after := by
  cases h with
  | overcrowded _ hdown => exact hdown.mailStep hmailbox hcallers hhandlings
  | restless hadopts _ hdown =>
      obtain ⟨hmailbox', hcallers', hhandlings'⟩ := hadopts.mail
      exact hdown.mailStep (hmailbox'.trans hmailbox) (hcallers'.trans hcallers)
        (hhandlings'.trans hhandlings)
  | completed hadopts =>
      obtain ⟨hmailbox', hcallers', hhandlings'⟩ := hadopts.mail
      exact .aside (hmailbox'.trans hmailbox) (hcallers'.trans hcallers)
        (hhandlings'.trans hhandlings)

theorem mailStep_beginPass {start : Machine} (hmailbox : machine.mailbox = start.mailbox)
    (hcallers : machine.callers = start.callers)
    (hhandlings : machine.history.handlings = start.history.handlings) :
    MailStep start machine.beginPass := by
  rw [beginPass_eq]
  split
  · exact (passEnds_completePass ..).mailStep hmailbox hcallers hhandlings
  · exact .aside hmailbox hcallers hhandlings

theorem mailStep_dispatch {start : Machine} {log : RawLog}
    (hmailbox : machine.mailbox = start.mailbox) (hcallers : machine.callers = start.callers)
    (hhandlings : machine.history.handlings = start.history.handlings) :
    MailStep start (machine.dispatch log) := by
  rcases machine.dispatch_cases log with ⟨-, heq⟩ | ⟨before, _, _, quiet, -, -, hdown⟩
  · rw [heq]
    refine .aside hmailbox hcallers ?_
    rw [history_record, History.handlings_handOut, hhandlings]
  · refine hdown.mailStep hmailbox hcallers ?_
    rw [history_record, History.handlings_handOut, hhandlings]

theorem ControlStep.mailStep (h : ControlStep machine after) : MailStep machine after := by
  cases h with
  | interrupted | ticked | streamEnded => exact .aside rfl rfl rfl
  | ready | resubscribed => exact mailStep_beginPass rfl rfl rfl
  | handled hhandles hsignal htake _ hnew hanswered =>
      exact .handled hhandles hsignal htake hnew rfl hanswered (history_record ..)
  | @repeated id command mailbox hhandles _ htake hrepeats =>
      obtain ⟨quiet, hdown⟩ := machine.breaksDown_repeated id command mailbox
      refine .repeated hhandles htake hrepeats hdown.phase hdown.mailbox ?_
        ⟨quiet, hdown.isQuiet, ?_⟩
      · -- The request that was taken out is given up like those that follow it.
        rw [hdown.callers, callers_closeMailbox, callers_closeMailbox,
          (Mailbox.take?_eq_some htake).1]
        rfl
      · exact hdown.history
  | left =>
      obtain ⟨quiet, quiet', subscriptions, hquiet, hquiet', -, heq⟩ :=
        machine.leave_eq machine.phase.fresh?
      have hstream := (machine.offStream_leave machine.phase.fresh?).history
      obtain ⟨burst, hburst, hhistory⟩ := hstream
      refine .aside ?_ ?_ ?_
      · rw [heq]
        rfl
      · rw [heq]
        rfl
      · rw [hhistory, hburst.handlings]
  | talked _ htalk =>
      obtain ⟨phase, requestCount, answer, talk, hwith, -, -, rfl⟩ := htalk.eq
      refine .aside rfl rfl ?_
      rw [history_record, hwith.isOffStream.handlings]
      rfl
  | fetched => exact (passEnds_completePass ..).mailStep rfl rfl rfl
  | lost =>
      rw [notifyDisconnected_eq]
      refine mailStep_beginPass rfl rfl ?_
      rw [history_record, (History.isOffStream_round false _).handlings]
      rfl
  | took => exact mailStep_dispatch rfl rfl rfl
  | ended =>
      obtain ⟨callers, heq, -⟩ := machine.closeMailbox_eq
      refine .closed rfl ?_ rfl ?_
      · rw [heq]
      · rw [heq]
        rfl

/-! ## Ends -/

theorem PassEnds.phase {fresh : Option Nat} {logs : List RawLog}
    (h : PassEnds machine fresh logs after) :
    after.phase.isActive = true ∨ after.phase = .crashed := by
  cases h with
  | overcrowded _ hdown | restless _ _ hdown => exact .inr hdown.phase
  | completed => exact .inl rfl

theorem phase_of_beginPass (machine : Machine) :
    machine.beginPass.phase.isActive = true ∨ machine.beginPass.phase = .crashed := by
  rw [beginPass_eq]
  split
  · exact (passEnds_completePass ..).phase
  · exact .inl rfl

/-- Without the shutdown signal the control task does not begin to end. -/
theorem ControlStep.phase_of_quiet (h : ControlStep machine after)
    (hquiet : machine.signalled = false) (hphase : machine.phase ≠ .joining) :
    after.phase = .waiting ∨ after.phase.isActive = true ∨ after.phase = .crashed := by
  cases h with
  | interrupted _ hsignal | left _ hsignal => cases hsignal.symm.trans hquiet
  | ended hjoining => exact absurd hjoining hphase
  | ready | resubscribed | lost => exact .inr (phase_of_beginPass _)
  | handled hhandles =>
      change machine.phase.afterHandling _ = _ ∨ (machine.phase.afterHandling _).isActive = _ ∨ _
      cases hcase : machine.phase
      case waiting => exact .inl rfl
      case processing => exact .inr (.inl rfl)
      all_goals
        rw [hcase] at hhandles
        cases hhandles
  | @repeated caller command mailbox =>
      obtain ⟨quiet, hdown⟩ := machine.breaksDown_repeated caller command mailbox
      exact .inr (.inr hdown.phase)
  | talked _ htalk =>
      obtain ⟨phase, requestCount, answer, talk, -, -, hpassing, rfl⟩ := htalk.eq
      refine .inr (.inl ?_)
      change phase.isActive = true
      cases phase
      case subscribing | backfilling => rfl
      all_goals cases hpassing
  | fetched => exact .inr (passEnds_completePass ..).phase
  | ticked | streamEnded => exact .inr (.inl rfl)
  | @took _ _ log pipeline hprocessing =>
      rcases dispatch_cases ({ machine with pipeline }.record [.took log]) log with
        ⟨-, heq⟩ | ⟨_, _, _, quiet, -, -, hdown⟩
      · rw [heq]
        exact .inr (.inl (congrArg Phase.isActive hprocessing))
      · exact .inr (.inr hdown.phase)

/-- The control task only ends because of the shutdown signal. -/
theorem Reachable.signalled_of_leaving (h : Reachable machine)
    (hphase : machine.phase = .joining ∨ machine.phase = .ended) : machine.signalled = true := by
  induction h using Reachable.always with
  | initial => rcases hphase with h | h <;> cases h
  | @control machine after _ _ hstep ih =>
      rw [hstep.frame.signalled]
      by_contra hquiet
      rw [Bool.not_eq_true] at hquiet
      have hnot : machine.phase ≠ .joining := by
        intro hjoining
        rw [ih (.inl hjoining)] at hquiet
        contradiction
      rcases hstep.phase_of_quiet hquiet hnot with h | h | h
      all_goals rcases hphase with hphase | hphase <;> simp [hphase, Phase.isActive] at h
  | outside _ _ hstep ih =>
      refine hstep.signalled_of_signalled (ih ?_)
      rcases hstep.aside.phase with hsame | ⟨-, hwaiting⟩
      · rwa [← hsame]
      · rw [hwaiting] at hphase
        rcases hphase with h | h <;> cases h

end Machine

end LogRelay
