import LogRelay.Proofs.Mailing

/-!
# Requests in the mailbox

A request is put into the mailbox once, by the call that makes it.  Along a run, the requests that
were put in (`arrivals`) are those that were handled, followed by those that are in the mailbox and
by those that were given up, in this order (`Queued`).
-/

namespace LogRelay

namespace Machine

variable {machine after : Machine} {move : Move}

/-! ## The requests of a run -/

/-- The requests that a move puts into the mailbox. -/
def entered (machine after : Machine) : Move → List (CallerId × Command)
  | .step (.caller _) => after.mailbox.requests.drop machine.mailbox.requests.length
  | _ => []

/-- The requests that are put into the mailbox in a run, in this order. -/
def arrivals (machine : Machine) : List Move → List (CallerId × Command)
  | [] => []
  | move :: moves =>
      match machine.perform? move with
      | none => []
      | some after => machine.entered after move ++ after.arrivals moves

/-- There is nobody who would handle a request. -/
def IsDeaf (machine : Machine) : Prop := machine.raised = true ∨ machine.phase = .crashed

/-- Where a call stands that came to this point by the requests that have arrived. -/
inductive Stands (machine : Machine) (arrived : List (CallerId × Command)) (id : CallerId) :
    Caller → Prop
  | stop {progress : CallProgress CallResult} (hnew : id ∉ arrived.map (·.1)) :
      Stands machine arrived id ⟨.stop, progress⟩
  | waits {command : Command} {progress : CallProgress CallResult}
      (hprogress : progress = .fresh ∨ progress = .inLine) (hnew : id ∉ arrived.map (·.1)) :
      Stands machine arrived id ⟨.command command, progress⟩
  | posted {command : Command} (hmem : (id, command) ∈ machine.mailbox.requests) :
      Stands machine arrived id ⟨.command command, .posted⟩
  | answered {command : Command} {connected : Bool}
      (hhandled : machine.history.HandledAt id command connected) :
      Stands machine arrived id ⟨.command command, .answered (some connected)⟩
  | givenUp {command : Command} (hdeaf : machine.IsDeaf) :
      Stands machine arrived id ⟨.command command, .answered none⟩
  | accepted {command : Command} {connected : Bool}
      (hhandled : machine.history.HandledAt id command connected) :
      Stands machine arrived id ⟨.command command, .done (acceptance connected command)⟩
  | refused {command : Command} (hdeaf : machine.IsDeaf) :
      Stands machine arrived id ⟨.command command, .done (refusal command)⟩

/-- How far a call can be whose request was handled. -/
inductive Concludes (command : Command) (connected : Bool) : CallProgress CallResult → Prop
  | answered : Concludes command connected (.answered (some connected))
  | accepted : Concludes command connected (.done (acceptance connected command))
  | refused : Concludes command connected (.done (refusal command))

/-- The requests that have arrived in the mailbox of a relay. -/
structure Queued (machine : Machine) (arrived : List (CallerId × Command)) : Prop where
  /-- Those that were handled are followed by those in the mailbox; the others were given up. -/
  order : ∃ lost, arrived = machine.history.handled ++ machine.mailbox.requests ++ lost ∧
    (machine.mailbox.isOpen = true → lost = [])
  nodup : (arrived.map (·.1)).Nodup
  made : ∀ request ∈ arrived,
    ∃ progress, machine.callers[request.1]? = some ⟨.command request.2, progress⟩
  stands : ∀ (id : CallerId) (caller : Caller), machine.callers[id]? = some caller →
    Stands machine arrived id caller
  posted : machine.signalled = false → ∀ request ∈ machine.mailbox.requests,
    machine.callers[request.1]? = some ⟨.command request.2, .posted⟩
  closed : machine.mailbox.isOpen = false →
    machine.mailbox.requests = [] ∧ machine.phase.isOver = true
  concluded : ∀ (id : CallerId) (command : Command) (older : History),
    (id, command, older) ∈ machine.history.handlings → ¬older.registry.Repeats command →
      ∃ progress, machine.callers[id]? = some ⟨.command command, progress⟩ ∧
        Concludes command older.isConnected progress

theorem queued_initial (parameters : RelayParameters) (breaksOn : ListenerId → RawLog → Bool) :
    Queued (Machine.initial parameters breaksOn) [] where
  order := ⟨[], rfl, fun _ => rfl⟩
  nodup := List.nodup_nil
  made _ h := absurd h List.not_mem_nil
  stands _ _ h := absurd h (by simp [Machine.initial, create])
  posted _ _ h := absurd h List.not_mem_nil
  closed h := absurd h (by simp [Machine.initial, create])
  concluded _ _ _ h := absurd h List.not_mem_nil

variable {arrived : List (CallerId × Command)}

theorem Queued.mem_arrived (h : Queued machine arrived) {request : CallerId × Command}
    (hmem : request ∈ machine.mailbox.requests) : request ∈ arrived := by
  obtain ⟨lost, harrived, -⟩ := h.order
  rw [harrived]
  exact List.mem_append_left _ (List.mem_append_right _ hmem)

/-- The request of a call that waits for the mailbox has not arrived. -/
theorem Stands.not_arrived {id : CallerId} {command : Command} {progress : CallProgress CallResult}
    (h : Stands machine arrived id ⟨.command command, progress⟩)
    (hwaits : progress = .fresh ∨ progress = .inLine) : id ∉ arrived.map (·.1) := by
  cases h with
  | waits _ hnew => exact hnew
  | posted | answered | givenUp | accepted | refused => rcases hwaits with h | h <;> cases h

theorem quiet_before (hsignal : machine.signalled = true → after.signalled = true)
    (hquiet : after.signalled = false) : machine.signalled = false := by
  rw [Bool.eq_false_iff]
  intro hloud
  rw [hsignal hloud] at hquiet
  cases hquiet

/-- Once the control task is over, nobody handles requests, if the signal was raised and did not
come from silence. -/
theorem Reachable.isDeaf_of_isOver (h : Reachable machine) (hover : machine.phase.isOver = true)
    (hraised : machine.signalled = true → machine.raised = true) : machine.IsDeaf := by
  cases hphase : machine.phase
  case crashed => exact .inr hphase
  case ended => exact .inl (hraised (h.signalled_of_leaving (.inr hphase)))
  all_goals
    rw [hphase] at hover
    cases hover

theorem getElem?_progress_of_caller {id : CallerId} {caller : Caller}
    (hcaller : machine.callers[id]? = some caller) (progress : CallProgress CallResult)
    (other : CallerId) : (machine.progress id progress).callers[other]? =
      if id = other then some ⟨caller.request, progress⟩ else machine.callers[other]? := by
  rw [getElem?_progress]
  split
  · next hsame =>
    rw [← hsame, hcaller]
    rfl
  · rfl

theorem Stands.transfer {later : List (CallerId × Command)} {id : CallerId} {caller : Caller}
    (h : Stands machine arrived id caller)
    (hhistory : ∃ burst, after.history = burst ++ machine.history)
    (hdeaf : machine.IsDeaf → after.IsDeaf)
    (hmail : ∀ command, caller = ⟨.command command, .posted⟩ →
      (id, command) ∈ machine.mailbox.requests → (id, command) ∈ after.mailbox.requests)
    (hlater : id ∉ arrived.map (·.1) → id ∉ later.map (·.1)) : Stands after later id caller := by
  obtain ⟨burst, hburst⟩ := hhistory
  have hstill : ∀ {command connected}, machine.history.HandledAt id command connected →
      after.history.HandledAt id command connected := by
    intro command connected hhandled
    rw [hburst]
    exact hhandled.append burst
  cases h with
  | stop hnew => exact .stop (hlater hnew)
  | waits hprogress hnew => exact .waits hprogress (hlater hnew)
  | posted hmem => exact .posted (hmail _ rfl hmem)
  | answered hhandled => exact .answered (hstill hhandled)
  | givenUp hgone => exact .givenUp (hdeaf hgone)
  | accepted hhandled => exact .accepted (hstill hhandled)
  | refused hgone => exact .refused (hdeaf hgone)

/-! ## Steps of the control task -/

/-- A move that has nothing to do with requests. -/
theorem Queued.of_same (h : Queued machine arrived) (hmailbox : after.mailbox = machine.mailbox)
    (hcallers : after.callers = machine.callers)
    (hhistory : ∃ burst, after.history = burst ++ machine.history)
    (hhandlings : after.history.handlings = machine.history.handlings)
    (hdeaf : machine.IsDeaf → after.IsDeaf)
    (hsignal : machine.signalled = true → after.signalled = true)
    (hover : machine.phase.isOver = true → after.phase.isOver = true) : Queued after arrived := by
  have hhandled : after.history.handled = machine.history.handled := by
    rw [History.handled, hhandlings, History.handled]
  refine ⟨?_, h.nodup, ?_, ?_, ?_, ?_, ?_⟩
  · rw [hhandled, hmailbox]
    exact h.order
  · rw [hcallers]
    exact h.made
  · intro id caller hcaller
    rw [hcallers] at hcaller
    refine (h.stands id caller hcaller).transfer hhistory hdeaf ?_ fun hnew => hnew
    rw [hmailbox]
    exact fun _ _ hmem => hmem
  · intro hquiet
    rw [hmailbox, hcallers]
    exact h.posted (quiet_before hsignal hquiet)
  · intro hclosed
    rw [hmailbox] at hclosed ⊢
    obtain ⟨hempty, hbefore⟩ := h.closed hclosed
    exact ⟨hempty, hover hbefore⟩
  · rw [hhandlings, hcallers]
    exact h.concluded

/-- A request is taken out of the mailbox, handled and answered. -/
theorem Queued.of_handled (h : Queued machine arrived) {id : CallerId} {command : Command}
    {mailbox : Mailbox} (hsignal : machine.signalled = false)
    (htake : machine.mailbox.take? = some ((id, command), mailbox))
    (hconnected : machine.connected = machine.history.isConnected)
    (hmailbox : after.mailbox = mailbox)
    (hcallers : after.callers = (machine.answerCaller (some machine.connected) id).callers)
    (hhistory : after.history = History.handling id command ++ machine.history)
    (hdeaf : machine.IsDeaf → after.IsDeaf) : Queued after arrived := by
  obtain ⟨hrequests, hopen⟩ := Mailbox.take?_eq_some htake
  have hhandlings : after.history.handlings =
      (id, command, machine.history) :: machine.history.handlings := by
    rw [hhistory, History.handlings_handling]
  obtain ⟨lost, harrived, hlost⟩ := h.order
  have hnodup := h.nodup
  rw [harrived, hrequests] at hnodup
  -- No other request in the mailbox was made by the same call.
  have hother : ∀ request ∈ mailbox.requests, id ≠ request.1 := by
    intro request hmem hsame
    simp only [List.map_append, List.map_cons, List.append_assoc, List.cons_append] at hnodup
    have htail := (List.nodup_append.mp hnodup).2.1
    refine (List.nodup_cons.mp htail).1 (List.mem_append_left _ ?_)
    rw [hsame]
    exact List.mem_map_of_mem hmem
  have hfirst := h.posted hsignal (id, command) (by rw [hrequests]; exact List.mem_cons_self)
  have hafter : ∀ other, after.callers[other]? =
      if id = other then some ⟨.command command, .answered (some machine.connected)⟩
      else machine.callers[other]? := by
    intro other
    rw [hcallers, getElem?_answerCaller]
    split
    · next hsame =>
      subst hsame
      rw [hfirst, Option.map_some, Caller.answer_of_posted rfl]
    · rfl
  have hself : after.history.HandledAt id command machine.connected :=
    ⟨[], machine.history, hhistory, hconnected.symm⟩
  refine ⟨⟨lost, ?_, ?_⟩, h.nodup, ?_, ?_, ?_, ?_, ?_⟩
  · rw [History.handled_of_handlings hhandlings, hmailbox, harrived, hrequests]
    simp
  · rw [hmailbox, hopen]
    exact hlost
  · intro request hmem
    rw [hafter]
    split
    · next hsame =>
      obtain ⟨progress, hmade⟩ := h.made request hmem
      rw [← hsame, hfirst] at hmade
      cases hmade
      exact ⟨_, rfl⟩
    · exact h.made request hmem
  · intro other caller hcaller
    rw [hafter] at hcaller
    split at hcaller
    · next hsame =>
      subst hsame
      cases hcaller
      exact .answered hself
    · next hne =>
      refine (h.stands other caller hcaller).transfer ⟨_, hhistory⟩ hdeaf ?_ fun hnew => hnew
      intro otherCommand _ hmem
      rw [hrequests] at hmem
      rw [hmailbox]
      rcases List.mem_cons.mp hmem with hsame | hmem
      · exact absurd (congrArg Prod.fst hsame).symm hne
      · exact hmem
  · intro _ request hmem
    rw [hmailbox] at hmem
    rw [hafter, if_neg (hother request hmem)]
    exact h.posted hsignal request (by rw [hrequests]; exact List.mem_cons_of_mem _ hmem)
  · intro hclosed
    rw [hmailbox, hopen] at hclosed
    have hempty := (h.closed hclosed).1
    rw [hrequests] at hempty
    contradiction
  · intro other otherCommand older hmem hnew
    rw [hhandlings] at hmem
    rw [hafter]
    rcases List.mem_cons.mp hmem with hsame | hmem
    · cases hsame
      rw [if_pos rfl, hconnected]
      exact ⟨_, rfl, .answered⟩
    · obtain ⟨progress, hcaller, hconcludes⟩ := h.concluded other otherCommand older hmem hnew
      split
      · next hsame =>
        -- A call that waits for its answer was not handled before.
        subst hsame
        rw [hfirst] at hcaller
        cases hcaller
        cases hconcludes
      · exact ⟨progress, hcaller, hconcludes⟩

/-- The mailbox is closed.  Requests that are still in it, all but perhaps the first ones, are given
up. -/
theorem Queued.of_closed (h : Queued machine arrived) (taken rest : List (CallerId × Command))
    (hrequests : machine.mailbox.requests = taken ++ rest)
    (hempty : after.mailbox.requests = []) (hclosed : after.mailbox.isOpen = false)
    (hover : after.phase.isOver = true)
    (hcallers : after.callers = machine.closeMailbox.callers)
    (hhistory : ∃ burst, after.history = burst ++ machine.history)
    (hhandled : after.history.handled = machine.history.handled ++ taken)
    (hconcluded : ∀ (id : CallerId) (command : Command) (older : History),
      (id, command, older) ∈ after.history.handlings → ¬older.registry.Repeats command →
        (id, command, older) ∈ machine.history.handlings)
    (hdeaf : machine.IsDeaf → after.IsDeaf)
    (hgivenUp : ∀ (id : CallerId) (caller : Caller), machine.callers[id]? = some caller →
      caller.isDone = false → after.IsDeaf) : Queued after arrived := by
  obtain ⟨lost, harrived, -⟩ := h.order
  have hanswered : ∀ {id : CallerId} {caller : Caller}, machine.callers[id]? = some caller →
      ∃ later, after.callers[id]? = some later ∧ later.request = caller.request ∧
        (caller.progress ≠ .posted → later = caller) := by
    intro id caller hcaller
    rw [hcallers, getElem?_closeMailbox, hcaller, Option.map_some]
    split
    · exact ⟨_, rfl, Caller.request_answer .., Caller.answer_of_ne_posted⟩
    · exact ⟨_, rfl, rfl, fun _ => rfl⟩
  refine ⟨⟨rest ++ lost, ?_, ?_⟩, h.nodup, ?_, ?_, ?_, ?_, ?_⟩
  · rw [hhandled, hempty, harrived, hrequests]
    simp
  · intro hopen
    rw [hclosed] at hopen
    contradiction
  · intro request hmem
    obtain ⟨progress, hmade⟩ := h.made request hmem
    obtain ⟨⟨request, progress⟩, hlater, rfl, -⟩ := hanswered hmade
    exact ⟨progress, hlater⟩
  · intro id later hlater
    rw [hcallers, getElem?_closeMailbox] at hlater
    obtain ⟨caller, hcaller, rfl⟩ := Option.map_eq_some_iff.mp hlater
    have hstands := h.stands id caller hcaller
    by_cases hposted : ∃ command, caller = ⟨.command command, .posted⟩
    · obtain ⟨command, rfl⟩ := hposted
      cases hstands with
      | posted hmem =>
          rw [if_pos (List.mem_map_of_mem hmem), Caller.answer_of_posted rfl]
          exact .givenUp (hgivenUp id _ hcaller rfl)
      | waits hprogress => rcases hprogress with h | h <;> cases h
    · -- All others keep their answers, as only calls with requests can wait for one.
      have hsame : (if id ∈ machine.mailbox.requests.map (·.1) then caller.answer none
          else caller) = caller := by
        split
        · next hmem =>
          obtain ⟨request, hrequest, rfl⟩ := List.mem_map.mp hmem
          obtain ⟨progress, hmade⟩ := h.made request (h.mem_arrived hrequest)
          rw [hcaller] at hmade
          cases hmade
          refine Caller.answer_of_ne_posted ?_
          rintro rfl
          exact hposted ⟨request.2, rfl⟩
        · rfl
      rw [hsame]
      exact hstands.transfer hhistory hdeaf (fun command heq _ => absurd ⟨command, heq⟩ hposted)
        fun hnew => hnew
  · intro _ request hmem
    rw [hempty] at hmem
    cases hmem
  · intro _
    exact ⟨hempty, hover⟩
  · intro id command older hmem hnew
    obtain ⟨progress, hcaller, hconcludes⟩ :=
      h.concluded id command older (hconcluded id command older hmem hnew) hnew
    obtain ⟨later, hlater, -, hsame⟩ := hanswered hcaller
    have hnot : progress ≠ .posted := by
      rintro rfl
      cases hconcludes
    rw [hsame hnot] at hlater
    exact ⟨progress, hlater, hconcludes⟩

theorem Queued.of_controlStep (h : Queued machine arrived) (hreach : Reachable machine)
    (hafter : Reachable after) (hcontrol : machine.stepControl? = some after) :
    Queued after arrived := by
  have hstep := controlStep_of_stepControl? hcontrol
  have hgrows := hstep.course.grows
  have hrunning := hstep.phase_ne_crashed
  have hframe := hstep.frame
  have hdeaf : machine.IsDeaf → after.IsDeaf := by
    rintro (hraised | hcrashed)
    · exact .inl (hframe.raised.trans hraised)
    · exact absurd hcrashed hrunning
  cases hstep.mailStep with
  | aside hmailbox hcallers hhandlings =>
      refine h.of_same hmailbox hcallers hgrows hhandlings hdeaf (hframe.signalled.trans ·) ?_
      intro hover
      rw [stepControl?_eq_none hover] at hcontrol
      contradiction
  | handled _ hsignal htake _ hmailbox hcallers hhistory =>
      exact h.of_handled hsignal htake hreach.truthful.connected hmailbox hcallers hhistory hdeaf
  | @repeated id command mailbox _ htake hrepeats hphase hmailbox hcallers hhistory =>
      obtain ⟨quiet, hquiet, hhistory⟩ := hhistory
      have hhandlings : after.history.handlings =
          (id, command, machine.history) :: machine.history.handlings := by
        rw [hhistory, hquiet.isWithClient.isOffStream.handlings]
        rfl
      refine h.of_closed [(id, command)] mailbox.requests (Mailbox.take?_eq_some htake).1 ?_ ?_ ?_
        hcallers hgrows (History.handled_of_handlings hhandlings) ?_ hdeaf ?_
      · rw [hmailbox]
        rfl
      · rw [hmailbox]
        rfl
      · rw [hphase]
        rfl
      · intro other otherCommand older hmem hnew
        rw [hhandlings] at hmem
        rcases List.mem_cons.mp hmem with hsame | hmem
        · cases hsame
          rw [← hreach.registry_eq] at hnew
          exact absurd hrepeats hnew
        · exact hmem
      · exact fun _ _ _ _ => .inr hphase
  | closed hover hmailbox hcallers hhandlings =>
      refine h.of_closed [] machine.mailbox.requests rfl ?_ ?_ hover hcallers hgrows ?_ ?_ hdeaf ?_
      · rw [hmailbox]
        rfl
      · rw [hmailbox]
        rfl
      · rw [History.handled, hhandlings, List.append_nil, History.handled]
      · rw [hhandlings]
        exact fun _ _ _ hmem _ => hmem
      · intro id caller hcaller hdone
        refine hafter.isDeaf_of_isOver hover fun hsignal => ?_
        exact hframe.raised.trans
          (raised_of_signalled hcaller hdone (hframe.signalled.symm.trans hsignal))

/-! ## Steps of the calls -/

/-- A call moves on without putting a request into the mailbox. -/
theorem Queued.of_progress (h : Queued machine arrived) {id : CallerId} {caller : Caller}
    {progress : CallProgress CallResult} (hcaller : machine.callers[id]? = some caller)
    (hcallers : after.callers = (machine.progress id progress).callers)
    (hhistory : after.history = machine.history) (hphase : after.phase = machine.phase)
    (hrequests : after.mailbox.requests = machine.mailbox.requests)
    (hopen : after.mailbox.isOpen = machine.mailbox.isOpen)
    (hraised : machine.raised = true → after.raised = true)
    (hsignal : machine.signalled = true → after.signalled = true)
    (hposted : after.signalled = false → id ∉ machine.mailbox.requests.map (·.1))
    (hstands : Stands after arrived id ⟨caller.request, progress⟩)
    (hconcludes : ∀ command connected, caller.request = .command command →
      Concludes command connected caller.progress → Concludes command connected progress) :
    Queued after arrived := by
  have hdeaf : machine.IsDeaf → after.IsDeaf := by
    rintro (hbefore | hcrashed)
    · exact .inl (hraised hbefore)
    · exact .inr (hphase.trans hcrashed)
  have hafter : ∀ other, after.callers[other]? =
      if id = other then some ⟨caller.request, progress⟩ else machine.callers[other]? := by
    intro other
    rw [hcallers, getElem?_progress_of_caller hcaller]
  refine ⟨?_, h.nodup, ?_, ?_, ?_, ?_, ?_⟩
  · rw [hhistory, hrequests, hopen]
    exact h.order
  · intro request hmem
    obtain ⟨before, hmade⟩ := h.made request hmem
    rw [hafter]
    split
    · next hsame =>
      rw [← hsame, hcaller] at hmade
      cases hmade
      exact ⟨progress, rfl⟩
    · exact ⟨before, hmade⟩
  · intro other found hfound
    rw [hafter] at hfound
    split at hfound
    · next hsame =>
      cases hfound
      rwa [← hsame]
    · refine (h.stands other found hfound).transfer ⟨[], hhistory⟩ hdeaf ?_ fun hnew => hnew
      rw [hrequests]
      exact fun _ _ hmem => hmem
  · intro hquiet request hmem
    rw [hrequests] at hmem
    rw [hafter, if_neg]
    · exact h.posted (quiet_before hsignal hquiet) request hmem
    · rintro rfl
      exact hposted hquiet (List.mem_map_of_mem hmem)
  · rw [hrequests, hopen, hphase]
    exact h.closed
  · intro other command older hmem hnew
    rw [hhistory] at hmem
    obtain ⟨before, hfound, hbefore⟩ := h.concluded other command older hmem hnew
    rw [hafter]
    split
    · next hsame =>
      rw [← hsame, hcaller] at hfound
      cases hfound
      exact ⟨progress, rfl, hconcludes command older.isConnected rfl hbefore⟩
    · exact ⟨before, hfound, hbefore⟩

/-- A request is put into the mailbox. -/
theorem Queued.of_posted (h : Queued machine arrived) {id : CallerId} {command : Command}
    {progress : CallProgress CallResult}
    (hcaller : machine.callers[id]? = some ⟨.command command, progress⟩)
    (hwaits : progress = .fresh ∨ progress = .inLine) (hopen : machine.mailbox.isOpen = true)
    (hmailbox : after.mailbox = machine.mailbox.put id command)
    (hcallers : after.callers = (machine.progress id .posted).callers)
    (hhistory : after.history = machine.history)
    (hdeaf : machine.IsDeaf → after.IsDeaf)
    (hsignal : machine.signalled = true → after.signalled = true) :
    Queued after (arrived ++ [(id, command)]) := by
  have hnew := (h.stands id _ hcaller).not_arrived hwaits
  have hother : ∀ request ∈ arrived, id ≠ request.1 := by
    rintro request hmem rfl
    exact hnew (List.mem_map_of_mem hmem)
  have hrequests : after.mailbox.requests = machine.mailbox.requests ++ [(id, command)] := by
    rw [hmailbox]
    rfl
  have hafter : ∀ other, after.callers[other]? =
      if id = other then some ⟨.command command, .posted⟩ else machine.callers[other]? := by
    intro other
    rw [hcallers, getElem?_progress_of_caller hcaller]
  obtain ⟨lost, harrived, hlost⟩ := h.order
  refine ⟨⟨[], ?_, fun _ => rfl⟩, ?_, ?_, ?_, ?_, ?_, ?_⟩
  · rw [harrived, hlost hopen, hhistory, hrequests]
    simp
  · rw [List.map_append, List.nodup_append]
    refine ⟨h.nodup, List.nodup_singleton _, ?_⟩
    rintro other hmem _ hlast rfl
    rw [List.map_singleton, List.mem_singleton] at hlast
    rw [hlast] at hmem
    exact hnew hmem
  · intro request hmem
    rw [hafter]
    rcases List.mem_append.mp hmem with hmem | hmem
    · rw [if_neg (hother request hmem)]
      exact h.made request hmem
    · rw [List.mem_singleton.mp hmem, if_pos rfl]
      exact ⟨_, rfl⟩
  · intro other found hfound
    rw [hafter] at hfound
    split at hfound
    · next hsame =>
      cases hfound
      refine .posted ?_
      rw [hrequests, ← hsame]
      exact List.mem_append_right _ (List.mem_singleton_self _)
    · next hne =>
      refine (h.stands other found hfound).transfer ⟨[], hhistory⟩ hdeaf ?_ ?_
      · intro _ _ hmem
        rw [hrequests]
        exact List.mem_append_left _ hmem
      · intro habsent
        rw [List.map_append, List.mem_append, not_or, List.map_singleton, List.mem_singleton]
        exact ⟨habsent, Ne.symm hne⟩
  · intro hquiet request hmem
    rw [hrequests] at hmem
    rw [hafter]
    rcases List.mem_append.mp hmem with hmem | hmem
    · rw [if_neg (hother request (h.mem_arrived hmem))]
      exact h.posted (quiet_before hsignal hquiet) request hmem
    · rw [List.mem_singleton.mp hmem, if_pos rfl]
  · intro hclosed
    rw [hmailbox] at hclosed
    change machine.mailbox.isOpen = false at hclosed
    rw [hopen] at hclosed
    contradiction
  · intro other otherCommand older hmem hfresh
    rw [hhistory] at hmem
    obtain ⟨before, hfound, hbefore⟩ := h.concluded other otherCommand older hmem hfresh
    rw [hafter]
    split
    · next hsame =>
      rw [← hsame, hcaller] at hfound
      cases hfound
      rcases hwaits with rfl | rfl <;> cases hbefore
    · exact ⟨before, hfound, hbefore⟩

/-- A call that is refused has nobody left who would handle its request. -/
theorem Queued.isDeaf_of_refused (h : Queued machine arrived) (hreach : Reachable machine)
    {id : CallerId} {caller : Caller} (hcaller : machine.callers[id]? = some caller)
    (hdone : caller.isDone = false)
    (hcause : machine.signalled = true ∨ machine.mailbox.isOpen = false) : machine.IsDeaf := by
  rcases hcause with hsignal | hclosed
  · exact .inl (raised_of_signalled hcaller hdone hsignal)
  · exact hreach.isDeaf_of_isOver (h.closed hclosed).2 (raised_of_signalled hcaller hdone)

/-- A call to stop the relay puts no request into the mailbox. -/
theorem Queued.of_stop (h : Queued machine arrived) {id : CallerId}
    {before progress : CallProgress CallResult}
    (hcaller : machine.callers[id]? = some ⟨.stop, before⟩)
    (hcallers : after.callers = (machine.progress id progress).callers)
    (hhistory : after.history = machine.history) (hphase : after.phase = machine.phase)
    (hmailbox : after.mailbox = machine.mailbox)
    (hraised : machine.raised = true → after.raised = true)
    (hsignal : machine.signalled = true → after.signalled = true) : Queued after arrived := by
  have hnew : id ∉ arrived.map (·.1) := by
    cases h.stands id _ hcaller with
    | stop hnew => exact hnew
  refine h.of_progress hcaller hcallers hhistory hphase (by rw [hmailbox]) (by rw [hmailbox])
    hraised hsignal ?_ (.stop hnew) nofun
  intro _ hmem
  obtain ⟨request, hrequest, rfl⟩ := List.mem_map.mp hmem
  exact hnew (List.mem_map_of_mem (h.mem_arrived hrequest))

theorem append_entered_of_same (arrived : List (CallerId × Command)) (move : Move)
    (h : after.mailbox.requests = machine.mailbox.requests) :
    arrived ++ machine.entered after move = arrived := by
  unfold entered
  split
  · rw [h, List.drop_length, List.append_nil]
  · exact List.append_nil _

theorem Queued.of_callerStep (h : Queued machine arrived) (hreach : Reachable machine)
    {id : CallerId} {caller : Caller} (hcaller : machine.callers[id]? = some caller)
    (hstep : CallerStep machine id caller after)
    (hsignal : machine.signalled = true → after.signalled = true) :
    Queued after (arrived ++ machine.entered after (.step (.caller id))) := by
  have hstands := h.stands id caller hcaller
  have hdone := hstep.isDone_eq_false
  have hunmoved : after.mailbox.requests = machine.mailbox.requests →
      arrived ++ machine.entered after (.step (.caller id)) = arrived :=
    append_entered_of_same arrived _
  have hput : ∀ request, after.mailbox.requests = machine.mailbox.requests ++ [request] →
      machine.entered after (.step (.caller id)) = [request] := by
    intro request hrequests
    rw [entered, hrequests, List.drop_left]
  -- The request of a call that does not wait for an answer is not in the mailbox.
  have habsent : machine.signalled = false → caller.progress ≠ .posted →
      id ∉ machine.mailbox.requests.map (·.1) := by
    intro hquiet hnot hmem
    obtain ⟨request, hrequest, rfl⟩ := List.mem_map.mp hmem
    rw [h.posted hquiet request hrequest] at hcaller
    cases hcaller
    exact hnot rfl
  obtain ⟨request, progress⟩ := caller
  cases hstep with
  | advanced hrequest hquiet hwaits hprogress hopen =>
      cases hrequest
      have hnew := hstands.not_arrived hwaits
      rcases hprogress with ⟨rfl, rfl⟩ | ⟨rfl, rfl⟩
      · rw [hunmoved rfl]
        refine h.of_progress hcaller rfl rfl rfl rfl rfl (fun hraised => hraised) hsignal ?_
          (.waits (.inr rfl) hnew) ?_
        · intro _
          refine habsent hquiet ?_
          rintro (rfl : progress = .posted)
          rcases hwaits with hwaits | hwaits <;> cases hwaits
        · rintro command connected - hbefore
          rcases hwaits with rfl | rfl <;> cases hbefore
      · rw [hput _ rfl]
        exact h.of_posted hcaller hwaits hopen rfl rfl rfl (fun hdeaf => hdeaf) hsignal
  | @accepted command answer hrequest hquiet hprogress =>
      cases hrequest
      cases hprogress
      rw [hunmoved rfl]
      refine h.of_progress hcaller rfl rfl rfl rfl rfl (fun hraised => hraised) hsignal
        (fun _ => habsent hquiet nofun) ?_ ?_
      · cases hstands with
        | answered hhandled => exact .accepted hhandled
        | waits hprogress => rcases hprogress with h | h <;> cases h
        | givenUp hdeaf =>
            have hrefusal : acceptance false command = refusal command := by cases command <;> rfl
            rw [Option.getD_none, hrefusal]
            exact .refused hdeaf
      · rintro _ connected hsame hbefore
        cases hsame
        cases hbefore
        exact .accepted
  | @refused command hrequest _ hcause =>
      cases hrequest
      rw [hunmoved rfl]
      have hdeaf := h.isDeaf_of_refused hreach hcaller hdone (hcause.imp_right (·.1))
      refine h.of_progress hcaller rfl rfl rfl rfl rfl (fun hraised => hraised) hsignal ?_
        (.refused hdeaf) ?_
      · intro hquiet
        rcases hcause with hloud | ⟨hclosed, -⟩
        · rw [hsignal hloud] at hquiet
          contradiction
        · rw [(h.closed hclosed).1]
          exact List.not_mem_nil
      · rintro _ connected hsame -
        cases hsame
        exact .refused
  | stopRefused hrequest =>
      cases hrequest
      rw [hunmoved rfl]
      exact h.of_stop hcaller rfl rfl rfl rfl (fun hraised => hraised) hsignal
  | stopBegun hrequest =>
      cases hrequest
      rw [hunmoved rfl]
      exact h.of_stop hcaller rfl rfl rfl rfl (fun _ => rfl) hsignal
  | stopDone hrequest =>
      cases hrequest
      rw [hunmoved rfl]
      exact h.of_stop hcaller rfl rfl rfl rfl (fun hraised => hraised) hsignal

/-! ## Runs -/

/-- A call is made. -/
theorem Queued.of_called (h : Queued machine arrived) (request : CallRequest)
    (hheld : machine.held = true) : Queued (machine.call request) arrived := by
  have hlength : ∀ id ∈ arrived.map (·.1), id < machine.callers.length := by
    intro id hmem
    obtain ⟨request, hrequest, rfl⟩ := List.mem_map.mp hmem
    obtain ⟨progress, hmade⟩ := h.made request hrequest
    exact (List.getElem?_eq_some_iff.mp hmade).1
  have hkept : ∀ {id : CallerId} {caller : Caller}, machine.callers[id]? = some caller →
      (machine.call request).callers[id]? = some caller := by
    intro id caller hcaller
    rw [call, List.getElem?_append_left (List.getElem?_eq_some_iff.mp hcaller).1, hcaller]
  refine ⟨h.order, h.nodup, ?_, ?_, ?_, h.closed, ?_⟩
  · intro made hmem
    obtain ⟨progress, hmade⟩ := h.made made hmem
    exact ⟨progress, hkept hmade⟩
  · intro id caller hcaller
    rw [call, List.getElem?_append] at hcaller
    split at hcaller
    · exact (h.stands id caller hcaller).transfer ⟨[], rfl⟩ (fun hdeaf => hdeaf)
        (fun _ _ hmem => hmem) fun hnew => hnew
    · next hlong =>
      have hnew : id ∉ arrived.map (·.1) := fun hmem => hlong (hlength id hmem)
      rw [List.mem_singleton.mp (List.mem_of_getElem? hcaller)]
      cases request with
      | command command => exact .waits (.inl rfl) hnew
      | stop => exact .stop hnew
  · intro hquiet made hmem
    refine hkept (h.posted ?_ made hmem)
    rw [signalled_eq] at hquiet ⊢
    change (machine.raised || (!machine.held && _)) = false at hquiet
    rw [hheld] at hquiet ⊢
    simpa using hquiet
  · intro id command older hmem hnew
    obtain ⟨progress, hcaller, hconcludes⟩ := h.concluded id command older hmem hnew
    exact ⟨progress, hkept hcaller, hconcludes⟩

theorem Reachable.signalled_of_perform? (h : Reachable machine)
    (hperform : machine.perform? move = some after) (hsignal : machine.signalled = true) :
    after.signalled = true := by
  by_cases hmove : move = .step .control
  · subst hmove
    rw [(controlStep_of_stepControl? hperform).frame.signalled, hsignal]
  · exact (outsideStep_of_perform? hmove h.idle_of_created hperform).signalled_of_signalled hsignal

theorem Queued.of_perform? (h : Queued machine arrived) (hreach : Reachable machine)
    (hperform : machine.perform? move = some after) :
    Queued after (arrived ++ machine.entered after move) := by
  have hafter := hreach.move move hperform
  have hsignal := hreach.signalled_of_perform? hperform
  have hunmoved : after.mailbox.requests = machine.mailbox.requests →
      arrived ++ machine.entered after move = arrived :=
    append_entered_of_same arrived move
  cases moveStep_of_perform? hperform with
  | advanced hcaller hstep => exact h.of_callerStep hreach hcaller hstep hsignal
  | controlled hstep =>
      have hnone : arrived ++ machine.entered after (.step .control) = arrived :=
        List.append_nil _
      rw [hnone]
      exact h.of_controlStep hreach hafter hstep
  | called hheld =>
      rw [hunmoved rfl]
      exact h.of_called _ hheld
  | started hcreated =>
      have hidle := hreach.idle_of_created hcreated
      rw [hunmoved rfl]
      refine h.of_same rfl rfl ⟨[], rfl⟩ rfl ?_ hsignal ?_
      · rintro (hraised | hcrashed)
        · exact .inl hraised
        · cases hidle.symm.trans hcrashed
      · rw [hidle]
        nofun
  | accepted =>
      rw [hunmoved rfl]
      exact h.of_same rfl rfl ⟨[.accepted _ _], rfl⟩ rfl (fun hdeaf => hdeaf) hsignal
        fun hover => hover
  | _ =>
      rw [hunmoved rfl]
      exact h.of_same rfl rfl ⟨[], rfl⟩ rfl (fun hdeaf => hdeaf) hsignal fun hover => hover

theorem Queued.of_run {moves : List Move} (h : Queued machine arrived) (hreach : Reachable machine)
    (hrun : machine.run? moves = some after) :
    Queued after (arrived ++ machine.arrivals moves) := by
  induction moves generalizing machine arrived with
  | nil =>
      cases hrun
      rwa [arrivals, List.append_nil]
  | cons move moves ih =>
      obtain ⟨middle, hperform, hrest⟩ := Option.bind_eq_some_iff.mp hrun
      have hmiddle := ih (h.of_perform? hreach hperform) (hreach.move move hperform) hrest
      rw [List.append_assoc] at hmiddle
      rw [arrivals, hperform]
      exact hmiddle

/-- In every run the requests that have arrived are handled in order. -/
theorem queued_of_run {parameters : RelayParameters} {breaksOn : ListenerId → RawLog → Bool}
    {moves : List Move} (hrun : (Machine.initial parameters breaksOn).run? moves = some machine) :
    Queued machine ((Machine.initial parameters breaksOn).arrivals moves) :=
  (queued_initial parameters breaksOn).of_run (.initial parameters breaksOn) hrun

end Machine

end LogRelay
