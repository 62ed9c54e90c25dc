import LogRelay.Proofs.Coverage
import LogRelay.Proofs.PendingCount
import LogRelay.Proofs.Queue
import LogRelay.Proofs.Repetition

/-!
# Other services come first

The relay does nothing to be seen by the client before the services that it depends on are ready.
Up to the moment at which the control task finds them ready (`findsReady`) it only handles requests
(`Gated`), and if the shutdown signal comes first, this moment never comes.  From that moment on
(`Opened`) the relay never waits again, whatever is declared later, and its first pass is for the
addresses that the requests handled so far have led to.
-/

namespace LogRelay

/-- Whether the move is a step of the control task. -/
def Move.isControl : Move → Bool
  | .step .control => true
  | _ => false

/-! ## Before the first pass -/

/-- Whether the effect can come before the first pass: a request is handled, a listener that is
unregistered is told, or the client sends a log or gets a subscription back. -/
def Effect.IsPreliminary : Effect → Prop
  | .handled .. | .disconnected .. | .accepted .. | .unsubscribed _ => True
  | _ => False

namespace History

/-- A history in which the relay waits for other services. -/
def IsPreliminary (history : History) : Prop := ∀ effect ∈ history, effect.IsPreliminary

theorem isPreliminary_handling (caller : CallerId) (command : Command) :
    (handling caller command).IsPreliminary := by
  cases command with
  | register address listener => exact List.forall_mem_singleton.mpr trivial
  | unregister address listener =>
      exact List.forall_mem_cons.mpr ⟨trivial, List.forall_mem_singleton.mpr trivial⟩

theorem IsQuiet.isPreliminary {quiet : History} (h : quiet.IsQuiet) : quiet.IsPreliminary := by
  intro effect hmem
  have hdown := h effect hmem
  cases effect
  case unsubscribed number => exact trivial
  all_goals exact hdown.elim

theorem IsPreliminary.append {first second : History} (hfirst : first.IsPreliminary)
    (hsecond : second.IsPreliminary) : (first ++ second).IsPreliminary :=
  List.forall_mem_append.mpr ⟨hfirst, hsecond⟩

theorem IsPreliminary.isConnected {history : History} (h : history.IsPreliminary) :
    history.isConnected = false := by
  induction history with
  | nil => rfl
  | cons effect older ih =>
      obtain ⟨heffect, holder⟩ := List.forall_mem_cons.mp h
      cases effect
      case switched connected => exact heffect.elim
      all_goals exact ih holder

theorem IsPreliminary.passAddresses? {history : History} (h : history.IsPreliminary) :
    history.passAddresses? = none := by
  induction history with
  | nil => rfl
  | cons effect older ih =>
      obtain ⟨heffect, holder⟩ := List.forall_mem_cons.mp h
      cases effect
      case began addresses => exact heffect.elim
      all_goals exact ih holder

/-! ## Readings of a longer history -/

theorem passAddresses?_append {newer : History} (h : ∀ addresses, .began addresses ∉ newer)
    (older : History) : (newer ++ older).passAddresses? = older.passAddresses? := by
  refine append_eq_of_neutral older ?_
  intro effect hmem history
  cases effect
  case began addresses => exact absurd hmem (h addresses)
  all_goals rfl

theorem passAddresses?_ne_none (newer : History) (addresses : List Address) (older : History) :
    passAddresses? (newer ++ .began addresses :: older) ≠ none := by
  induction newer with
  | nil => exact Option.some_ne_none addresses
  | cons effect newer ih =>
      cases effect
      case began others => exact Option.some_ne_none others
      all_goals exact ih

theorem mem_of_isConnected {newer older : History} (h : (newer ++ older).isConnected = true)
    (hbefore : older.isConnected = false) : .switched true ∈ newer := by
  induction newer with
  | nil => cases hbefore.symm.trans h
  | cons effect newer ih =>
      cases effect
      case switched connected =>
        obtain rfl : connected = true := h
        exact List.mem_cons_self
      all_goals exact List.mem_cons_of_mem _ (ih h)

theorem requests_eq_map (history : History) :
    history.requests =
      history.handlings.map fun (_, command, older) => (command, older.registry) := by
  induction history with
  | nil => rfl
  | cons effect older ih =>
      cases effect
      case handled caller command => exact congrArg (_ :: ·) ih
      all_goals exact ih

theorem exists_of_mem_handlings {history older : History} {caller : CallerId} {command : Command}
    (h : (caller, command, older) ∈ history.handlings) :
    ∃ newer, history = newer ++ .handled caller command :: older := by
  induction history with
  | nil => cases h
  | cons effect rest ih =>
      cases effect
      case handled other request =>
        rcases List.mem_cons.mp h with hfirst | hrest
        · cases hfirst
          exact ⟨[], rfl⟩
        · obtain ⟨newer, rfl⟩ := ih hrest
          exact ⟨.handled other request :: newer, rfl⟩
      all_goals
        obtain ⟨newer, rfl⟩ := ih h
        exact ⟨_ :: newer, rfl⟩

/-- What is asked of the client in the first pass names its addresses, and no request is handled
before the relay says that it is connected, so that the listeners that are told so are those that
were registered when the pass began. -/
def OfFirstPass (addresses : List Address) : Effect → History → Prop
  | .asked request, sooner => (∀ others, .began others ∉ sooner) →
      ∀ named, request.addresses? = some named → named = addresses
  | .handled .., sooner => .switched true ∈ sooner
  | _, _ => True

end History

namespace Machine

variable {machine after : Machine} {moves : List Move}

/-- Whether the control task waits for other services and finds them ready in its next step. -/
def findsReady (machine : Machine) : Bool :=
  match machine.phase with
  | .waiting => !machine.signalled && machine.dependents.areReady
  | _ => false

/-- Whether the control task takes no step of the run in which it finds the other services ready. -/
def staysUnready (machine : Machine) : List Move → Bool
  | [] => true
  | move :: moves =>
      !(move.isControl && machine.findsReady) &&
        (machine.perform? move).all fun after => after.staysUnready moves

theorem findsReady_iff : machine.findsReady = true ↔
    machine.phase = .waiting ∧ machine.signalled = false ∧ machine.dependents.areReady = true := by
  unfold findsReady
  cases machine.phase <;> simp

theorem staysUnready_cons {move : Move} (h : machine.staysUnready (move :: moves) = true)
    (hperform : machine.perform? move = some after) :
    (move.isControl = true → machine.findsReady = false) ∧ after.staysUnready moves = true := by
  simp only [staysUnready, hperform, Option.all_some, Bool.and_eq_true] at h
  refine ⟨fun hcontrol => ?_, h.2⟩
  simpa [hcontrol] using h.1

/-- The control task has not begun a pass. -/
structure Gated (machine : Machine) : Prop where
  phase : machine.phase.isActive = false
  connected : machine.connected = false
  history : machine.history.IsPreliminary

theorem gated_initial (parameters : RelayParameters) (breaksOn : ListenerId → RawLog → Bool) :
    Gated (Machine.initial parameters breaksOn) :=
  ⟨rfl, rfl, fun _ hmem => absurd hmem List.not_mem_nil⟩

theorem Gated.phase_ne {phase : Phase} (h : Gated machine) (hactive : phase.isActive = true) :
    machine.phase ≠ phase := by
  intro hphase
  have hidle := h.phase
  rw [hphase, hactive] at hidle
  contradiction

theorem Gated.of_controlStep (h : Gated machine) (hstep : ControlStep machine after) :
    Gated after ∨ machine.findsReady = true ∧ after = machine.beginPass := by
  cases hstep with
  | interrupted => exact .inl ⟨rfl, h.connected, h.history⟩
  | ready hphase hsignal hready => exact .inr ⟨findsReady_iff.mpr ⟨hphase, hsignal, hready⟩, rfl⟩
  | @handled caller command =>
      have hhandled := History.isPreliminary_handling caller command
      refine .inl ⟨?_, h.connected, ?_⟩
      · exact (Phase.isActive_afterHandling ..).trans h.phase
      · rw [history_record]
        exact hhandled.append h.history
  | @repeated caller command mailbox =>
      obtain ⟨quiet, hdown⟩ := machine.breaksDown_repeated caller command mailbox
      refine .inl ⟨?_, hdown.connected.trans h.connected, ?_⟩
      · rw [hdown.phase]
        rfl
      · have hhandled : History.IsPreliminary [.handled caller command] :=
          List.forall_mem_singleton.mpr trivial
        rw [hdown.history]
        exact hdown.isQuiet.isPreliminary.append (hhandled.append h.history)
  | left hactive =>
      rw [h.phase] at hactive
      contradiction
  | talked _ htalk =>
      obtain ⟨-, -, -, -, -, hpassing, -, -⟩ := htalk.eq
      cases hphase : machine.phase
      case subscribing | backfilling => exact absurd hphase (h.phase_ne rfl)
      all_goals
        rw [hphase] at hpassing
        cases hpassing
  | fetched hphase | lost hphase | resubscribed hphase | ticked hphase | took hphase
  | streamEnded hphase => exact absurd hphase (h.phase_ne rfl)
  | ended =>
      obtain ⟨callers, heq, -⟩ := machine.closeMailbox_eq
      rw [heq]
      exact .inl ⟨rfl, h.connected, h.history⟩

theorem Gated.of_outsideStep (h : Gated machine) (hstep : OutsideStep machine after) :
    Gated after := by
  have haside := hstep.aside
  refine ⟨?_, haside.connected.trans h.connected, ?_⟩
  · rcases haside.phase with hsame | ⟨-, hwaiting⟩
    · rw [hsame]
      exact h.phase
    · rw [hwaiting]
      rfl
  · rcases haside.history with hsame | ⟨number, log, hmore⟩
    · rw [hsame]
      exact h.history
    · rw [hmore]
      exact List.forall_mem_cons.mpr ⟨trivial, h.history⟩

theorem Gated.of_run (h : Gated machine) (hreach : Reachable machine)
    (hunready : machine.staysUnready moves = true) (hrun : machine.run? moves = some after) :
    Gated after := by
  induction moves generalizing machine with
  | nil =>
      cases hrun
      exact h
  | cons move moves ih =>
      obtain ⟨middle, hperform, hrest⟩ := Option.bind_eq_some_iff.mp hrun
      obtain ⟨hnot, hlater⟩ := staysUnready_cons hunready hperform
      refine ih ?_ (hreach.move move hperform) hlater hrest
      by_cases hmove : move = .step .control
      · subst hmove
        rcases h.of_controlStep (controlStep_of_stepControl? hperform) with hgated | ⟨hready, -⟩
        · exact hgated
        · rw [hnot rfl] at hready
          contradiction
      · exact h.of_outsideStep (outsideStep_of_perform? hmove hreach.idle_of_created hperform)

theorem isEarly_beginPass (machine : Machine) : machine.beginPass.phase.isEarly = false := by
  rcases machine.phase_of_beginPass with hactive | hcrashed
  · exact Phase.isEarly_of_isActive hactive
  · rw [hcrashed]
    rfl

/-- Before its first pass the control task has not begun one. -/
theorem Reachable.gated_of_early (h : Reachable machine) (hearly : machine.phase.isEarly = true) :
    Gated machine := by
  induction h using Reachable.always with
  | initial => exact gated_initial ..
  | @control machine after _ _ hstep ih =>
      have hbefore : machine.phase.isEarly = true := by
        cases hstep.destination with
        | waited hbefore => simp [hbefore, Phase.isEarly]
        | active hphase =>
            rw [Phase.isEarly_of_isActive hphase] at hearly
            contradiction
        | crashed hphase | left hphase | ended _ hphase =>
            rw [hphase] at hearly
            cases hearly
      rcases (ih hbefore).of_controlStep hstep with hgated | ⟨-, rfl⟩
      · exact hgated
      · rw [isEarly_beginPass] at hearly
        contradiction
  | outside _ _ hstep ih =>
      refine (ih ?_).of_outsideStep hstep
      rcases hstep.aside.phase with hsame | ⟨hidle, -⟩
      · rwa [← hsame]
      · rw [hidle]
        rfl

/-- A request is handled before the first pass, or while the relay says that it is connected. -/
theorem Reachable.handled_in_time (h : Reachable machine) {id : CallerId} {command : Command}
    {older : History} (hmem : (id, command, older) ∈ machine.history.handlings) :
    older.passAddresses? = none ∨ older.isConnected = true := by
  induction h using Reachable.always with
  | initial => cases hmem
  | @control machine after hreach _ hstep ih =>
      have hnow : machine.phase.handlesRequests = true →
          machine.history.passAddresses? = none ∨ machine.history.isConnected = true := by
        intro hhandles
        cases hphase : machine.phase
        case waiting =>
          exact .inl (hreach.gated_of_early (by rw [hphase]; rfl)).history.passAddresses?
        case processing nextTick stale logsOpen =>
          have hconnected := hreach.processesConnected nextTick stale logsOpen hphase
          exact .inr (hreach.truthful.connected.symm.trans hconnected)
        all_goals
          rw [hphase] at hhandles
          cases hhandles
      have hone : ∀ caller request,
          after.history.handlings =
            (caller, request, machine.history) :: machine.history.handlings →
          machine.phase.handlesRequests = true →
            older.passAddresses? = none ∨ older.isConnected = true := by
        intro caller request hhandlings hhandles
        rw [hhandlings] at hmem
        rcases List.mem_cons.mp hmem with hlast | hbefore
        · cases hlast
          exact hnow hhandles
        · exact ih hbefore
      cases hstep.mailStep with
      | aside _ _ hsame | closed _ _ _ hsame =>
          rw [hsame] at hmem
          exact ih hmem
      | @handled caller request _ hhandles _ _ _ _ _ hhistory =>
          refine hone caller request ?_ hhandles
          rw [hhistory, History.handlings_handling]
      | @repeated caller request _ hhandles _ _ _ _ _ hhistory =>
          obtain ⟨quiet, hquiet, hhistory⟩ := hhistory
          refine hone caller request ?_ hhandles
          rw [hhistory, hquiet.isWithClient.isOffStream.handlings]
          rfl
  | outside _ _ hstep ih =>
      refine ih ?_
      rcases hstep.aside.history with hsame | ⟨number, log, hmore⟩
      · rwa [← hsame]
      · rw [hmore] at hmem
        exact hmem

/-! ## From the first pass on -/

/-- The relay has begun its first pass, which it did when it was in the first of these states. -/
structure Opened (start machine : Machine) : Prop where
  /-- It never waits for other services again. -/
  phase : machine.phase ≠ .waiting
  /-- The first pass is for the addresses of the registry at the start. -/
  history : ∃ newer,
    machine.history = newer ++ .began start.registry.addresses :: start.history ∧
      newer.Keeps fun _ => History.OfFirstPass start.registry.addresses
  /-- With any other number of missing reports the control task would do the same. -/
  control : ∀ dependents, (machine.withDependents dependents).stepControl? =
    machine.stepControl?.map (·.withDependents dependents)

/-- The phase and the history of a relay that has begun its first pass. -/
structure Passed (start machine : Machine) : Prop where
  phase : machine.phase.isEarly = false
  history : ∃ newer, machine.history = newer ++ .began start.registry.addresses :: start.history

theorem Passed.phase_ne_waiting {start : Machine} (h : Passed start machine) :
    machine.phase ≠ .waiting := by
  intro hwaiting
  have hlate := h.phase
  rw [hwaiting] at hlate
  cases hlate

theorem passed_beginPass (machine : Machine) : Passed machine machine.beginPass := by
  refine ⟨machine.isEarly_beginPass, ?_⟩
  rw [beginPass_eq]
  split
  · next hnone =>
    have hends := passEnds_completePass (machine.record [.began []]) none []
    obtain ⟨⟨burst, -, hhistory⟩, -⟩ := hends.offStream
    refine ⟨burst, ?_⟩
    rw [hhistory, hnone]
    rfl
  · exact ⟨[], rfl⟩

theorem Passed.of_run {start : Machine} (h : Passed start machine) (hreach : Reachable machine)
    (hrun : machine.run? moves = some after) : Passed start after := by
  refine hreach.along ?_ h hrun
  intro first second move hfirst hperform hbefore
  refine ⟨?_, ?_⟩
  · by_cases hmove : move = .step .control
    · subst hmove
      cases (controlStep_of_stepControl? hperform).destination with
      | active hphase => exact Phase.isEarly_of_isActive hphase
      | waited hwaiting => exact absurd hwaiting hbefore.phase_ne_waiting
      | crashed hphase | left hphase | ended _ hphase =>
          rw [hphase]
          rfl
    · have haside := (outsideStep_of_perform? hmove hfirst.idle_of_created hperform).aside
      rcases haside.phase with hsame | ⟨hidle, -⟩
      · rw [hsame]
        exact hbefore.phase
      · have hlate := hbefore.phase
        rw [hidle] at hlate
        cases hlate
  · obtain ⟨burst, hburst⟩ := hfirst.grows_of_perform? hperform
    obtain ⟨newer, hnewer⟩ := hbefore.history
    exact ⟨burst ++ newer, by rw [hburst, hnewer, List.append_assoc]⟩

theorem Passed.opened {start : Machine} (h : Passed start machine) (hreach : Reachable machine)
    (hgated : Gated start) : Opened start machine := by
  obtain ⟨newer, hhistory⟩ := h.history
  refine ⟨h.phase_ne_waiting, ⟨newer, hhistory, ?_⟩, fun dependents => ?_⟩
  · intro later effect sooner hcut
    have hcut' : machine.history =
        later ++ effect :: (sooner ++ .began start.registry.addresses :: start.history) := by
      rw [hhistory, hcut, List.append_assoc, List.cons_append]
    cases effect
    case asked request =>
      intro honly named hnamed
      obtain ⟨addresses, hpass, -, -, -, hsame⟩ := hreach.covered.history _ _ _ hcut'
      rw [History.passAddresses?_append honly] at hpass
      cases hpass
      exact hsame named hnamed
    case handled caller command =>
      have hmem : (caller, command, sooner ++ .began start.registry.addresses :: start.history) ∈
          machine.history.handlings := by
        rw [hcut']
        exact History.mem_handlings
      rcases hreach.handled_in_time hmem with hnone | hconnected
      · exact (History.passAddresses?_ne_none _ _ _ hnone).elim
      · exact History.mem_of_isConnected hconnected hgated.history.isConnected
    all_goals exact trivial
  · exact machine.stepControl?_withDependents dependents h.phase_ne_waiting

/-! ## The gate -/

theorem perform?_of_findsReady (h : machine.findsReady = true) :
    machine.perform? (.step .control) = some machine.beginPass := by
  obtain ⟨hphase, hsignal, hready⟩ := findsReady_iff.mp h
  change machine.stepControl? = some machine.beginPass
  simp [stepControl?, hphase, hsignal, hready]

/-- A request to register that is handled before the first pass is answered with `false`. -/
theorem Queued.answered_false {arrived : List (CallerId × Command)} (h : Queued machine arrived)
    (hgated : Gated machine) (hnew : ¬machine.history.Repeated) {id : CallerId} {address : Address}
    {listener : ListenerId} (hmem : (id, .register address listener) ∈ machine.history.handled) :
    ∃ progress,
      machine.callers[id]? = some ⟨.command (.register address listener), progress⟩ ∧
        (progress = .answered (some false) ∨ progress = .done (.registered false)) := by
  obtain ⟨⟨caller, command, older⟩, hhandling, heq⟩ :=
    List.mem_map.mp (List.mem_reverse.mp hmem)
  cases heq
  have hfresh : ¬older.registry.Repeats (.register address listener) := by
    intro hrepeats
    refine hnew ⟨(.register address listener, older.registry), ?_, hrepeats⟩
    rw [History.requests_eq_map]
    exact List.mem_map_of_mem hhandling
  obtain ⟨progress, hcaller, hconcludes⟩ := h.concluded _ _ _ hhandling hfresh
  refine ⟨progress, hcaller, ?_⟩
  have hbefore : older.isConnected = false := by
    obtain ⟨newer, hhistory⟩ := History.exists_of_mem_handlings hhandling
    refine History.IsPreliminary.isConnected fun effect heffect => hgated.history effect ?_
    rw [hhistory]
    exact List.mem_append_right _ (List.mem_cons_of_mem _ heffect)
  rw [hbefore] at hconcludes
  cases hconcludes with
  | answered => exact .inl rfl
  | accepted | refused => exact .inr rfl

/-- In every run in which the control task takes no step that finds the other services ready,
nothing is asked of the client, no listener is told that it is connected and none is called with a
log, and the relay does not say that it is connected.  Requests are handled in the order in which
they have arrived, the registry is what they lead to, and unless a pair is registered twice every
request to register that was handled is answered with `false`.

If the shutdown signal comes before that, nothing is ever asked of the client.  If the control task
then finds the services ready, it begins its first pass for the addresses of the registry, and it
never waits again, however many services are declared later. -/
theorem services_gate_client {parameters : RelayParameters}
    {breaksOn : ListenerId → RawLog → Bool}
    (hrun : (Machine.initial parameters breaksOn).run? moves = some machine)
    (hunready : (Machine.initial parameters breaksOn).staysUnready moves = true) :
    ((∀ request, .asked request ∉ machine.history) ∧
      (∀ address listener, .connected address listener ∉ machine.history) ∧
      (∀ listener log, .delivered listener log ∉ machine.history) ∧
      machine.connected = false) ∧
    (∃ lost, (Machine.initial parameters breaksOn).arrivals moves =
      machine.history.handled ++ machine.mailbox.requests ++ lost) ∧
    machine.registry = (machine.history.handled.map (·.2)).foldl Registry.apply {} ∧
    (¬machine.history.Repeated → ∀ id address listener,
      (id, .register address listener) ∈ machine.history.handled →
        ∃ progress,
          machine.callers[id]? = some ⟨.command (.register address listener), progress⟩ ∧
            (progress = .answered (some false) ∨ progress = .done (.registered false))) ∧
    (machine.signalled = true → ∀ later rest, machine.run? later = some rest →
      ∀ request, .asked request ∉ rest.history) ∧
    (machine.findsReady = true → ∃ begun, machine.perform? (.step .control) = some begun ∧
      ∀ later rest, begun.run? later = some rest → Opened machine rest) := by
  have hstart : (Machine.initial parameters breaksOn).Reachable := .initial parameters breaksOn
  have hreach := hstart.run hrun
  have hgated := (gated_initial parameters breaksOn).of_run hstart hunready hrun
  have hqueued := queued_of_run hrun
  have hnone : ∀ effect, ¬effect.IsPreliminary → effect ∉ machine.history :=
    fun effect hnot hmem => hnot (hgated.history effect hmem)
  refine ⟨⟨?_, ?_, ?_, hgated.connected⟩, ?_, ?_, ?_, ?_, ?_⟩
  · exact fun request => hnone (.asked request) id
  · exact fun address listener => hnone (.connected address listener) id
  · exact fun listener log => hnone (.delivered listener log) id
  · obtain ⟨lost, harrived, -⟩ := hqueued.order
    exact ⟨lost, harrived⟩
  · rw [hreach.registry_eq, History.registry_eq_foldl]
  · exact fun hnew id address listener hmem => hqueued.answered_false hgated hnew hmem
  · intro hsignal later rest hlater request hmem
    obtain ⟨newer, hhistory, hkinds, -⟩ := ((Farewell.refl hsignal).of_run hreach hlater).history
    rw [hhistory] at hmem
    rcases List.mem_append.mp hmem with hnew | hold
    · exact hkinds _ hnew
    · exact hnone (.asked request) id hold
  · intro hready
    have hbegins := perform?_of_findsReady hready
    have hbegun : Reachable machine.beginPass := hreach.move (.step .control) hbegins
    refine ⟨machine.beginPass, hbegins, fun later rest hlater => ?_⟩
    exact (machine.passed_beginPass.of_run hbegun hlater).opened (hbegun.run hlater) hgated

end Machine

/-! ## A relay that waits -/

namespace Sample

/-- A service is declared, a listener is registered, and the service reports. -/
def movesToReady : List Move :=
  [.addDependents 1, .start, .call (.command (.register address 0)), .step (.caller 0),
    .step .control, .step (.caller 0), .dependentReady]

/-- The relay when the service has reported. -/
def ready : Machine := (start.run? movesToReady).getD default

/-- The listener is registered, but the client is asked nothing before the first pass, which is for
its address. -/
theorem ready_asks_nothing :
    ready.findsReady = true ∧ ready.registry.addresses = [address] ∧
      (∀ request, .asked request ∉ ready.history) ∧
      (∃ begun, ready.perform? (.step .control) = some begun ∧
        ∀ later rest, begun.run? later = some rest → Machine.Opened ready rest) := by
  have hrun : start.run? movesToReady = some ready := by rfl
  have hunready : start.staysUnready movesToReady = true := by decide
  have hready : ready.findsReady = true := by decide
  obtain ⟨⟨hasked, -⟩, -, -, -, -, hopens⟩ := Machine.services_gate_client hrun hunready
  exact ⟨hready, by decide, hasked, hopens hready⟩

end Sample

end LogRelay
