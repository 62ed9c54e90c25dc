import LogRelay.Proofs.Conservation
import LogRelay.Proofs.Notices

/-!
# Notifications are truthful

What listeners are told agrees with what the relay says of itself in every state: while it
is not connected, nobody was last told that it is, and while it is, those who were told so
are still registered.  The notices change in few places, and each of them leaves this
true (`Truthful`): a round tells all listeners of the registry, and to unregister a
listener tells it that it is disconnected.

The order of things is kept as well (`History.Orderly`): logs are only taken and delivered
while the relay is connected and after the pass that offers them was announced, and a
lost subscription is followed by a round before anything else.
-/

namespace LogRelay

namespace Machine

variable {machine after : Machine}

/-! ## Steps that tell nobody anything -/

/-- Between the two states nobody is told anything, and nothing happens that has to be in order. -/
structure Silent (machine after : Machine) : Prop where
  history : ∃ burst, History.IsOrdinary burst ∧ after.history = burst ++ machine.history
  isConnected : after.history.isConnected = machine.history.isConnected
  lastNotice? : ∀ listener,
    after.history.lastNotice? listener = machine.history.lastNotice? listener
  connected : after.connected = machine.connected
  registry : after.registry = machine.registry

theorem Silent.of_talk {talk : History} (htalk : talk.IsWithClient)
    (hhistory : after.history = talk ++ machine.history)
    (hconnected : after.connected = machine.connected)
    (hregistry : after.registry = machine.registry) : Silent machine after := by
  have halike := htalk.alike machine.history
  rw [← hhistory] at halike
  exact ⟨⟨talk, htalk.isOrdinary, hhistory⟩, halike.isConnected, halike.lastNotice?, hconnected,
    hregistry⟩

theorem Silent.of_eq (hhistory : after.history = machine.history)
    (hconnected : after.connected = machine.connected)
    (hregistry : after.registry = machine.registry) : Silent machine after :=
  .of_talk History.isWithClient_nil hhistory hconnected hregistry

theorem BreaksDown.silent {quiet : History} (h : BreaksDown machine after quiet) :
    Silent machine after := by
  refine .of_talk h.isQuiet.isWithClient h.history ?_ h.offStream.registry
  obtain ⟨subscriptions, callers, -, -, rfl⟩ := h.eq
  rfl

/-- The notices agree with what the relay says of itself, and everything happens in order. -/
structure Truthful (machine : Machine) : Prop where
  connected : machine.connected = machine.history.isConnected
  told : ∀ listener, machine.history.lastNotice? listener = some true →
    machine.connected = true ∧ ∃ address, listener ∈ machine.registry.listenersAt address
  orderly : machine.history.Orderly
  announced : machine.phase ≠ .crashed → machine.history.Announced

theorem Truthful.of_silent (h : Truthful machine) (hsilent : Silent machine after)
    (hrunning : after.phase ≠ .crashed → machine.phase ≠ .crashed) : Truthful after := by
  obtain ⟨⟨burst, hburst, hhistory⟩, hisConnected, hnotice, hconnected, hregistry⟩ := hsilent
  refine ⟨?_, fun listener htold => ?_, ?_, fun hphase => ?_⟩
  · rw [hconnected, hisConnected]
    exact h.connected
  · rw [hconnected, hregistry]
    exact h.told listener (hnotice listener ▸ htold)
  · rw [hhistory]
    exact h.orderly.append hburst
  · rw [hhistory]
    exact (h.announced (hrunning hphase)).append hburst

/-! ## Requests and logs -/

/-- A listener that is unregistered is told so, and no other listener is affected. -/
theorem Truthful.of_handling (h : Truthful machine) (hwellFormed : machine.registry.WellFormed)
    {caller : CallerId} {command : Command}
    (hhistory : after.history = History.handling caller command ++ machine.history)
    (hregistry : after.registry = machine.registry.apply command)
    (hconnected : after.connected = machine.connected) (hrunning : machine.phase ≠ .crashed) :
    Truthful after := by
  have hordinary := History.isOrdinary_handling caller command
  refine ⟨?_, fun listener htold => ?_, ?_, fun _ => ?_⟩
  · rw [hconnected, hhistory, h.connected]
    cases command
    all_goals rfl
  · rw [hconnected, hregistry]
    rw [hhistory] at htold
    cases command with
    | register added newcomer =>
        obtain ⟨hstate, address, hmem⟩ := h.told listener htold
        exact ⟨hstate, address, hwellFormed.mem_listenersAt_apply hmem (by simp)⟩
    | unregister removed leaver =>
        -- Who was told last that it is connected is not the one who leaves.
        by_cases heq : leaver = listener
        · simp [History.handling, heq] at htold
        · obtain ⟨hstate, address, hmem⟩ := h.told listener ((if_neg heq).symm.trans htold)
          exact ⟨hstate, address, hwellFormed.mem_listenersAt_apply hmem (by simp [heq])⟩
  · rw [hhistory]
    exact h.orderly.append hordinary
  · rw [hhistory]
    exact (h.announced hrunning).append hordinary

theorem Truthful.of_handOut (h : Truthful machine) {log : RawLog} {listeners : List ListenerId}
    (htook : History.InTime (.took log) machine.history) (hrunning : machine.phase ≠ .crashed)
    (hhistory : after.history = History.handOut log listeners ++ .took log :: machine.history)
    (hconnected : after.connected = machine.connected)
    (hregistry : after.registry = machine.registry) : Truthful after := by
  have hnotice : ∀ listener,
      after.history.lastNotice? listener = machine.history.lastNotice? listener := by
    intro listener
    rw [hhistory]
    refine History.append_eq_of_neutral (.took log :: machine.history) fun effect hmem older => ?_
    obtain ⟨receiver, -, rfl⟩ := List.mem_map.mp (List.mem_reverse.mp hmem)
    rfl
  refine ⟨?_, fun listener htold => ?_, ?_, fun _ => ?_⟩
  · rw [hconnected, hhistory, History.isConnected_handOut fun _ hmem => hmem]
    exact h.connected
  · rw [hconnected, hregistry]
    exact h.told listener (hnotice listener ▸ htold)
  · rw [hhistory]
    exact h.orderly.handOut htook listeners
  · rw [hhistory]
    exact (h.announced hrunning).handOut log listeners

/-! ## Ends -/

/-- After a round of bad news nobody was last told to be connected. -/
theorem Truthful.silenced (h : Truthful machine) (hwellFormed : machine.registry.WellFormed)
    {older : History}
    (hsame : ∀ listener, older.lastNotice? listener = machine.history.lastNotice? listener)
    (listener : ListenerId) :
    (History.round false machine.registry ++ older).lastNotice? listener ≠ some true := by
  rw [History.lastNotice?_round]
  split
  next => simp
  next hmem =>
    -- Who was told to be connected is registered, and so the round cannot have passed over it.
    intro htold
    rw [hsame] at htold
    exact hmem ((History.mem_pairs_listener hwellFormed).mpr (h.told listener htold).2)

theorem Truthful.of_leave (h : Truthful machine) (hwellFormed : machine.registry.WellFormed)
    (hrunning : machine.phase ≠ .crashed) (fresh : Option Nat) :
    Truthful (machine.leave fresh) := by
  obtain ⟨quiet, quiet', subscriptions, hquiet, hquiet', -, heq⟩ := machine.leave_eq fresh
  have hbefore := hquiet.isWithClient.alike machine.history
  cases hconnected : machine.connected with
  | false =>
      have htalk : History.IsWithClient (quiet' ++ [] ++ quiet) :=
        (hquiet'.isWithClient.append History.isWithClient_nil).append hquiet.isWithClient
      rw [hconnected] at heq
      rw [heq]
      refine h.of_silent (.of_talk htalk (history_record ..) hconnected.symm rfl) fun _ => hrunning
  | true =>
      have hround := History.isOrdinary_round false machine.registry
      have hordinary := (hquiet'.isWithClient.isOrdinary.append hround).append
        hquiet.isWithClient.isOrdinary
      have hafter := hquiet'.isWithClient.alike
        (History.round false machine.registry ++ (quiet ++ machine.history))
      have hhistory : (machine.leave fresh).history =
          quiet' ++ (History.round false machine.registry ++ (quiet ++ machine.history)) := by
        rw [heq, hconnected, history_record, List.append_assoc, List.append_assoc]
        rfl
      refine ⟨?_, fun listener htold => ?_, ?_, fun _ => ?_⟩
      · rw [hhistory, hafter.isConnected, History.isConnected_round, heq]
        rfl
      · rw [hhistory, hafter.lastNotice?] at htold
        exact absurd htold (h.silenced hwellFormed hbefore.lastNotice? listener)
      · rw [hhistory, ← List.append_assoc, ← List.append_assoc]
        exact h.orderly.append hordinary
      · rw [hhistory, ← List.append_assoc, ← List.append_assoc]
        exact (h.announced hrunning).append hordinary

theorem Truthful.of_breaksDown {quiet : History} (h : Truthful machine)
    (hdown : BreaksDown machine after quiet) (hrunning : machine.phase ≠ .crashed) :
    Truthful after :=
  h.of_silent hdown.silent fun _ => hrunning

/-- When the subscription is lost, all listeners are told. -/
theorem Truthful.of_lost (h : Truthful machine)
    (hregistry : machine.registry = machine.history.registry)
    (hrunning : machine.phase ≠ .crashed) (subscriptions : Subscriptions) (error : ClientError) :
    Truthful ({ machine with subscriptions }.record [.lost error]).notifyDisconnected := by
  have hwellFormed : machine.registry.WellFormed :=
    hregistry ▸ Registry.wellFormed_history machine.history
  have hlost : ∀ listener, History.lastNotice? listener (.lost error :: machine.history) =
      machine.history.lastNotice? listener := fun _ => rfl
  have hhistory : ({ machine with subscriptions }.record
      [.lost error]).notifyDisconnected.history =
        History.round false machine.registry ++ .lost error :: machine.history := by
    rw [notifyDisconnected_eq, history_record]
    rfl
  refine ⟨?_, fun listener htold => ?_, ?_, fun _ => ?_⟩
  · rw [hhistory, History.isConnected_round, notifyDisconnected_eq]
    rfl
  · rw [hhistory] at htold
    exact absurd htold (h.silenced hwellFormed hlost listener)
  · rw [hhistory, hregistry]
    exact h.orderly.lost error
  · rw [hhistory, hregistry]
    exact (h.announced hrunning).lost error

/-! ## Passes -/

/-- All listeners of the registry are told that they are connected. -/
theorem Truthful.of_adopts {fresh : Option Nat} {logs : List RawLog} (h : Truthful machine)
    (hrunning : machine.phase ≠ .crashed) (hregistry : machine.registry = machine.history.registry)
    (hadopts : Adopts (machine.record [.gathered logs fresh]) after fresh logs) :
    Truthful after := by
  have hwellFormed : machine.registry.WellFormed :=
    hregistry ▸ Registry.wellFormed_history machine.history
  have hafter : after.registry = machine.registry := hadopts.offStream.registry
  obtain ⟨quiet, hquiet, hhistory⟩ := hadopts.history
  have hquietly := hquiet.isWithClient.alike (.gathered logs fresh :: machine.history)
  replace hhistory : after.history =
      History.round true machine.registry ++ quiet ++ .gathered logs fresh :: machine.history :=
    hhistory
  refine ⟨?_, fun listener htold => ⟨hadopts.connected, ?_⟩, ?_, fun _ => ?_⟩
  · rw [hadopts.connected, hhistory, List.append_assoc, History.isConnected_round]
  · rw [hafter]
    rw [hhistory, List.append_assoc, History.lastNotice?_round] at htold
    split at htold
    next hmem => exact (History.mem_pairs_listener hwellFormed).mp hmem
    next =>
      -- The round has passed over this listener, who was last told so before.
      rw [hquietly.lastNotice?] at htold
      exact (h.told listener htold).2
  · have hordinary := (History.isOrdinary_round true machine.registry).append
      hquiet.isWithClient.isOrdinary
    rw [hhistory]
    exact (h.orderly.gathered logs fresh).append hordinary
  · rw [hhistory, hregistry]
    exact (h.announced hrunning).gathered hquiet logs fresh

theorem Truthful.of_passEnds {fresh : Option Nat} {logs : List RawLog} (h : Truthful machine)
    (hrunning : machine.phase ≠ .crashed) (hregistry : machine.registry = machine.history.registry)
    (hends : PassEnds machine fresh logs after) : Truthful after := by
  cases hends with
  | @overcrowded _ quiet hroom hdown =>
      have hsilent := hdown.silent
      refine ⟨?_, fun listener htold => ?_, ?_, fun hphase => absurd hdown.phase hphase⟩
      · rw [hsilent.connected, hsilent.isConnected]
        exact h.connected
      · rw [hsilent.connected, hsilent.registry]
        exact h.told listener (hsilent.lastNotice? listener ▸ htold)
      · rw [hdown.history]
        exact (h.orderly.gathered logs fresh).append hdown.isQuiet.isWithClient.isOrdinary
  | restless hadopts hdebounce hdown =>
      have hphase := hadopts.phase
      exact (h.of_adopts hrunning hregistry hadopts).of_breaksDown hdown (hphase ▸ hrunning)
  | completed hadopts =>
      have hphase := hadopts.phase
      exact (h.of_adopts hrunning hregistry hadopts).of_silent (.of_eq rfl rfl rfl)
        fun _ => hphase ▸ hrunning

theorem Truthful.of_beginPass (h : Truthful machine) (hrunning : machine.phase ≠ .crashed)
    (hregistry : machine.registry = machine.history.registry) : Truthful machine.beginPass := by
  have htalk : ∀ addresses, History.IsWithClient [.began addresses] :=
    fun addresses => History.isWithClient_singleton trivial
  rw [beginPass_eq]
  split
  next =>
    have hbegan : Silent machine (machine.record [.began []]) :=
      .of_talk (htalk []) (history_record ..) rfl rfl
    have hends := passEnds_completePass (machine.record [.began []]) none []
    exact (h.of_silent hbegan fun _ => hrunning).of_passEnds hrunning hregistry hends
  next =>
    have hbegan := htalk machine.registry.addresses
    exact h.of_silent (.of_talk hbegan (history_record ..) rfl rfl) fun _ => hrunning

/-! ## Steps -/

/-- While the relay processes, it is connected. -/
def ProcessesConnected (machine : Machine) : Prop :=
  ∀ nextTick stale logsOpen, machine.phase = .processing nextTick stale logsOpen →
    machine.connected = true

theorem PassEnds.processesConnected {fresh : Option Nat} {logs : List RawLog}
    (h : PassEnds machine fresh logs after) : ProcessesConnected after := by
  intro nextTick stale logsOpen hphase
  cases h with
  | overcrowded hroom hdown | restless hadopts hdebounce hdown =>
      rw [hdown.phase] at hphase
      cases hphase
  | completed hadopts => exact hadopts.connected

theorem processesConnected_beginPass (machine : Machine) :
    ProcessesConnected machine.beginPass := by
  rw [beginPass_eq]
  split
  next => exact (passEnds_completePass ..).processesConnected
  next =>
    intro nextTick stale logsOpen hphase
    cases hphase

theorem ProcessesConnected.of_controlStep (h : ProcessesConnected machine)
    (hstep : ControlStep machine after) : ProcessesConnected after := by
  cases hstep with
  | interrupted | ended => exact fun _ _ _ hphase => by cases hphase
  | ready | resubscribed | lost => exact processesConnected_beginPass _
  | handled =>
      intro nextTick stale logsOpen hphase
      cases hcase : machine.phase
      case processing tick wasStale wasOpen => exact h tick wasStale wasOpen hcase
      all_goals
        simp only [record, hcase, Phase.afterHandling] at hphase
        cases hphase
  | @repeated caller command mailbox =>
      obtain ⟨quiet, hdown⟩ := machine.breaksDown_repeated caller command mailbox
      intro nextTick stale logsOpen hphase
      rw [hdown.phase] at hphase
      cases hphase
  | left =>
      obtain ⟨quiet, quiet', subscriptions, -, -, -, heq⟩ :=
        machine.leave_eq machine.phase.fresh?
      intro nextTick stale logsOpen hphase
      rw [heq] at hphase
      cases hphase
  | talked _ htalk =>
      obtain ⟨phase, requestCount, answer, talk, -, -, hpassing, rfl⟩ := htalk.eq
      intro nextTick stale logsOpen hphase
      obtain rfl : phase = .processing nextTick stale logsOpen := hphase
      cases hpassing
  | fetched => exact (passEnds_completePass ..).processesConnected
  | ticked hphase | streamEnded hphase => exact fun _ _ _ _ => h _ _ _ hphase
  | @took _ _ log pipeline hphase =>
      intro nextTick stale logsOpen hafter
      rcases ({ machine with pipeline }.record [.took log]).dispatch_cases log with
        ⟨-, heq⟩ | ⟨before, breaker, rest, quiet, -, -, hdown⟩
      · rw [heq]
        exact h _ _ _ hphase
      · rw [hdown.phase] at hafter
        cases hafter

theorem Truthful.of_dispatch (h : Truthful machine) {log : RawLog}
    (htook : History.InTime (.took log) machine.history) (hrunning : machine.phase ≠ .crashed)
    {pipeline : Pipeline} :
    Truthful (({ machine with pipeline }.record [.took log]).dispatch log) := by
  have hout : ∀ listeners, Truthful (({ machine with pipeline }.record [.took log]).record
      (History.handOut log listeners)) :=
    fun listeners => h.of_handOut htook hrunning (history_record ..) rfl rfl
  rcases ({ machine with pipeline }.record [.took log]).dispatch_cases log with
    ⟨-, heq⟩ | ⟨before, breaker, rest, quiet, -, -, hdown⟩
  · rw [heq]
    exact hout _
  · exact (hout before).of_breaksDown hdown hrunning

theorem Truthful.of_controlStep (h : Truthful machine) (hreach : Reachable machine)
    (hprocesses : ProcessesConnected machine) (hstep : ControlStep machine after) :
    Truthful after := by
  have hrunning := hstep.phase_ne_crashed
  have hregistry := hreach.registry_eq
  have hwellFormed := hreach.wellFormed
  cases hstep with
  | interrupted | ticked | streamEnded =>
      exact h.of_silent (.of_eq rfl rfl rfl) fun _ => hrunning
  | ready | resubscribed => exact h.of_beginPass hrunning hregistry
  | handled => exact h.of_handling hwellFormed (history_record ..) rfl rfl hrunning
  | @repeated caller command mailbox =>
      obtain ⟨quiet, hdown⟩ := machine.breaksDown_repeated caller command mailbox
      refine Truthful.of_breaksDown ?_ hdown hrunning
      have hordinary : History.IsOrdinary [.handled caller command] :=
        List.forall_mem_singleton.mpr trivial
      refine h.of_silent ⟨⟨_, hordinary, ?_⟩, ?_, ?_, rfl, rfl⟩ fun _ => hrunning
      · rfl
      · rfl
      · exact fun _ => rfl
  | left => exact h.of_leave hwellFormed hrunning _
  | talked _ htalk =>
      obtain ⟨phase, requestCount, answer, talk, hwith, -, -, rfl⟩ := htalk.eq
      exact h.of_silent (.of_talk hwith (history_record ..) rfl rfl) fun _ => hrunning
  | @fetched fresh _ _ _ _ query logs =>
      have htalk : History.IsWithClient [.answered (.filter query) (.logs logs)] :=
        History.isWithClient_singleton trivial
      have hanswered : Silent machine (machine.record [.answered (.filter query) (.logs logs)]) :=
        .of_talk htalk (history_record ..) rfl rfl
      exact (h.of_silent hanswered fun _ => hrunning).of_passEnds hrunning hregistry
        (passEnds_completePass ..)
  | @lost _ number _ _ error subscription later =>
      refine Truthful.of_beginPass (h.of_lost hregistry hrunning _ error) ?_ ?_
      · rw [notifyDisconnected_eq]
        exact hrunning
      · have haside := offStream_notifyDisconnected ({ machine with
          subscriptions := machine.subscriptions.set number later }.record [.lost error])
        rw [haside.registry, haside.sameRoutes.registry]
        exact hregistry
  | took hphase hsignal hreceive =>
      have hconnected := h.connected.symm.trans (hprocesses _ _ _ hphase)
      have hoffered := hreach.offers_next hsignal hrunning hreceive
      exact h.of_dispatch ⟨hconnected, h.announced hrunning, hoffered⟩ hrunning
  | ended =>
      obtain ⟨callers, heq, -⟩ := machine.closeMailbox_eq
      rw [heq]
      exact h.of_silent (.of_eq rfl rfl rfl) fun _ => hrunning

theorem Truthful.of_outsideStep (h : Truthful machine) (hstep : OutsideStep machine after) :
    Truthful after := by
  have haside := hstep.aside
  have halike := haside.alike
  have hburst : ∃ burst, History.IsOrdinary burst ∧ after.history = burst ++ machine.history := by
    rcases haside.history with heq | ⟨number, log, heq⟩
    · exact ⟨[], History.isWithClient_nil.isOrdinary, heq⟩
    · exact ⟨[.accepted number log], List.forall_mem_singleton.mpr trivial, heq⟩
  refine h.of_silent ⟨hburst, halike.isConnected, halike.lastNotice?, haside.connected,
    haside.registry⟩ fun hphase => ?_
  rcases haside.phase with hsame | ⟨hidle, -⟩
  · rwa [← hsame]
  · rw [hidle]
    simp

theorem Reachable.processesConnected (h : Reachable machine) : ProcessesConnected machine := by
  induction h using Reachable.always with
  | initial => exact fun _ _ _ hphase => by cases hphase
  | control _ _ hstep ih => exact ih.of_controlStep hstep
  | outside _ _ hstep ih =>
      have haside := hstep.aside
      intro nextTick stale logsOpen hphase
      have hbefore := haside.phase_eq (by simp [hphase])
      rw [haside.connected]
      exact ih nextTick stale logsOpen (hbefore.trans hphase)

theorem Reachable.truthful (h : Reachable machine) : Truthful machine := by
  induction h using Reachable.always with
  | initial =>
      refine ⟨rfl, fun _ htold => ?_, ⟨History.keeps_nil _, History.keeps_nil _⟩,
        fun _ => History.keeps_nil _⟩
      cases htold
  | control hreach _ hstep ih => exact ih.of_controlStep hreach hreach.processesConnected hstep
  | outside _ _ hstep ih => exact ih.of_outsideStep hstep

/-- The relay is connected exactly if it says so.  While it is not, nobody was last told to be
connected, and while it is, everybody who was last told so is still registered.  Logs are
taken and delivered only while it is connected, and only logs of passes in which all
registered listeners have been told so before; and whenever the subscription is found
lost, all registered listeners are told before anything else happens. -/
theorem Reachable.notifications_are_truthful (h : Reachable machine) :
    machine.connected = machine.history.isConnected ∧
    (machine.connected = false → ∀ listener,
      machine.history.lastNotice? listener ≠ some true) ∧
    (machine.connected = true → ∀ listener, machine.history.lastNotice? listener = some true →
      ∃ address, listener ∈ machine.registry.listenersAt address) ∧
    (machine.history.Keeps fun _ => History.InTime) ∧
    machine.history.Keeps History.Followed ∧
    machine.registry = machine.history.registry := by
  obtain ⟨hconnected, htold, ⟨hinTime, hfollowed⟩, -⟩ := h.truthful
  refine ⟨hconnected, fun hsilent listener hlast => ?_, fun _ listener hlast => ?_, hinTime,
    hfollowed, h.registry_eq⟩
  · rw [(htold listener hlast).1] at hsilent
    cases hsilent
  · exact (htold listener hlast).2

theorem sample_notifications_are_truthful :
    Sample.machine.history.lastNotice? 0 = some true ∧ Sample.machine.connected = true ∧
      ∃ address, 0 ∈ Sample.machine.registry.listenersAt address := by
  have htruthful := Reachable.notifications_are_truthful Sample.reachable
  have hlast : Sample.machine.history.lastNotice? 0 = some true := by decide
  have hconnected : Sample.machine.connected = true := by decide
  exact ⟨hlast, hconnected, htruthful.2.2.1 hconnected 0 hlast⟩

end Machine

end LogRelay
