import LogRelay.Proofs.Coverage

/-!
# Changes of the addresses are coalesced

A change of the addresses does not begin a pass at once.  While the relay processes, it only notes
that the addresses have changed, and it looks at this note at fixed times, the first of them a
debounce time after it began to process.  So all requests that have come meanwhile lead to one
pass, which takes them all into account; and where no request has changed the addresses, no pass
begins unless the subscription is lost.

What a history says about this is its `Pace`, and what is demanded of a pass that begins is
`Coalesces`, which also speaks of the time.  The invariant `Coalesced` adds what the relay notes.
-/

namespace LogRelay

/-! ## Traces -/

/-- What has happened to a relay, the latest effect first, with the time. -/
abbrev Trace := List (Nat × Effect)

namespace Trace

/-- The trace without the times. -/
def history (trace : Trace) : History := trace.map (·.2)

/-- Wherever the trace is cut at an effect, the demand holds of its time, of it and of what came
before. -/
def Keeps (demand : Nat → Effect → Trace → Prop) : Trace → Prop
  | [] => True
  | (time, effect) :: older => demand time effect older ∧ Keeps demand older

@[simp] theorem history_append (burst : History) (time : Nat) (older : Trace) :
    history (burst.map (Prod.mk time) ++ older) = burst ++ older.history := by
  rw [history, List.map_append, List.map_map]
  exact congrArg (· ++ older.history) (List.map_id burst)

theorem mem_of_mem_append {effect : Effect} {burst : History} {time earlier : Nat} {older : Trace}
    (h : (earlier, effect) ∈ burst.map (Prod.mk time) ++ older) (hnot : effect ∉ burst) :
    (earlier, effect) ∈ older := by
  rcases List.mem_append.mp h with hmem | hmem
  · obtain ⟨other, hother, heq⟩ := List.mem_map.mp hmem
    obtain ⟨-, rfl⟩ := Prod.mk.inj heq
    exact absurd hother hnot
  · exact hmem

variable {demand : Nat → Effect → Trace → Prop}

theorem Keeps.of_append {newer older : Trace} (h : Keeps demand (newer ++ older)) :
    Keeps demand older := by
  induction newer with
  | nil => exact h
  | cons entry newer ih => exact ih h.2

/-- Effects of which the demand says nothing change nothing. -/
theorem Keeps.append_free {time : Nat} {burst : History} {older : Trace} (h : Keeps demand older)
    (hfree : ∀ effect ∈ burst, ∀ before, demand time effect before) :
    Keeps demand (burst.map (Prod.mk time) ++ older) := by
  induction burst with
  | nil => exact h
  | cons effect burst ih =>
      obtain ⟨heffect, hburst⟩ := List.forall_mem_cons.mp hfree
      exact ⟨heffect _, ih hburst⟩

end Trace

/-! ## Pace -/

/-- What has happened since the latest pass was completed. -/
structure Pace where
  /-- Another pass has begun. -/
  begun : Bool := false
  /-- The subscription was lost. -/
  lost : Bool := false
  /-- A request was handled that has changed the addresses. -/
  changed : Bool := false

namespace Effect

/-- Whether the effect says nothing of the pace and is not that something is asked. -/
def IsOffPace : Effect → Prop
  | .began _ | .gathered .. | .lost _ | .handled .. | .asked _ => False
  | _ => True

/-- Whether the effect is that the relay asks the client, or takes an answer or does without. -/
def IsTalk : Effect → Prop
  | .asked _ | .answered .. | .gaveUp _ => True
  | _ => False

end Effect

namespace History

/-- What has happened since the latest pass was completed, or at all if none was. -/
@[simp] def pace : History → Pace
  | [] => {}
  | .began _ :: older => { pace older with begun := true }
  | .gathered .. :: _ => {}
  | .lost _ :: older => { pace older with lost := true }
  | .handled _ command :: older =>
      { pace older with
        changed := (pace older).changed ||
          decide (((registry older).apply command).addresses ≠ (registry older).addresses) }
  | _ :: older => pace older

/-- A history that says nothing of the pace. -/
def IsOffPace (history : History) : Prop := ∀ effect ∈ history, effect.IsOffPace

theorem IsOffPace.append {first second : History} (hfirst : first.IsOffPace)
    (hsecond : second.IsOffPace) : (first ++ second).IsOffPace :=
  List.forall_mem_append.mpr ⟨hfirst, hsecond⟩

theorem isOffPace_singleton {effect : Effect} (h : effect.IsOffPace) : IsOffPace [effect] :=
  List.forall_mem_singleton.mpr h

theorem IsQuiet.isOffPace {quiet : History} (h : quiet.IsQuiet) : quiet.IsOffPace := by
  intro effect hmem
  have hdown := h effect hmem
  cases effect
  case unsubscribed number => exact trivial
  all_goals exact hdown.elim

theorem isOffPace_round (connected : Bool) (registry : Registry) :
    (round connected registry).IsOffPace := by
  refine IsOffPace.append (fun effect hmem => ?_) (isOffPace_singleton trivial)
  obtain ⟨pair, -, rfl⟩ := List.mem_map.mp (List.mem_reverse.mp hmem)
  cases connected
  all_goals exact trivial

theorem isOffPace_handOut (log : RawLog) (listeners : List ListenerId) :
    (handOut log listeners).IsOffPace := by
  intro effect hmem
  obtain ⟨listener, -, rfl⟩ := List.mem_map.mp (List.mem_reverse.mp hmem)
  exact trivial

theorem IsOffPace.pace_append {newer : History} (h : newer.IsOffPace) (older : History) :
    (newer ++ older).pace = older.pace := by
  refine append_eq_of_neutral older fun effect hmem history => ?_
  have hoff := h effect hmem
  cases effect
  case began | gathered | lost | handled | asked => exact hoff.elim
  all_goals rfl

theorem IsOffPace.passes_append {newer : History} (h : newer.IsOffPace) (older : History) :
    (newer ++ older).passes = older.passes := by
  refine append_eq_of_neutral older fun effect hmem history => ?_
  have hoff := h effect hmem
  cases effect
  case began | gathered | lost | handled | asked => exact hoff.elim
  all_goals rfl

theorem IsOffPace.not_mem_began {history : History} (h : history.IsOffPace)
    (addresses : List Address) : .began addresses ∉ history :=
  fun hmem => h _ hmem

theorem pace_handling (caller : CallerId) (command : Command) (older : History) :
    (handling caller command ++ older).pace =
      { older.pace with
        changed := older.pace.changed ||
          decide ((older.registry.apply command).addresses ≠ older.registry.addresses) } := by
  cases command with
  | register | unregister => rfl

/-- A request that leaves the addresses as they are does not count. -/
theorem pace_handled {command : Command} {older : History} (caller : CallerId)
    (h : (older.registry.apply command).addresses = older.registry.addresses) :
    pace (.handled caller command :: older) = older.pace := by
  simp [h]

end History

/-! ## The invariant -/

/-- A pass only begins after the one before was completed, for the addresses that are registered
then.  Unless it is the first one or the subscription was lost, a request has changed the addresses
in between, and all passes before began a debounce time earlier.  Only in a pass something is
asked. -/
def Coalesces (debounce time : Nat) : Effect → Trace → Prop
  | .began addresses, older =>
      older.history.pace.begun = false ∧ addresses = older.history.registry.addresses ∧
        (older.history.passes ≠ [] → older.history.pace.lost = false →
          older.history.pace.changed = true ∧
            ∀ earlier others, (earlier, .began others) ∈ older → earlier + debounce ≤ time)
  | .asked _, older => older.history.pace.begun = true
  | _, _ => True

theorem Effect.IsOffPace.coalesces {effect : Effect} (h : effect.IsOffPace) (debounce time : Nat)
    (older : Trace) : Coalesces debounce time effect older := by
  cases effect
  case began | asked => exact h.elim
  all_goals exact trivial

/-- What the phase of a relay says about the passes that have begun. -/
def Paced (debounce : Nat) (trace : Trace) : Phase → Prop
  | .idle | .waiting => trace.history.passes = [] ∧ trace.history.pace.begun = false
  | .subscribing .. | .backfilling .. => trace.history.pace.begun = true
  | .processing nextTick stale _ =>
      trace.history.pace = { changed := stale } ∧
        ∀ earlier others, (earlier, .began others) ∈ trace → earlier + debounce ≤ nextTick
  | _ => True

theorem Paced.of_isPassing {debounce : Nat} {trace : Trace} {phase : Phase}
    (h : Paced debounce trace phase) (hpassing : phase.isPassing = true) :
    trace.history.pace.begun = true := by
  cases phase with
  | subscribing | backfilling => exact h
  | _ => cases hpassing

theorem Paced.append {debounce : Nat} {trace : Trace} {phase : Phase} {burst : History}
    (h : Paced debounce trace phase) (hoff : burst.IsOffPace) (time : Nat) :
    Paced debounce (burst.map (Prod.mk time) ++ trace) phase := by
  cases phase with
  | idle | waiting =>
      simp only [Paced, Trace.history_append, hoff.passes_append, hoff.pace_append]
      exact h
  | subscribing | backfilling =>
      simp only [Paced, Trace.history_append, hoff.pace_append]
      exact h
  | processing nextTick stale logsOpen =>
      obtain ⟨hpace, hearlier⟩ := h
      refine ⟨?_, fun earlier others hmem => hearlier earlier others ?_⟩
      · rw [Trace.history_append, hoff.pace_append, hpace]
      · exact Trace.mem_of_mem_append hmem (hoff.not_mem_began others)
  | _ => exact trivial

/-- The relay notes whether a request that it handles has changed the addresses. -/
theorem Paced.of_handled {debounce : Nat} {trace : Trace} {phase : Phase} {registry : Registry}
    {command : Command} (h : Paced debounce trace phase) (time : Nat) (caller : CallerId)
    (hregistry : registry = trace.history.registry) (hwellFormed : registry.WellFormed)
    (hnew : ¬ registry.Repeats command) (hphase : phase.handlesRequests = true) :
    Paced debounce ((History.handling caller command).map (Prod.mk time) ++ trace)
      (phase.afterHandling (registry.changes command)) := by
  cases phase with
  | waiting =>
      have hsame := (History.isOffPass_handling caller command).samePasses trace.history
      refine ⟨?_, ?_⟩
      · rw [Trace.history_append, hsame.passes, h.1]
      · rw [Trace.history_append, History.pace_handling]
        exact h.2
  | processing nextTick stale logsOpen =>
      obtain ⟨hpace, hearlier⟩ := h
      refine ⟨?_, fun earlier others hmem => hearlier earlier others ?_⟩
      · have hchanges : registry.changes command =
            decide ((registry.apply command).addresses ≠ registry.addresses) :=
          Bool.eq_iff_iff.mpr ((hwellFormed.changes_iff hnew).trans decide_eq_true_iff.symm)
        rw [Trace.history_append, History.pace_handling, hpace, hchanges, hregistry]
      · refine Trace.mem_of_mem_append hmem fun hbegan => ?_
        exact History.isOffPass_handling caller command _ hbegan
  | _ => cases hphase

namespace Machine

variable {machine after : Machine}

/-- All passes so far were coalesced. -/
structure Timely (machine : Machine) : Prop where
  past : ∀ entry ∈ machine.trace, entry.1 ≤ machine.now
  trace : Trace.Keeps (Coalesces machine.parameters.debounce) machine.trace

/-- All passes so far were coalesced, and the next one will be. -/
structure Coalesced (machine : Machine) : Prop extends Timely machine where
  phase : Paced machine.parameters.debounce machine.trace machine.phase

/-- What this phase says about the passes that have begun. -/
theorem Coalesced.paced {phase : Phase} (h : Coalesced machine) (hphase : machine.phase = phase) :
    Paced machine.parameters.debounce machine.trace phase := hphase ▸ h.phase

theorem Timely.cons (h : Timely machine) {effect : Effect}
    (heffect : Coalesces machine.parameters.debounce machine.now effect machine.trace) :
    Timely (machine.record [effect]) :=
  ⟨List.forall_mem_cons.mpr ⟨Nat.le_refl _, h.past⟩, heffect, h.trace⟩

/-- Time may pass and effects may come of which nothing is demanded. -/
theorem Timely.append {burst : History} (h : Timely machine)
    (hparameters : after.parameters = machine.parameters) (hnow : machine.now ≤ after.now)
    (htrace : after.trace = burst.map (Prod.mk machine.now) ++ machine.trace)
    (hfree : ∀ effect ∈ burst, ∀ older,
      Coalesces machine.parameters.debounce machine.now effect older) : Timely after := by
  refine ⟨?_, ?_⟩
  · rw [htrace]
    refine List.forall_mem_append.mpr ⟨fun entry hmem => ?_, fun entry hmem => ?_⟩
    · obtain ⟨effect, -, rfl⟩ := List.mem_map.mp hmem
      exact hnow
    · exact Nat.le_trans (h.past entry hmem) hnow
  · rw [htrace, hparameters]
    exact h.trace.append_free hfree

theorem Timely.record {burst : History} (h : Timely machine) (hoff : burst.IsOffPace) :
    Timely (machine.record burst) :=
  h.append rfl (Nat.le_refl _) rfl fun effect hmem _ => (hoff effect hmem).coalesces ..

/-! ## Passes -/

theorem Coalesced.of_breaksDown {quiet : History} (h : Timely machine)
    (hdown : BreaksDown machine after quiet) : Coalesced after := by
  obtain ⟨subscriptions, callers, -, -, rfl⟩ := hdown.eq
  have hrecord := h.record hdown.isQuiet.isOffPace
  exact ⟨⟨hrecord.past, hrecord.trace⟩, trivial⟩

theorem Timely.of_adopts {fresh : Option Nat} {logs : List RawLog} (h : Timely machine)
    (hadopts : Adopts machine after fresh logs) : Timely after := by
  obtain ⟨quiet, subscriptions, hquiet, -, rfl⟩ := hadopts.eq
  have hoff := (History.isOffPace_round true machine.registry).append hquiet.isOffPace
  have hrecord := h.record hoff
  exact ⟨hrecord.past, hrecord.trace⟩

theorem Coalesced.of_passEnds {fresh : Option Nat} {logs : List RawLog} (h : Timely machine)
    (hends : PassEnds machine fresh logs after) : Coalesced after := by
  have hgathered : Timely (machine.record [.gathered logs fresh]) := h.cons trivial
  cases hends with
  | overcrowded hroom hdown => exact .of_breaksDown hgathered hdown
  | restless hadopts hdebounce hdown => exact .of_breaksDown (hgathered.of_adopts hadopts) hdown
  | @completed adopted hadopts =>
      have hadopted := hgathered.of_adopts hadopts
      refine ⟨⟨hadopted.past, hadopted.trace⟩, ?_, fun earlier others hmem => ?_⟩
      · obtain ⟨quiet, hquiet, heq⟩ := hadopts.history
        have hoff := (History.isOffPace_round true machine.registry).append hquiet.isOffPace
        exact (congrArg History.pace heq).trans (hoff.pace_append _)
      · exact Nat.add_le_add_right (hadopted.past _ hmem) _

/-- A pass may begin if none is under way and there is a reason for it. -/
theorem Coalesced.of_beginPass (h : Timely machine)
    (hregistry : machine.registry = machine.history.registry)
    (hbegun : machine.history.pace.begun = false)
    (hreason : machine.history.passes ≠ [] → machine.history.pace.lost = false →
      machine.history.pace.changed = true ∧ ∀ earlier others,
        (earlier, .began others) ∈ machine.trace →
          earlier + machine.parameters.debounce ≤ machine.now) :
    Coalesced machine.beginPass := by
  have hbegan : Timely (machine.record [.began machine.registry.addresses]) :=
    h.cons ⟨hbegun, congrArg Registry.addresses hregistry, hreason⟩
  rw [beginPass_eq]
  split
  next hempty =>
    rw [hempty] at hbegan
    exact .of_passEnds hbegan (passEnds_completePass ..)
  next => exact ⟨⟨hbegan.past, hbegan.trace⟩, rfl⟩

/-! ## Steps -/

/-- In a pass the relay may ask and be answered. -/
theorem Timely.talk (h : Timely machine) (hbegun : machine.history.pace.begun = true)
    (effect : Effect) (htalk : effect.IsTalk) :
    Timely (machine.record [effect]) ∧
      (machine.record [effect]).history.pace.begun = true := by
  cases effect
  case asked => exact ⟨h.cons hbegun, hbegun⟩
  case answered | gaveUp => exact ⟨h.cons trivial, hbegun⟩
  all_goals exact htalk.elim

theorem Coalesced.of_clientStep (h : Coalesced machine) (hstep : ClientStep machine after) :
    Coalesced after := by
  obtain ⟨_, _, _, _, -, hpassing, -, -⟩ := hstep.eq
  have hbegun : machine.history.pace.begun = true := h.phase.of_isPassing hpassing
  cases hstep with
  | askedToSubscribe | askedForHeader =>
      obtain ⟨htimely, hlater⟩ := h.toTimely.talk hbegun (.asked _) trivial
      exact ⟨⟨htimely.past, htimely.trace⟩, hlater⟩
  | restedToSubscribe | restedToFetch => exact ⟨⟨h.past, h.trace⟩, hbegun⟩
  | refusedToSubscribe | subscribed | refusedToFetch =>
      obtain ⟨htimely, hlater⟩ := h.toTimely.talk hbegun (.answered _ _) trivial
      exact ⟨⟨htimely.past, htimely.trace⟩, hlater⟩
  | gaveUpToSubscribe | gaveUpToFetch =>
      obtain ⟨htimely, hlater⟩ := h.toTimely.talk hbegun (.gaveUp _) trivial
      exact ⟨⟨htimely.past, htimely.trace⟩, hlater⟩
  | askedForLogs =>
      obtain ⟨hanswered, hmiddle⟩ := h.toTimely.talk hbegun (.answered _ _) trivial
      obtain ⟨htimely, hlater⟩ := hanswered.talk hmiddle (.asked _) trivial
      exact ⟨⟨htimely.past, htimely.trace⟩, hlater⟩

/-- The next look at the addresses does not come before this one. -/
theorem le_tickAfter (machine : Machine) (tick : Nat) : tick ≤ machine.tickAfter tick := by
  unfold tickAfter
  split
  next hlate => omega
  next => omega

theorem Timely.handling (h : Timely machine) (caller : CallerId) (command : Command) :
    Timely (machine.record (History.handling caller command)) := by
  refine h.append rfl (Nat.le_refl _) rfl fun effect hmem _ => ?_
  cases command with
  | register =>
      rw [List.mem_singleton.mp hmem]
      exact trivial
  | unregister =>
      rcases List.mem_cons.mp hmem with rfl | hmem
      · exact trivial
      · rw [List.mem_singleton.mp hmem]
        exact trivial

theorem Coalesced.of_dispatch (h : Coalesced machine) (log : RawLog) :
    Coalesced (machine.dispatch log) := by
  rcases machine.dispatch_cases log with ⟨-, heq⟩ | ⟨before, listener, rest, quiet, -, -, hdown⟩
  · have hoff := History.isOffPace_handOut log (History.receivers log machine.registry)
    rw [heq]
    exact ⟨h.toTimely.record hoff, h.phase.append hoff machine.now⟩
  · exact .of_breaksDown (h.toTimely.record (History.isOffPace_handOut log before)) hdown

theorem Coalesced.of_controlStep (h : Coalesced machine)
    (hregistry : machine.registry = machine.history.registry)
    (hstep : ControlStep machine after) : Coalesced after := by
  cases hstep with
  | interrupted => exact ⟨⟨h.past, h.trace⟩, trivial⟩
  | ready hphase =>
      have hpaced := h.paced hphase
      exact .of_beginPass h.toTimely hregistry hpaced.2 fun hpasses => absurd hpaced.1 hpasses
  | @handled caller command mailbox callers hphase _ _ _ hnew =>
      have hwellFormed : machine.registry.WellFormed :=
        hregistry ▸ Registry.wellFormed_history machine.history
      have htimely := h.toTimely.handling caller command
      exact ⟨⟨htimely.past, htimely.trace⟩,
        h.phase.of_handled machine.now caller hregistry hwellFormed hnew hphase⟩
  | @repeated caller command mailbox =>
      obtain ⟨quiet, hdown⟩ := machine.breaksDown_repeated caller command mailbox
      have hrecord : Timely (machine.record [.handled caller command]) :=
        h.toTimely.cons trivial
      refine Coalesced.of_breaksDown ?_ hdown
      exact ⟨hrecord.past, hrecord.trace⟩
  | left =>
      obtain ⟨quiet, quiet', subscriptions, hquiet, hquiet', -, heq⟩ :=
        machine.leave_eq machine.phase.fresh?
      have hround : History.IsOffPace
          (if machine.connected then History.round false machine.registry else []) := by
        split
        next => exact History.isOffPace_round false machine.registry
        next => exact fun _ hmem => absurd hmem List.not_mem_nil
      have hrecord := h.toTimely.record
        ((hquiet'.isOffPace.append hround).append hquiet.isOffPace)
      rw [heq]
      exact ⟨⟨hrecord.past, hrecord.trace⟩, trivial⟩
  | talked _ htalk => exact h.of_clientStep htalk
  | @fetched fresh addresses failures number deadline query logs hphase =>
      have hrecord : Timely (machine.record [.answered (.filter query) (.logs logs)]) :=
        h.toTimely.cons trivial
      exact .of_passEnds hrecord (passEnds_completePass ..)
  | @lost nextTick number stale logsOpen error subscription later hphase =>
      have hpaced := h.paced hphase
      have hlost : Timely (machine.record [.lost error]) := h.toTimely.cons trivial
      have hoff := History.isOffPace_round false machine.registry
      have hround := hlost.record hoff
      have hpace := hoff.pace_append (.lost error :: machine.history)
      rw [notifyDisconnected_eq]
      refine .of_beginPass ⟨hround.past, hround.trace⟩ ?_ ?_ fun _ hkept => ?_
      · rw [history_record]
        have hsame := (History.isOffStream_round false machine.registry).sameRoutes
          (.lost error :: machine.history)
        exact hregistry.trans hsame.registry.symm
      · rw [history_record]
        exact (congrArg Pace.begun hpace).trans (congrArg Pace.begun hpaced.1)
      · rw [history_record] at hkept
        cases (congrArg Pace.lost hpace).symm.trans hkept
  | resubscribed hphase _ _ htick =>
      obtain ⟨hpace, hearlier⟩ := h.paced hphase
      refine .of_beginPass h.toTimely hregistry (congrArg Pace.begun hpace) fun _ _ => ?_
      exact ⟨congrArg Pace.changed hpace, fun earlier others hmem =>
        Nat.le_trans (hearlier earlier others hmem) htick⟩
  | @ticked nextTick logsOpen hphase =>
      obtain ⟨hpace, hearlier⟩ := h.paced hphase
      refine ⟨⟨h.past, h.trace⟩, hpace, fun earlier others hmem => ?_⟩
      exact Nat.le_trans (hearlier earlier others hmem) (machine.le_tickAfter nextTick)
  | @took nextTick stale log pipeline hphase =>
      have htook : History.IsOffPace [.took log] := History.isOffPace_singleton trivial
      have hrecord := h.toTimely.record htook
      refine Coalesced.of_dispatch ?_ log
      exact ⟨⟨hrecord.past, hrecord.trace⟩, h.phase.append htook machine.now⟩
  | streamEnded hphase =>
      have hpaced := h.paced hphase
      exact ⟨⟨h.past, h.trace⟩, hpaced⟩
  | ended =>
      obtain ⟨callers, heq, -⟩ := machine.closeMailbox_eq
      rw [heq]
      exact ⟨⟨h.past, h.trace⟩, trivial⟩

/-- No move but a step of the control task does more than to let time pass and logs come. -/
theorem Coalesced.of_outsideStep (h : Coalesced machine) (hstep : OutsideStep machine after) :
    Coalesced after := by
  cases hstep with
  | @accepted number log =>
      have haccepted : History.IsOffPace [.accepted number log] :=
        History.isOffPace_singleton trivial
      have hrecord := h.toTimely.record haccepted
      exact ⟨⟨hrecord.past, hrecord.trace⟩, h.phase.append haccepted machine.now⟩
  | started hphase =>
      have hpaced := h.paced hphase
      exact ⟨⟨h.past, h.trace⟩, hpaced⟩
  | arranged _ _ hnow =>
      exact ⟨⟨fun entry hmem => Nat.le_trans (h.past entry hmem) hnow, h.trace⟩, h.phase⟩
  | _ => exact ⟨⟨h.past, h.trace⟩, h.phase⟩

theorem Reachable.coalesced (h : Reachable machine) : Coalesced machine := by
  induction h using Reachable.always with
  | initial parameters breaksOn =>
      exact ⟨⟨fun entry hmem => absurd hmem List.not_mem_nil, trivial⟩, rfl, rfl⟩
  | control hreach _ hstep ih => exact ih.of_controlStep hreach.registry_eq hstep
  | outside _ _ hstep ih => exact ih.of_outsideStep hstep

end Machine

/-! ## Between passes -/

theorem History.passes_ne_nil (newer : History) (logs : List RawLog) (fresh : Option Nat)
    (older : History) : passes (newer ++ .gathered logs fresh :: older) ≠ [] := by
  induction newer with
  | nil => simp
  | cons effect newer ih =>
      cases effect
      case gathered => simp
      all_goals exact ih

/-- As long as the subscription is not lost and no request changes the addresses, no pass begins
and nothing is asked. -/
theorem Trace.Keeps.quiet {debounce time : Nat} {logs : List RawLog} {fresh : Option Nat}
    {newer older : Trace}
    (h : Keeps (Coalesces debounce) (newer ++ (time, .gathered logs fresh) :: older))
    (hkept : ∀ moment error, (moment, .lost error) ∉ newer)
    (hsame : ∀ later moment caller command earlier,
      newer = later ++ (moment, .handled caller command) :: earlier →
        ((history (earlier ++ (time, .gathered logs fresh) :: older)).registry.apply
          command).addresses =
            (history (earlier ++ (time, .gathered logs fresh) :: older)).registry.addresses) :
    (history (newer ++ (time, .gathered logs fresh) :: older)).pace = {} ∧
      ∀ entry ∈ newer, (∀ addresses, entry.2 ≠ .began addresses) ∧
        ∀ request, entry.2 ≠ .asked request := by
  induction newer with
  | nil => exact ⟨rfl, fun _ hmem => absurd hmem List.not_mem_nil⟩
  | cons entry newer ih =>
      obtain ⟨moment, effect⟩ := entry
      obtain ⟨heffect, hrest⟩ := h
      obtain ⟨hpace, hnone⟩ := ih hrest
        (fun moment error hmem => hkept moment error (List.mem_cons_of_mem _ hmem))
        (fun later moment caller command earlier heq =>
          hsame (_ :: later) moment caller command earlier (congrArg (List.cons _) heq))
      have hpasses : (history (newer ++ (time, .gathered logs fresh) :: older)).passes ≠ [] := by
        rw [history, List.map_append, List.map_cons]
        exact History.passes_ne_nil (newer.map (·.2)) logs fresh (older.map (·.2))
      -- A pass would need a reason, and a question would need a pass.
      have hentry : (history ((moment, effect) :: newer ++
          (time, .gathered logs fresh) :: older)).pace = {} ∧
            (∀ addresses, effect ≠ .began addresses) ∧ ∀ request, effect ≠ .asked request := by
        cases effect
        case began addresses =>
          obtain ⟨-, -, hreason⟩ := heffect
          have hchanged := (hreason hpasses (congrArg Pace.lost hpace)).1
          cases (congrArg Pace.changed hpace).symm.trans hchanged
        case asked request => cases (congrArg Pace.begun hpace).symm.trans heffect
        case lost error => exact absurd (List.mem_cons_self ..) (hkept moment error)
        case handled caller command =>
          have haddresses := hsame [] moment caller command newer rfl
          exact ⟨(History.pace_handled caller haddresses).trans hpace, nofun, nofun⟩
        case gathered => exact ⟨rfl, nofun, nofun⟩
        all_goals exact ⟨hpace, nofun, nofun⟩
      exact ⟨hentry.1, List.forall_mem_cons.mpr ⟨hentry.2, hnone⟩⟩

namespace Machine

variable {machine : Machine}

/-- Changes of the addresses are coalesced.  A pass only begins after the one before was completed,
and it is for the addresses that all requests so far have led to.  If it is not the first one and
the subscription was not lost, then a request has changed the addresses since the pass before was
completed, and all passes before began at least the debounce time earlier.  Everything that is
asked, is asked in a pass and names the addresses of this pass, which are still registered.  After
a pass was completed, no other begins and nothing is asked as long as the subscription is not lost
and no request changes the addresses. -/
theorem Reachable.passes_are_coalesced (h : Reachable machine) :
    (∀ (newer : Trace) time addresses (older : Trace),
      machine.trace = newer ++ (time, .began addresses) :: older →
        older.history.pace.begun = false ∧ addresses = older.history.registry.addresses ∧
          (older.history.passes ≠ [] → older.history.pace.lost = false →
            older.history.pace.changed = true ∧
              ∀ earlier others, (earlier, .began others) ∈ older →
                earlier + machine.parameters.debounce ≤ time)) ∧
    (∀ (newer : Trace) time request (older : Trace),
      machine.trace = newer ++ (time, .asked request) :: older →
        older.history.pace.begun = true ∧
          ∃ addresses, older.history.passAddresses? = some addresses ∧
            older.history.registry.addresses = addresses ∧
              ∀ named, request.addresses? = some named → named = addresses) ∧
    ∀ (newer : Trace) time logs fresh (older : Trace),
      machine.trace = newer ++ (time, .gathered logs fresh) :: older →
        (∀ moment error, (moment, .lost error) ∉ newer) →
        (∀ later moment caller command earlier,
          newer = later ++ (moment, .handled caller command) :: earlier →
            let before := Trace.history (earlier ++ (time, .gathered logs fresh) :: older)
            (before.registry.apply command).addresses = before.registry.addresses) →
        ∀ entry ∈ newer, (∀ addresses, entry.2 ≠ .began addresses) ∧
          ∀ request, entry.2 ≠ .asked request := by
  have hkeeps := h.coalesced.trace
  refine ⟨fun newer time addresses older heq => ?_, fun newer time request older heq => ?_,
    fun newer time logs fresh older heq hkept hsame => ?_⟩
  · rw [heq] at hkeeps
    exact hkeeps.of_append.1
  · have hnames := h.covered.history (newer.map (·.2)) (.asked request) (older.map (·.2))
      (by rw [history, heq, List.map_append, List.map_cons])
    obtain ⟨addresses, hpass, -, -, hregistered, hnamed⟩ := hnames
    rw [heq] at hkeeps
    exact ⟨hkeeps.of_append.1, addresses, hpass, hregistered, hnamed⟩
  · rw [heq] at hkeeps
    exact (hkeeps.quiet hkept hsame).2

/-- In the sample the first pass has no addresses, a listener is registered at once, and the second
pass begins a debounce time later.  After it was completed nothing is asked any more. -/
theorem sample_passes_are_coalesced :
    ∃ newer older : Trace,
      Sample.machine.trace = newer ++ (50, .began [Sample.address]) :: older ∧
        older.history.pace.changed = true ∧
          (0 : Nat) + Sample.machine.parameters.debounce ≤ 50 ∧
            ∀ entry ∈ newer.take 4, ∀ request, entry.2 ≠ .asked request := by
  obtain ⟨hbegins, -, hquiet⟩ := Reachable.passes_are_coalesced Sample.reachable
  have hbegan : Sample.machine.trace = Sample.machine.trace.take 11 ++
      (50, .began [Sample.address]) :: Sample.machine.trace.drop 12 := by rfl
  have hgathered : Sample.machine.trace =
      [(50, .delivered 0 Sample.log), (50, .took Sample.log), (50, .connected Sample.address 0),
        (50, .switched true)] ++
          (50, .gathered [Sample.log] (some 0)) :: Sample.machine.trace.drop 5 := by rfl
  have hfirst : (Sample.machine.trace.drop 12)[3]? = some (0, .began []) := by rfl
  obtain ⟨-, -, hreason⟩ := hbegins _ _ _ _ hbegan
  obtain ⟨hchanged, hearlier⟩ := hreason (by decide) (by decide)
  refine ⟨_, _, hbegan, hchanged, hearlier 0 [] (List.mem_of_getElem? hfirst), ?_⟩
  intro entry hmem
  refine (hquiet _ _ _ _ _ hgathered ?_ ?_ entry hmem).2
  · intro moment error hlost
    simp at hlost
  · intro later moment caller command earlier heq
    have hhandled := List.mem_append_right later
      (List.mem_cons_self (a := (moment, Effect.handled caller command)) (l := earlier))
    rw [← heq] at hhandled
    simp at hhandled

end Machine

end LogRelay
