import LogRelay.Proofs.Broadcasts
import LogRelay.Proofs.Course
import Mathlib.Data.List.Induction

/-!
# Where the logs go

Every log that the relay takes from its log stream leads to one call for each listener
that is registered for its address at that moment, and to no other call.  So two
readings of the history agree in every state that can be reached: the calls that were
made (`History.dispatches`), and those that were owed (`History.routes`).  They can only
differ if a listener broke down when it was handed a log.  That ends the control task,
and the listeners after it do not get the log.
-/

namespace LogRelay

namespace History

/-! ## Reading back what was handed out -/

theorem handOut_concat (log : RawLog) (listeners : List ListenerId) (listener : ListenerId) :
    handOut log (listeners ++ [listener]) = .delivered listener log :: handOut log listeners := by
  simp [handOut]

theorem dispatches_handOut (log : RawLog) (listeners : List ListenerId) (older : History) :
    (handOut log listeners ++ .took log :: older).dispatches =
      (log, listeners.map (·, log)) :: older.dispatches := by
  induction listeners using List.reverseRecOn with
  | nil => rfl
  | append_singleton listeners listener ih =>
      rw [handOut_concat, List.cons_append, dispatches, ih, List.map_append]
      rfl

/-- Each listener of the list is called once. -/
theorem calls_handOut {listeners : List ListenerId} (hnodup : listeners.Nodup) (log : RawLog)
    (listener : ListenerId) (older : History) :
    (handOut log listeners ++ older).calls listener =
      older.calls listener ++ if listener ∈ listeners then [log] else [] := by
  induction listeners using List.reverseRecOn with
  | nil => simp [handOut]
  | append_singleton listeners last ih =>
      obtain ⟨hnodup, -, hlast⟩ := List.nodup_append.mp hnodup
      have hnew : last ∉ listeners := fun hmem => hlast last hmem last (by simp) rfl
      rw [handOut_concat, List.cons_append, calls, ih hnodup]
      by_cases heq : last = listener
      · subst heq
        simp [hnew]
      · have hne : listener ≠ last := fun h => heq h.symm
        simp [heq, hne]

theorem delivered_handOut {listeners : List ListenerId} (hnodup : listeners.Nodup) (log : RawLog)
    (address : Address) (listener : ListenerId) (older : History) :
    (handOut log listeners ++ .took log :: older).delivered address listener =
      older.delivered address listener ++
        if log.address = address ∧ listener ∈ listeners then [log] else [] := by
  rw [delivered, calls_handOut hnodup, List.filter_append]
  by_cases haddress : log.address = address
  · by_cases hmem : listener ∈ listeners
    · simp [delivered, haddress, hmem]
    · simp [delivered, hmem]
  · by_cases hmem : listener ∈ listeners
    · simp [delivered, haddress, hmem]
    · simp [delivered, hmem]

theorem due_took (log : RawLog) (address : Address) (listener : ListenerId) (older : History) :
    History.due address listener (.took log :: older) =
      older.due address listener ++
        if log.address = address ∧ listener ∈ receivers log older.registry then [log] else [] := by
  unfold receivers
  by_cases haddress : log.address = address
  · subst haddress
    cases hremoved : log.removed with
    | true => simp [hremoved]
    | false =>
        by_cases hmem : listener ∈ older.registry.listenersAt log.address
        · simp [hremoved, hmem]
        · simp [hremoved, hmem]
  · simp [haddress]

theorem due_handOut (log : RawLog) (listeners : List ListenerId) (address : Address)
    (listener : ListenerId) (older : History) :
    (handOut log listeners ++ older).due address listener = older.due address listener := by
  refine append_eq_of_neutral older fun effect hmem history => ?_
  obtain ⟨receiver, -, rfl⟩ := List.mem_map.mp (List.mem_reverse.mp hmem)
  rfl

theorem routes_handOut (log : RawLog) (listeners : List ListenerId) (older : History) :
    (handOut log listeners ++ older).routes = older.routes := by
  refine append_eq_of_neutral older fun effect hmem history => ?_
  obtain ⟨receiver, -, rfl⟩ := List.mem_map.mp (List.mem_reverse.mp hmem)
  rfl

theorem nodup_receivers (log : RawLog) (older : History) :
    (receivers log older.registry).Nodup := by
  unfold receivers
  split
  next => exact List.nodup_nil
  next => exact (Registry.wellFormed_history older).nodup_listenersAt log.address

/-- No log is owed to a listener twice. -/
theorem nodup_routes (history : History) :
    ∀ entry ∈ history.routes, entry.2.Nodup := by
  induction history with
  | nil => simp
  | cons effect older ih =>
      cases effect
      case took log =>
        refine List.forall_mem_cons.mpr ⟨?_, ih⟩
        exact (nodup_receivers log older).map fun _ _ h => congrArg Prod.fst h
      all_goals exact ih

/-! ## Calls made and calls owed -/

/-- Every log that was taken has led to the calls that it was to lead to. -/
structure IsRouted (history : History) : Prop where
  dispatches : history.dispatches = history.routes
  delivered : ∀ address listener,
    history.delivered address listener = history.due address listener

/-- The log that was taken last has led to calls of its first receivers only, because the next one
broke down. -/
def IsCutShort (breaksOn : ListenerId → RawLog → Bool) (history : History) : Prop :=
  ∃ log before breaker rest earlier, breaksOn breaker log = true ∧
    history.dispatches = (log, before.map (·, log)) :: earlier ∧
    history.routes = (log, (before ++ breaker :: rest).map (·, log)) :: earlier ∧
    ∀ address listener, history.due address listener =
      history.delivered address listener ++
        if log.address = address ∧ listener ∈ breaker :: rest then [log] else []

theorem isRouted_nil : IsRouted [] := ⟨rfl, fun _ _ => rfl⟩

theorem IsRouted.of_sameRoutes {history later : History} (h : history.IsRouted)
    (hsame : history.SameRoutes later) : later.IsRouted := by
  refine ⟨?_, fun address listener => ?_⟩
  · rw [hsame.dispatches, hsame.routes]
    exact h.dispatches
  · rw [hsame.delivered, hsame.due]
    exact h.delivered address listener

theorem IsCutShort.of_sameRoutes {breaksOn : ListenerId → RawLog → Bool}
    {history later : History} (h : history.IsCutShort breaksOn)
    (hsame : history.SameRoutes later) : later.IsCutShort breaksOn := by
  obtain ⟨log, before, breaker, rest, earlier, hbreaks, hdispatches, hroutes, hdue⟩ := h
  refine ⟨log, before, breaker, rest, earlier, hbreaks, ?_, ?_, fun address listener => ?_⟩
  · rw [hsame.dispatches, hdispatches]
  · rw [hsame.routes, hroutes]
  · rw [hsame.due, hsame.delivered]
    exact hdue address listener

theorem IsRouted.handling {history : History} (h : history.IsRouted) (caller : CallerId)
    (command : Command) : (History.handling caller command ++ history).IsRouted := by
  cases command with
  | register address listener => exact ⟨h.dispatches, h.delivered⟩
  | unregister address listener => exact ⟨h.dispatches, h.delivered⟩

theorem IsRouted.handOut {history : History} (h : history.IsRouted) (log : RawLog) :
    (History.handOut log (receivers log history.registry) ++ .took log :: history).IsRouted := by
  refine ⟨?_, fun address listener => ?_⟩
  · rw [dispatches_handOut, routes_handOut, routes, h.dispatches]
  · rw [delivered_handOut (nodup_receivers log history), due_handOut, due_took, h.delivered]

theorem IsRouted.cutShort {history : History} (h : history.IsRouted) {log : RawLog}
    {before rest : List ListenerId} {breaker : ListenerId}
    {breaksOn : ListenerId → RawLog → Bool}
    (hreceivers : receivers log history.registry = before ++ breaker :: rest)
    (hbreaks : breaksOn breaker log = true) :
    (History.handOut log before ++ .took log :: history).IsCutShort breaksOn := by
  have hnodup : (before ++ breaker :: rest).Nodup := hreceivers ▸ nodup_receivers log history
  refine ⟨log, before, breaker, rest, history.routes, hbreaks, ?_, ?_, fun address listener => ?_⟩
  · rw [dispatches_handOut, h.dispatches]
  · rw [routes_handOut, routes, hreceivers]
  · obtain ⟨hbefore, -, hapart⟩ := List.nodup_append.mp hnodup
    rw [due_handOut, due_took, hreceivers, delivered_handOut hbefore, h.delivered,
      List.append_assoc]
    congr 1
    -- A listener is before the one that breaks down or not, but never both.
    by_cases haddress : log.address = address
    · by_cases hmem : listener ∈ before
      · have hrest : listener ∉ breaker :: rest := fun h' => hapart listener hmem listener h' rfl
        simp [haddress, hmem, List.mem_cons.not.mp hrest]
      · simp [haddress, hmem]
    · simp [haddress]

end History

namespace Machine

variable {machine after : Machine}

/-! ## Along a run -/

/-- The logs have gone where they were to go, or one of the listeners broke down and with it the
control task. -/
def Delivers (machine : Machine) : Prop :=
  machine.history.IsRouted ∨
    machine.phase = .crashed ∧ machine.history.IsCutShort machine.breaksOn

theorem delivers_of_course (hrouted : machine.history.IsRouted)
    (hregistry : machine.registry = machine.history.registry) (h : Course machine after) :
    after.Delivers := by
  cases h with
  | offStream haside => exact .inl (hrouted.of_sameRoutes haside.sameRoutes)
  | handled hhistory =>
      rw [Delivers, hhistory]
      exact .inl (hrouted.handling ..)
  | @repeated caller command hrepeats hdown =>
      refine .inl (History.IsRouted.of_sameRoutes ?_ hdown.sameRoutes)
      exact ⟨hrouted.dispatches, hrouted.delivered⟩
  | handedOut hhistory =>
      -- The receivers are read from the registry, which is the one of the history.
      rw [Delivers, hhistory, hregistry]
      exact .inl (hrouted.handOut _)
  | brokeDown hreceivers hbreaks hdown hphase =>
      refine .inr ⟨hphase, History.IsCutShort.of_sameRoutes ?_ hdown.sameRoutes⟩
      rw [history_record, List.append_assoc]
      exact hrouted.cutShort (hregistry ▸ hreceivers) hbreaks

theorem Reachable.delivers (h : Reachable machine) : machine.Delivers := by
  induction h using Reachable.always with
  | initial => exact .inl History.isRouted_nil
  | control hreach _ hstep ih =>
      rcases ih with hrouted | ⟨hcrashed, -⟩
      · exact delivers_of_course hrouted hreach.registry_eq hstep.course
      · exact absurd hcrashed hstep.phase_ne_crashed
  | outside hreach _ hstep ih =>
      have haside := hstep.aside
      rcases ih with hrouted | ⟨hcrashed, hcut⟩
      · exact .inl (hrouted.of_sameRoutes haside.alike.toSameRoutes)
      · refine .inr ⟨?_, haside.breaksOn ▸ hcut.of_sameRoutes haside.alike.toSameRoutes⟩
        rcases haside.phase with hsame | ⟨hidle, -⟩
        · rw [hsame, hcrashed]
        · rw [hcrashed] at hidle
          cases hidle

theorem registry_dispatch (machine : Machine) (log : RawLog) :
    (machine.dispatch log).registry = machine.registry := by
  rcases machine.dispatch_cases log with ⟨-, heq⟩ | ⟨before, breaker, rest, quiet, -, -, hdown⟩
  · rw [heq]
    rfl
  · exact hdown.offStream.registry

/-- The calls that a listener gets for an address are those for the logs that were taken from the
log stream, in that order, as far as they were emitted at the address and not taken back,
and the listener was registered for the address at that moment.  Each such log leads to one
call per pair, and handing logs out never changes the registry.  Only if a listener breaks
down, which ends the control task, the listeners from it on miss the last log.

What a listener undergoes are these calls, and each of them comes in a broadcast with the log, the
job of the listener and no payload.  A payload that is attached to it is seen on no other. -/
theorem Reachable.every_log_is_routed (h : Reachable machine) :
    (machine.history.IsRouted ∨
      machine.phase = .crashed ∧ machine.history.IsCutShort machine.breaksOn) ∧
    (∀ entry ∈ machine.history.routes, entry.2.Nodup) ∧
    machine.registry = machine.history.registry ∧
    (∀ log, (machine.dispatch log).registry = machine.registry) ∧
    (∀ (endpoints : List (Endpoint Payload)) (listener : ListenerId),
      (machine.history.reverse.foldl Host.notify endpoints)[listener]? =
        endpoints[listener]?.map fun endpoint =>
          (machine.history.eventsOf endpoint.job listener).foldl Endpoint.undergo endpoint) ∧
    (∀ (job : JobIdentity) (listener : ListenerId),
      (machine.history.eventsOf job listener).filterMap Host.broadcastOf? =
        (machine.history.calls listener).map fun log => { log, job, decoded := none }) ∧
    ∀ (host : Host) (listener : ListenerId) (place : Nat) (payload : Payload),
      Host.DiffersAt listener place host
        (host.perform (.onBroadcast listener place (.attach payload))).2 := by
  refine ⟨h.delivers, machine.history.nodup_routes, h.registry_eq, machine.registry_dispatch,
    fun endpoints listener => ?_, fun job listener => ?_,
    fun host listener place payload => ?_⟩
  · exact Host.getElem?_foldl_notify machine.history endpoints listener
  · exact Host.filterMap_broadcastOf?_eventsOf job listener machine.history
  · exact host.differsAt_attach listener place payload

theorem sample_log_is_routed :
    Sample.machine.history.delivered Sample.address 0 = [Sample.log] ∧
      (Sample.machine.history.IsRouted ∨ Sample.machine.phase = .crashed ∧
        Sample.machine.history.IsCutShort Sample.machine.breaksOn) := by
  have hrouted := Reachable.every_log_is_routed Sample.reachable
  exact ⟨by decide, hrouted.1⟩

end Machine

/-! ## A listener that breaks down -/

namespace Sample

/-- Two listeners are registered for an address, and one log is fetched and taken. -/
def movesToBothListeners : List Move :=
  [.call (.command (.register address 0)), .step (.caller 0), .start, .step .control,
    .step .control, .call (.command (.register address 1)), .step (.caller 1), .step .control,
    .wait 50, .step .control, .step .control, .openSubscription room, .grant 0 0, .step .control,
    .step .control, .reply 1 (.header (some { number := 5 })), .step .control,
    .reply 2 (.logs [log]), .step .control, .step (.stage 0), .step (.stage 1),
    .step (.stage 1), .step (.stage 2), .step (.stage 2), .step (.stage 2), .step (.stage 3),
    .step (.stage 3), .step .control]

/-- The relay after the run, when the first of the listeners breaks down. -/
def brittle : Machine :=
  ((Machine.initial parameters fun listener _ => listener == 0).run? movesToBothListeners).getD
    default

theorem reachable_brittle : brittle.Reachable :=
  Machine.Reachable.getD_run? (.initial parameters fun listener _ => listener == 0) (by decide)

/-- The second listener, which does not break down, misses a log that was taken while it was
registered. -/
theorem brittle_misses_log :
    brittle.Reachable ∧ brittle.breaksOn 1 log = false ∧
      brittle.registry.listenersAt address = [0, 1] ∧ brittle.history.taken = [log] ∧
      brittle.history.due address 1 = [log] ∧ brittle.history.delivered address 1 = [] ∧
      ¬brittle.history.IsRouted := by
  have hstart : (Machine.initial parameters fun listener _ => listener == 0).Reachable :=
    .initial parameters fun listener _ => listener == 0
  have hreach : brittle.Reachable := hstart.getD_run? (by decide)
  have hdue : brittle.history.due address 1 = [log] := by decide
  have hdelivered : brittle.history.delivered address 1 = [] := by decide
  refine ⟨hreach, by decide, by decide, by decide, hdue, hdelivered, fun hrouted => ?_⟩
  have hboth := hrouted.delivered address 1
  rw [hdue, hdelivered] at hboth
  cases hboth

end Sample

end LogRelay
