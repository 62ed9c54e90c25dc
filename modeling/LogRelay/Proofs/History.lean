import LogRelay.Relay.Step

/-!
# Reading the history of a relay

The trace of a relay is its history, the latest effect first.  This file reads from a
history what a claim about a run speaks of: the registry that the handled requests have
led to, the pass that is under way, the logs that were offered, taken and delivered,
and what every listener was last told.

Many statements about runs say that something happens next to, or after, an effect.
They have the form `Keeps demand history`: wherever the history is cut at an effect,
what came after it and before it is as the demand says.  A demand that more effects
cannot undo only has to be checked for the effects of one step (`Keeps.append`).
-/

namespace LogRelay

/-- What has happened to a relay, the latest effect first. -/
abbrev History := List Effect

/-- The history of a relay: its trace without the times. -/
def Machine.history (machine : Machine) : History := machine.trace.map (·.2)

namespace Registry

/-- What becomes of the registry when a request is handled; a pair that is registered again
changes nothing. -/
def apply (registry : Registry) : Command → Registry
  | .register address listener =>
      match registry.add? address listener with
      | some (_, after) => after
      | none => registry
  | .unregister address listener => (registry.remove address listener).2

/-- Whether a request is reported to change the addresses. -/
def changes (registry : Registry) : Command → Bool
  | .register address _ => (registry.entries.lookup address).isNone
  | .unregister address listener => (registry.remove address listener).1

/-- The request is to register a pair that is registered already. -/
def Repeats (registry : Registry) : Command → Prop
  | .register address listener => listener ∈ registry.listenersAt address
  | .unregister .. => False

/-- Only a pair that is there already cannot be added. -/
theorem add?_eq_none_iff {registry : Registry} {address : Address} {listener : ListenerId} :
    registry.add? address listener = none ↔ listener ∈ registry.listenersAt address := by
  unfold add? listenersAt
  cases registry.entries.lookup address with
  | none => simp
  | some listeners => simp

/-- Registering a pair again changes nothing. -/
theorem apply_of_repeats {registry : Registry} {command : Command}
    (h : registry.Repeats command) : registry.apply command = registry := by
  cases command with
  | register address listener =>
      have hadd : registry.add? address listener = none := add?_eq_none_iff.mpr h
      simp only [apply, hadd]
  | unregister address listener => exact h.elim

end Registry

namespace History

/-! ## Requests and passes -/

/-- The registry that the handled requests lead to. -/
@[simp] def registry : History → Registry
  | [] => {}
  | .handled _ command :: older => (registry older).apply command
  | _ :: older => registry older

/-- The addresses of the latest pass. -/
@[simp] def passAddresses? : History → Option (List Address)
  | [] => none
  | .began addresses :: _ => some addresses
  | _ :: older => passAddresses? older

/-- The query with which the subscription that has this number was obtained. -/
@[simp] def queryOf? (number : Nat) : History → Option FilterQuery
  | [] => none
  | .answered (.subscribe query) (.subscribed obtained) :: older =>
      if obtained = number then some query else queryOf? number older
  | _ :: older => queryOf? number older

/-- The numbers of the subscriptions that the relay was given. -/
@[simp] def obtained : History → List Nat
  | [] => []
  | .answered _ (.subscribed number) :: older => number :: obtained older
  | _ :: older => obtained older

/-- Whether the relay says that it is connected. -/
@[simp] def isConnected : History → Bool
  | [] => false
  | .switched connected :: _ => connected
  | _ :: older => isConnected older

/-! ## Logs -/

/-- The logs that the relay has taken from its log stream, in that order. -/
@[simp] def taken : History → List RawLog
  | [] => []
  | .took log :: older => taken older ++ [log]
  | _ :: older => taken older

/-- The logs that were accepted on the subscription with this number, in that order. -/
@[simp] def accepted (number : Nat) : History → List RawLog
  | [] => []
  | .accepted sender log :: older =>
      if sender = number then accepted number older ++ [log] else accepted number older
  | _ :: older => accepted number older

/-- The passes that have fetched their earlier logs, in order: these logs and the number of the
new subscription, if there is one. -/
@[simp] def passes : History → List (List RawLog × Option Nat)
  | [] => []
  | .gathered logs fresh :: older => passes older ++ [(logs, fresh)]
  | _ :: older => passes older

/-- What the passes offer: for each of them its earlier logs, followed by the logs that were
accepted on its subscription. -/
def offered (history : History) : List RawLog :=
  history.passes.flatMap fun (logs, fresh) => logs ++ fresh.elim [] fun n => history.accepted n

/-! ## Listeners -/

/-- What the listener was last told: `true` if it was that it is connected. -/
@[simp] def lastNotice? (listener : ListenerId) : History → Option Bool
  | [] => none
  | .connected _ told :: older => if told = listener then some true else lastNotice? listener older
  | .disconnected _ told :: older =>
      if told = listener then some false else lastNotice? listener older
  | _ :: older => lastNotice? listener older

/-- The logs with which a listener was called, in that order. -/
@[simp] def calls (listener : ListenerId) : History → List RawLog
  | [] => []
  | .delivered receiver log :: older =>
      if receiver = listener then calls listener older ++ [log] else calls listener older
  | _ :: older => calls listener older

/-- The logs of an address that were delivered to a listener, in that order. -/
def delivered (address : Address) (listener : ListenerId) (history : History) : List RawLog :=
  (history.calls listener).filter (·.address = address)

/-- The logs that are due to a listener of an address: those that were taken from the log
stream, were emitted at the address and not taken back, while the listener was registered for
the address. -/
@[simp] def due (address : Address) (listener : ListenerId) : History → List RawLog
  | [] => []
  | .took log :: older =>
      if log.removed = false ∧ log.address = address ∧
          listener ∈ (registry older).listenersAt address then
        due address listener older ++ [log]
      else due address listener older
  | _ :: older => due address listener older

/-- The logs that were taken from the log stream, the latest first, each with the calls that were
made before the next one was taken. -/
@[simp] def dispatches : History → List (RawLog × List (ListenerId × RawLog))
  | [] => []
  | .took log :: older => (log, []) :: dispatches older
  | .delivered listener log :: older =>
      match dispatches older with
      | [] => []
      | (taken, calls) :: rest => (taken, calls ++ [(listener, log)]) :: rest
  | _ :: older => dispatches older

/-- The listeners to whom a log goes. -/
def receivers (log : RawLog) (registry : Registry) : List ListenerId :=
  if log.removed then [] else registry.listenersAt log.address

/-- The logs that were taken from the log stream, the latest first, each with one call for every
listener that was registered for its address at that moment, or without calls if it was taken
back. -/
@[simp] def routes : History → List (RawLog × List (ListenerId × RawLog))
  | [] => []
  | .took log :: older => (log, (receivers log (registry older)).map (·, log)) :: routes older
  | _ :: older => routes older

/-- The effects of handling a request. -/
def handling (caller : CallerId) : Command → History
  | .register address listener => [.handled caller (.register address listener)]
  | .unregister address listener =>
      [.disconnected address listener, .handled caller (.unregister address listener)]

/-- The effects of telling every listener of the registry whether it is connected. -/
def round (connected : Bool) (registry : Registry) : History :=
  (registry.pairs.map fun (address, listener) =>
    if connected then Effect.connected address listener
    else Effect.disconnected address listener).reverse ++ [.switched connected]

/-- The effects of handing a log to these listeners. -/
def handOut (log : RawLog) (listeners : List ListenerId) : History :=
  (listeners.map fun listener => Effect.delivered listener log).reverse

end History

/-! ## Kinds of effects -/

namespace Effect

/-- Whether the effect is that a subscription is torn down. -/
def IsTearDown : Effect → Prop
  | .unsubscribed _ => True
  | _ => False

/-- Whether the effect is what the relay and the client exchange in a pass. -/
def IsWithClient : Effect → Prop
  | .began _ | .asked _ | .answered .. | .gaveUp _ | .unsubscribed _ => True
  | _ => False

/-- Whether the effect is neither that a request is handled nor that a log is taken from the log
stream or delivered. -/
def IsOffStream : Effect → Prop
  | .took _ | .delivered .. | .handled .. => False
  | _ => True

/-- Whether the effect says nothing of passes and of the subscriptions that they lead to. -/
def IsOffPass : Effect → Prop
  | .began _ | .answered .. | .gathered .. | .accepted .. => False
  | _ => True

theorem IsWithClient.isOffStream {effect : Effect} (h : effect.IsWithClient) :
    effect.IsOffStream := by
  cases effect
  case took log => exact h.elim
  case delivered listener log => exact h.elim
  case handled caller command => exact h.elim
  all_goals exact trivial

end Effect

namespace History

/-- A history in which nothing happens but that subscriptions are torn down. -/
def IsQuiet (history : History) : Prop := ∀ effect ∈ history, effect.IsTearDown

/-- A history in which nothing happens but that the relay and the client talk. -/
def IsWithClient (history : History) : Prop := ∀ effect ∈ history, effect.IsWithClient

/-- A history in which no request is handled and nothing happens to the logs of the stream. -/
def IsOffStream (history : History) : Prop := ∀ effect ∈ history, effect.IsOffStream

/-- A history that says nothing of passes. -/
def IsOffPass (history : History) : Prop := ∀ effect ∈ history, effect.IsOffPass

theorem isQuiet_nil : IsQuiet [] := fun _ h => absurd h List.not_mem_nil

theorem IsQuiet.append {first second : History} (hfirst : first.IsQuiet)
    (hsecond : second.IsQuiet) : (first ++ second).IsQuiet :=
  List.forall_mem_append.mpr ⟨hfirst, hsecond⟩

theorem IsQuiet.isWithClient {history : History} (h : history.IsQuiet) :
    history.IsWithClient := by
  intro effect hmem
  have hdown := h effect hmem
  cases effect
  case unsubscribed number => exact trivial
  all_goals exact hdown.elim

theorem isWithClient_nil : IsWithClient [] := fun _ h => absurd h List.not_mem_nil

theorem isWithClient_singleton {effect : Effect} (h : effect.IsWithClient) :
    IsWithClient [effect] :=
  List.forall_mem_singleton.mpr h

theorem IsWithClient.append {first second : History} (hfirst : first.IsWithClient)
    (hsecond : second.IsWithClient) : (first ++ second).IsWithClient :=
  List.forall_mem_append.mpr ⟨hfirst, hsecond⟩

theorem IsWithClient.isOffStream {history : History} (h : history.IsWithClient) :
    history.IsOffStream :=
  fun effect hmem => (h effect hmem).isOffStream

theorem IsOffStream.append {first second : History} (hfirst : first.IsOffStream)
    (hsecond : second.IsOffStream) : (first ++ second).IsOffStream :=
  List.forall_mem_append.mpr ⟨hfirst, hsecond⟩

theorem isOffStream_singleton {effect : Effect} (h : effect.IsOffStream) :
    IsOffStream [effect] :=
  List.forall_mem_singleton.mpr h

theorem isOffStream_round (connected : Bool) (registry : Registry) :
    (round connected registry).IsOffStream := by
  refine IsOffStream.append (fun effect hmem => ?_) (isOffStream_singleton trivial)
  obtain ⟨pair, -, rfl⟩ := List.mem_map.mp (List.mem_reverse.mp hmem)
  cases connected
  all_goals exact trivial

theorem IsOffPass.append {first second : History} (hfirst : first.IsOffPass)
    (hsecond : second.IsOffPass) : (first ++ second).IsOffPass :=
  List.forall_mem_append.mpr ⟨hfirst, hsecond⟩

theorem isOffPass_singleton {effect : Effect} (h : effect.IsOffPass) : IsOffPass [effect] :=
  List.forall_mem_singleton.mpr h

theorem IsQuiet.isOffPass {history : History} (h : history.IsQuiet) : history.IsOffPass := by
  intro effect hmem
  have hdown := h effect hmem
  cases effect
  case unsubscribed number => exact trivial
  all_goals exact hdown.elim

theorem isOffPass_round (connected : Bool) (registry : Registry) :
    (round connected registry).IsOffPass := by
  refine IsOffPass.append (fun effect hmem => ?_) (isOffPass_singleton trivial)
  obtain ⟨pair, -, rfl⟩ := List.mem_map.mp (List.mem_reverse.mp hmem)
  cases connected
  all_goals exact trivial

theorem isOffPass_handOut (log : RawLog) (listeners : List ListenerId) :
    (handOut log listeners).IsOffPass := by
  intro effect hmem
  obtain ⟨listener, -, rfl⟩ := List.mem_map.mp (List.mem_reverse.mp hmem)
  exact trivial

theorem isOffPass_handling (caller : CallerId) (command : Command) :
    (handling caller command).IsOffPass := by
  cases command with
  | register address listener => exact isOffPass_singleton trivial
  | unregister address listener =>
      exact List.forall_mem_cons.mpr ⟨trivial, isOffPass_singleton trivial⟩

/-- What each of the effects leaves unchanged, all of them leave unchanged. -/
theorem append_eq_of_neutral {α : Type} {read : History → α} {newer : History} (older : History)
    (hneutral : ∀ effect ∈ newer, ∀ history, read (effect :: history) = read history) :
    read (newer ++ older) = read older := by
  induction newer with
  | nil => rfl
  | cons effect newer ih =>
      rw [List.cons_append, hneutral effect (List.mem_cons_self ..)]
      exact ih fun other hother => hneutral other (List.mem_cons_of_mem _ hother)

/-- The second history tells the same as the first of the registry and of the logs that were taken
and delivered. -/
structure SameRoutes (history later : History) : Prop where
  registry : later.registry = history.registry
  taken : later.taken = history.taken
  calls : ∀ listener, later.calls listener = history.calls listener
  due : ∀ address listener, later.due address listener = history.due address listener
  dispatches : later.dispatches = history.dispatches
  routes : later.routes = history.routes

/-- The second history tells the same as the first, but for what the client and the relay have
exchanged. -/
structure Alike (history later : History) : Prop extends SameRoutes history later where
  isConnected : later.isConnected = history.isConnected
  passes : later.passes = history.passes
  lastNotice? : ∀ listener, later.lastNotice? listener = history.lastNotice? listener

theorem SameRoutes.refl (history : History) : SameRoutes history history :=
  ⟨rfl, rfl, fun _ => rfl, fun _ _ => rfl, rfl, rfl⟩

theorem SameRoutes.trans {first second third : History} (h : SameRoutes first second)
    (h' : SameRoutes second third) : SameRoutes first third where
  registry := h'.registry.trans h.registry
  taken := h'.taken.trans h.taken
  calls listener := (h'.calls listener).trans (h.calls listener)
  due address listener := (h'.due address listener).trans (h.due address listener)
  dispatches := h'.dispatches.trans h.dispatches
  routes := h'.routes.trans h.routes

theorem SameRoutes.delivered {history later : History} (h : SameRoutes history later)
    (address : Address) (listener : ListenerId) :
    later.delivered address listener = history.delivered address listener := by
  rw [History.delivered, h.calls, History.delivered]

theorem Alike.refl (history : History) : Alike history history :=
  ⟨.refl history, rfl, rfl, fun _ => rfl⟩

theorem Alike.trans {first second third : History} (h : Alike first second)
    (h' : Alike second third) : Alike first third where
  toSameRoutes := h.toSameRoutes.trans h'.toSameRoutes
  isConnected := h'.isConnected.trans h.isConnected
  passes := h'.passes.trans h.passes
  lastNotice? listener := (h'.lastNotice? listener).trans (h.lastNotice? listener)

theorem sameRoutes_cons {effect : Effect} (h : effect.IsOffStream) (history : History) :
    SameRoutes history (effect :: history) := by
  cases effect
  case took log => exact h.elim
  case delivered listener log => exact h.elim
  case handled caller command => exact h.elim
  all_goals exact ⟨rfl, rfl, fun _ => rfl, fun _ _ => rfl, rfl, rfl⟩

theorem alike_cons {effect : Effect} (h : effect.IsWithClient) (history : History) :
    Alike history (effect :: history) := by
  have hsame := sameRoutes_cons h.isOffStream history
  cases effect
  case began addresses => exact ⟨hsame, rfl, rfl, fun _ => rfl⟩
  case asked request => exact ⟨hsame, rfl, rfl, fun _ => rfl⟩
  case answered request answer => exact ⟨hsame, rfl, rfl, fun _ => rfl⟩
  case gaveUp request => exact ⟨hsame, rfl, rfl, fun _ => rfl⟩
  case unsubscribed number => exact ⟨hsame, rfl, rfl, fun _ => rfl⟩
  all_goals exact h.elim

theorem alike_accepted (number : Nat) (log : RawLog) (history : History) :
    Alike history (.accepted number log :: history) := by
  have haside : Effect.IsOffStream (.accepted number log) := trivial
  exact ⟨sameRoutes_cons haside history, rfl, rfl, fun _ => rfl⟩

theorem IsOffStream.sameRoutes {newer : History} (h : newer.IsOffStream) (older : History) :
    SameRoutes older (newer ++ older) := by
  induction newer with
  | nil => exact .refl older
  | cons effect newer ih =>
      obtain ⟨heffect, hnewer⟩ := List.forall_mem_cons.mp h
      exact (ih hnewer).trans (sameRoutes_cons heffect (newer ++ older))

theorem IsWithClient.alike {newer : History} (h : newer.IsWithClient) (older : History) :
    Alike older (newer ++ older) := by
  induction newer with
  | nil => exact .refl older
  | cons effect newer ih =>
      obtain ⟨heffect, hnewer⟩ := List.forall_mem_cons.mp h
      exact (ih hnewer).trans (alike_cons heffect (newer ++ older))

/-- The second history tells the same as the first of the passes and of their subscriptions. -/
structure SamePasses (history later : History) : Prop where
  passAddresses? : later.passAddresses? = history.passAddresses?
  queryOf? : ∀ number, later.queryOf? number = history.queryOf? number
  obtained : later.obtained = history.obtained
  passes : later.passes = history.passes
  accepted : ∀ number, later.accepted number = history.accepted number

theorem SamePasses.refl (history : History) : SamePasses history history :=
  ⟨rfl, fun _ => rfl, rfl, rfl, fun _ => rfl⟩

theorem SamePasses.trans {first second third : History} (h : SamePasses first second)
    (h' : SamePasses second third) : SamePasses first third where
  passAddresses? := h'.passAddresses?.trans h.passAddresses?
  queryOf? number := (h'.queryOf? number).trans (h.queryOf? number)
  obtained := h'.obtained.trans h.obtained
  passes := h'.passes.trans h.passes
  accepted number := (h'.accepted number).trans (h.accepted number)

theorem samePasses_cons {effect : Effect} (h : effect.IsOffPass) (history : History) :
    SamePasses history (effect :: history) := by
  cases effect
  case began addresses => exact h.elim
  case answered request answer => exact h.elim
  case gathered logs fresh => exact h.elim
  case accepted number log => exact h.elim
  all_goals exact ⟨rfl, fun _ => rfl, rfl, rfl, fun _ => rfl⟩

theorem IsOffPass.samePasses {newer : History} (h : newer.IsOffPass) (older : History) :
    SamePasses older (newer ++ older) := by
  induction newer with
  | nil => exact .refl older
  | cons effect newer ih =>
      obtain ⟨heffect, hnewer⟩ := List.forall_mem_cons.mp h
      exact (ih hnewer).trans (samePasses_cons heffect (newer ++ older))

/-! ## What holds wherever the history is cut -/

/-- Wherever the history is cut at an effect, what came after it and before it is as the demand
says. -/
def Keeps (demand : History → Effect → History → Prop) (history : History) : Prop :=
  ∀ newer effect older, history = newer ++ effect :: older → demand newer effect older

theorem keeps_nil (demand : History → Effect → History → Prop) : Keeps demand [] :=
  fun _ _ _ h => absurd h.symm (by simp)

/-- If more effects cannot undo the demand, then only the effects of a step have to be checked. -/
theorem Keeps.append {demand : History → Effect → History → Prop} {burst older : History}
    (hstays : ∀ more newer effect before, demand newer effect before →
      demand (more ++ newer) effect before)
    (h : Keeps demand older)
    (hburst : ∀ newer effect before, burst = newer ++ effect :: before →
      demand newer effect (before ++ older)) :
    Keeps demand (burst ++ older) := by
  intro newer effect before heq
  rcases List.append_eq_append_iff.mp heq with ⟨more, rfl, holder⟩ | ⟨rest, hrest, hbefore⟩
  · exact hstays burst more effect before (h more effect before holder)
  · cases rest with
    | nil =>
        obtain rfl : burst = newer := hrest.trans (List.append_nil newer)
        have hnext : demand (burst ++ []) effect before :=
          hstays burst [] effect before (h [] effect before hbefore.symm)
        rwa [List.append_nil] at hnext
    | cons head rest =>
        obtain ⟨rfl, rfl⟩ := List.cons.inj hbefore
        exact hburst newer effect rest hrest

/-- Effects of which the demand says nothing change nothing. -/
theorem Keeps.append_of_free {demand : History → Effect → History → Prop} {burst older : History}
    (hstays : ∀ more newer effect before, demand newer effect before →
      demand (more ++ newer) effect before)
    (h : Keeps demand older)
    (hfree : ∀ effect ∈ burst, ∀ newer before, demand newer effect before) :
    Keeps demand (burst ++ older) := by
  refine h.append hstays fun newer effect before heq => hfree effect ?_ newer _
  rw [heq]
  exact List.mem_append_right newer (List.mem_cons_self ..)

/-- One effect of a step may be such that the demand is about what follows it. -/
theorem Keeps.append_cons {demand : History → Effect → History → Prop} {burst older : History}
    {effect : Effect}
    (hstays : ∀ more newer effect before, demand newer effect before →
      demand (more ++ newer) effect before)
    (h : Keeps demand older)
    (hfree : ∀ other ∈ burst, ∀ newer before, demand newer other before)
    (heffect : demand burst effect older) : Keeps demand (burst ++ effect :: older) := by
  intro newer other before heq
  rcases List.append_eq_append_iff.mp heq with ⟨more, rfl, holder⟩ | ⟨rest, rfl, hbefore⟩
  · cases more with
    | nil =>
        obtain ⟨rfl, rfl⟩ := List.cons.inj holder
        rwa [List.append_nil]
    | cons head more =>
        obtain ⟨rfl, htail⟩ := List.cons.inj holder
        have hlater := hstays (burst ++ [effect]) more other before (h more other before htail)
        rwa [List.append_assoc] at hlater
  · cases rest with
    | nil =>
        obtain ⟨rfl, rfl⟩ := List.cons.inj hbefore
        rwa [List.append_nil] at heffect
    | cons head rest =>
        obtain ⟨rfl, -⟩ := List.cons.inj hbefore
        exact hfree other (List.mem_append_right newer (List.mem_cons_self ..)) newer before

/-- What only depends on the past holds wherever the history is cut if it holds at the last
effect and before. -/
theorem keeps_cons {demand : Effect → History → Prop} {effect : Effect} {older : History} :
    Keeps (fun _ => demand) (effect :: older) ↔
      demand effect older ∧ Keeps (fun _ => demand) older := by
  constructor
  · intro h
    exact ⟨h [] effect older rfl, fun newer other before heq =>
      h (effect :: newer) other before (by rw [heq, List.cons_append])⟩
  · rintro ⟨heffect, hkeeps⟩ newer other before heq
    cases newer with
    | nil =>
        obtain ⟨rfl, rfl⟩ := List.cons.inj heq
        exact heffect
    | cons head newer =>
        obtain ⟨-, rfl⟩ := List.cons.inj heq
        exact hkeeps newer other before rfl

/-- Effects of which a demand on the past says nothing change nothing. -/
theorem Keeps.append_free {demand : Effect → History → Prop} {burst older : History}
    (h : Keeps (fun _ => demand) older)
    (hfree : ∀ effect ∈ burst, ∀ before, demand effect before) :
    Keeps (fun _ => demand) (burst ++ older) :=
  h.append_of_free (fun _ _ _ _ hdemand => hdemand) fun effect hmem _ => hfree effect hmem

end History

end LogRelay
