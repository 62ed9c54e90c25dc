import LogRelay.Proofs.Course
import LogRelay.Proofs.Grants

/-!
# The subscription covers the registry

While the relay processes, its subscription was obtained for exactly the registered
addresses, unless it knows that these have changed since the pass began.  No address
can stay uncovered unnoticed: a request that leaves the mark unset does not change the
list of addresses, and a pass works on one list from its first request to the
notification of the listeners, because no request is handled in between.

The invariant is stated phase by phase (`Covers`).  That nothing is asked in a pass without
addresses, and that all its requests name the same ones, is a demand on the history
(`OfPass`).
-/

namespace LogRelay

/-- The addresses that a request names. -/
def ClientRequest.addresses? : ClientRequest → Option (List Address)
  | subscribe query | filter query => some query.addresses
  | header => none

namespace History

/-- The addresses for which the subscription with this number was obtained; without a subscription
there are none. -/
def covered? (history : History) : Option Nat → Option (List Address)
  | none => some []
  | some number => (history.queryOf? number).map (·.addresses)

/-- What is asked in a pass names the addresses of the pass, which are ascending, not none, and
those of the registry; and they are still those of the registry when the listeners are told that
they are connected. -/
def OfPass : Effect → History → Prop
  | .asked request, older =>
      ∃ addresses, older.passAddresses? = some addresses ∧ addresses ≠ [] ∧
        addresses.Pairwise (· < ·) ∧ older.registry.addresses = addresses ∧
        ∀ named, request.addresses? = some named → named = addresses
  | .switched true, older => older.passAddresses? = some older.registry.addresses
  | _, _ => True

theorem queryOf?_answered {number : Nat} {answer : ClientAnswer} (request : ClientRequest)
    (hother : answer ≠ .subscribed number) (older : History) :
    History.queryOf? number (.answered request answer :: older) = older.queryOf? number := by
  cases answer with
  | subscribed obtained =>
      have hne : obtained ≠ number := fun h => hother (h ▸ rfl)
      cases request with
      | subscribe query => exact if_neg hne
      | header | filter query => rfl
  | failed error | header header | logs logs => cases request <;> rfl

theorem IsQuiet.ofPass {quiet : History} (h : quiet.IsQuiet) :
    ∀ effect ∈ quiet, ∀ older, OfPass effect older := by
  intro effect hmem older
  have hdown := h effect hmem
  cases effect
  case unsubscribed number => exact trivial
  all_goals exact hdown.elim

theorem ofPass_round_false (registry : Registry) :
    ∀ effect ∈ round false registry, ∀ older, OfPass effect older := by
  intro effect hmem older
  rcases List.mem_append.mp hmem with hmem | hmem
  · obtain ⟨pair, -, rfl⟩ := List.mem_map.mp (List.mem_reverse.mp hmem)
    exact trivial
  · rw [List.mem_singleton.mp hmem]
    exact trivial

theorem ofPass_handOut (log : RawLog) (listeners : List ListenerId) :
    ∀ effect ∈ handOut log listeners, ∀ older, OfPass effect older := by
  intro effect hmem older
  obtain ⟨listener, -, rfl⟩ := List.mem_map.mp (List.mem_reverse.mp hmem)
  exact trivial

theorem ofPass_handling (caller : CallerId) (command : Command) :
    ∀ effect ∈ handling caller command, ∀ older, OfPass effect older := by
  intro effect hmem older
  cases command with
  | register address listener =>
      rw [List.mem_singleton.mp hmem]
      exact trivial
  | unregister address listener =>
      rcases List.mem_cons.mp hmem with rfl | hmem
      · exact trivial
      · rw [List.mem_singleton.mp hmem]
        exact trivial

/-- The listeners are told that they are connected when the addresses of the pass are still those of
the registry. -/
theorem Keeps.round_true {older : History} (h : Keeps (fun _ => OfPass) older)
    (hpass : older.passAddresses? = some older.registry.addresses) (registry : Registry) :
    Keeps (fun _ => OfPass) (round true registry ++ older) := by
  rw [round, List.append_assoc]
  refine Keeps.append_free (keeps_cons.mpr ⟨hpass, h⟩) fun effect hmem before => ?_
  obtain ⟨pair, -, rfl⟩ := List.mem_map.mp (List.mem_reverse.mp hmem)
  exact trivial

end History

/-! ## The invariant -/

/-- The addresses of a pass that is under way. -/
structure InPass (history : History) (registry : Registry) (addresses : List Address) : Prop where
  latest : history.passAddresses? = some addresses
  registered : registry.addresses = addresses
  nonempty : addresses ≠ []

/-- What the addresses of the pass, those of the registry and those of the subscription have to do
with each other in each phase. -/
def Covers (history : History) (registry : Registry) (current : Option Nat) : Phase → Prop
  | .subscribing addresses _ attempt =>
      InPass history registry addresses ∧
        ∀ request number deadline, attempt = .asking request number deadline →
          request = .subscribe (.ofAddresses addresses)
  | .backfilling fresh addresses _ _ =>
      InPass history registry addresses ∧
        ∃ number, fresh = some number ∧
          history.queryOf? number = some (.ofAddresses addresses)
  | .processing _ stale _ =>
      ∃ addresses, history.covered? current = some addresses ∧
        (current = none ↔ addresses = []) ∧ (stale = false → registry.addresses = addresses)
  | _ => True

theorem InPass.of_eq {history later : History} {registry : Registry} {addresses : List Address}
    (h : InPass history registry addresses)
    (hpass : later.passAddresses? = history.passAddresses?) :
    InPass later registry addresses :=
  ⟨hpass.trans h.latest, h.registered, h.nonempty⟩

theorem Covers.of_eq {history later : History} {registry : Registry} {current : Option Nat}
    {phase : Phase} (h : Covers history registry current phase)
    (hpass : later.passAddresses? = history.passAddresses?)
    (hquery : ∀ number, later.queryOf? number = history.queryOf? number) :
    Covers later registry current phase := by
  cases phase with
  | subscribing addresses failures attempt => exact ⟨h.1.of_eq hpass, h.2⟩
  | backfilling fresh addresses failures attempt =>
      obtain ⟨hin, number, hfresh, hnumber⟩ := h
      exact ⟨hin.of_eq hpass, number, hfresh, (hquery number).trans hnumber⟩
  | processing nextTick stale logsOpen =>
      obtain ⟨addresses, hcovered, hnone, hstale⟩ := h
      refine ⟨addresses, ?_, hnone, hstale⟩
      cases current with
      | none => exact hcovered
      | some number =>
          rw [History.covered?, hquery]
          exact hcovered
  | _ => exact trivial

/-- A request that is handled while the relay processes leaves the addresses as they are, or the
mark says that they have changed. -/
theorem Covers.of_handled {history later : History} {registry : Registry} {current : Option Nat}
    {phase : Phase} {command : Command} (h : Covers history registry current phase)
    (hsame : history.SamePasses later) (hregistry : registry.WellFormed)
    (hphase : phase.handlesRequests = true) :
    Covers later (registry.apply command) current
      (phase.afterHandling (registry.changes command)) := by
  cases phase with
  | waiting => exact trivial
  | processing nextTick stale logsOpen =>
      obtain ⟨addresses, hcovered, hnone, hstale⟩ :=
        h.of_eq hsame.passAddresses? hsame.queryOf?
      refine ⟨addresses, hcovered, hnone, fun hunmarked => ?_⟩
      -- The mark is unset afterwards only if it was before and the request has not set it.
      obtain ⟨hfresh, hchanges⟩ := Bool.or_eq_false_iff.mp hunmarked
      rw [hregistry.addresses_apply hchanges]
      exact hstale hfresh
  | _ => cases hphase

namespace Machine

variable {machine after : Machine}

/-- The subscription covers the registry, and everything that was asked fits the passes. -/
structure Covered (machine : Machine) : Prop where
  phase : Covers machine.history machine.registry machine.current machine.phase
  history : machine.history.Keeps fun _ => History.OfPass

theorem Covered.of_breaksDown {quiet : History}
    (hkeeps : machine.history.Keeps fun _ => History.OfPass)
    (hdown : BreaksDown machine after quiet) : Covered after := by
  refine ⟨?_, ?_⟩
  · rw [hdown.phase]
    exact trivial
  · rw [hdown.history]
    exact hkeeps.append_free hdown.isQuiet.ofPass

/-! ## Passes -/

theorem Adopts.keeps {fresh : Option Nat} {logs : List RawLog}
    (h : Adopts machine after fresh logs) (hkeeps : machine.history.Keeps fun _ => History.OfPass)
    (hregistry : machine.registry = machine.history.registry)
    (hpass : machine.history.passAddresses? = some machine.registry.addresses) :
    after.history.Keeps fun _ => History.OfPass := by
  obtain ⟨quiet, hquiet, heq⟩ := h.history
  rw [heq, List.append_assoc]
  refine History.Keeps.round_true (hkeeps.append_free hquiet.ofPass) ?_ machine.registry
  rw [(hquiet.isOffPass.samePasses machine.history).passAddresses?,
    (hquiet.isWithClient.alike machine.history).registry, ← hregistry]
  exact hpass

theorem Covered.of_passEnds {fresh : Option Nat} {logs : List RawLog}
    (hkeeps : machine.history.Keeps fun _ => History.OfPass)
    (hregistry : machine.registry = machine.history.registry)
    (hpass : machine.history.passAddresses? = some machine.registry.addresses)
    (hcovered : machine.history.covered? fresh = some machine.registry.addresses)
    (hnone : fresh = none ↔ machine.registry.addresses = [])
    (hends : PassEnds machine fresh logs after) : Covered after := by
  have hgathered : (machine.record [.gathered logs fresh]).history.Keeps
      fun _ => History.OfPass :=
    History.keeps_cons.mpr ⟨trivial, hkeeps⟩
  cases hends with
  | overcrowded hroom hdown => exact .of_breaksDown hgathered hdown
  | restless hadopts hdebounce hdown =>
      exact .of_breaksDown (hadopts.keeps hgathered hregistry hpass) hdown
  | completed hadopts =>
      refine ⟨?_, hadopts.keeps hgathered hregistry hpass⟩
      have hsame := hadopts.samePasses
      have hafter := hadopts.offStream.registry
      refine ⟨machine.registry.addresses, ?_, ?_, fun _ => congrArg Registry.addresses hafter⟩
      · rw [hadopts.current]
        cases fresh with
        | none => exact hcovered
        | some number => exact (congrArg (Option.map _) (hsame.queryOf? number)).trans hcovered
      · rw [hadopts.current]
        exact hnone

theorem Covered.of_beginPass (hkeeps : machine.history.Keeps fun _ => History.OfPass)
    (hregistry : machine.registry = machine.history.registry) : Covered machine.beginPass := by
  rw [beginPass_eq]
  split
  next hempty =>
    have hends := passEnds_completePass (machine.record [.began []]) none []
    refine Covered.of_passEnds ?_ ?_ ?_ ?_ ?_ hends
    · exact History.keeps_cons.mpr ⟨trivial, hkeeps⟩
    · exact hregistry
    · exact congrArg some hempty.symm
    · exact congrArg some hempty.symm
    · exact iff_of_true rfl hempty
  next hnonempty =>
    refine ⟨⟨⟨rfl, rfl, hnonempty⟩, fun _ _ _ hasking => ?_⟩, ?_⟩
    · cases hasking
    · exact History.keeps_cons.mpr ⟨trivial, hkeeps⟩

/-! ## Steps -/

theorem Covered.of_clientStep (h : Covered machine) (hgranted : Granted machine)
    (hregistry : machine.registry = machine.history.registry)
    (hstep : ClientStep machine after) : Covered after := by
  obtain ⟨hcovers, hkeeps⟩ := h
  have hascending : machine.registry.addresses.Pairwise (· < ·) :=
    hregistry ▸ (Registry.wellFormed_history machine.history).addresses_ascending
  -- Whatever is asked in this pass is as it has to be, if it names the addresses of the pass.
  have hasked : ∀ {addresses : List Address} {request : ClientRequest},
      InPass machine.history machine.registry addresses →
        (∀ named, request.addresses? = some named → named = addresses) →
          History.OfPass (.asked request) machine.history := by
    intro addresses request hin hnames
    refine ⟨addresses, hin.latest, hin.nonempty, hin.registered ▸ hascending, ?_, hnames⟩
    rw [← hregistry]
    exact hin.registered
  cases hstep with
  | @askedToSubscribe addresses failures hphase =>
      rw [hphase] at hcovers
      refine ⟨⟨hcovers.1.of_eq rfl, fun request number deadline hasking => ?_⟩, ?_⟩
      · cases hasking
        rfl
      · refine History.keeps_cons.mpr ⟨hasked hcovers.1 fun named hnamed => ?_, hkeeps⟩
        exact (Option.some.inj hnamed).symm
  | restedToSubscribe hphase =>
      rw [hphase] at hcovers
      refine ⟨⟨hcovers.1, fun _ _ _ hasking => ?_⟩, hkeeps⟩
      cases hasking
  | refusedToSubscribe hphase =>
      rw [hphase] at hcovers
      refine ⟨⟨hcovers.1.of_eq rfl, fun _ _ _ hasking => ?_⟩, ?_⟩
      · cases hasking
      · exact History.keeps_cons.mpr ⟨trivial, hkeeps⟩
  | gaveUpToSubscribe hphase =>
      rw [hphase] at hcovers
      refine ⟨⟨hcovers.1.of_eq rfl, fun _ _ _ hasking => ?_⟩, ?_⟩
      · cases hasking
      · exact History.keeps_cons.mpr ⟨trivial, hkeeps⟩
  | @subscribed addresses failures number deadline obtained request hphase =>
      rw [hphase] at hcovers
      obtain ⟨hin, hrequest⟩ := hcovers
      obtain rfl := hrequest request number deadline rfl
      refine ⟨⟨⟨?_, rfl, ?_⟩, obtained, rfl, ?_⟩, History.keeps_cons.mpr ⟨trivial, hkeeps⟩⟩
      · exact hin.latest.trans (congrArg some hin.registered.symm)
      · exact hin.registered ▸ hin.nonempty
      · rw [hin.registered]
        exact if_pos rfl
  | askedForHeader hphase =>
      rw [hphase] at hcovers
      obtain ⟨hin, hnumber⟩ := hcovers
      refine ⟨⟨hin.of_eq rfl, hnumber⟩, ?_⟩
      refine History.keeps_cons.mpr ⟨hasked hin fun named hnamed => ?_, hkeeps⟩
      cases hnamed
  | restedToFetch hphase =>
      rw [hphase] at hcovers
      exact ⟨hcovers, hkeeps⟩
  | @refusedToFetch fresh addresses failures number deadline request answer hphase hanswer =>
      rw [hphase] at hcovers
      obtain ⟨hin, mine, hfresh, hmine⟩ := hcovers
      refine ⟨⟨hin.of_eq rfl, mine, hfresh, ?_⟩, History.keeps_cons.mpr ⟨trivial, hkeeps⟩⟩
      -- A subscription that comes late, as the answer to another request, is not the one of this
      -- pass.
      have hother : answer ≠ .subscribed mine := by
        rintro rfl
        have hnew := hgranted.pending request number deadline mine (by rw [hphase]; rfl) hanswer
        exact hnew (hgranted.fresh mine (by rw [hphase]; exact hfresh)).1
      exact (History.queryOf?_answered request hother machine.history).trans hmine
  | gaveUpToFetch hphase =>
      rw [hphase] at hcovers
      obtain ⟨hin, hnumber⟩ := hcovers
      exact ⟨⟨hin.of_eq rfl, hnumber⟩, History.keeps_cons.mpr ⟨trivial, hkeeps⟩⟩
  | askedForLogs hphase =>
      rw [hphase] at hcovers
      obtain ⟨hin, hnumber⟩ := hcovers
      refine ⟨⟨hin.of_eq rfl, hnumber⟩, ?_⟩
      refine History.keeps_cons.mpr ⟨?_, History.keeps_cons.mpr ⟨trivial, hkeeps⟩⟩
      exact hasked hin fun named hnamed => (Option.some.inj hnamed).symm

theorem Covered.of_dispatch (h : Covered machine) {log : RawLog} :
    Covered (machine.dispatch log) := by
  rcases machine.dispatch_cases log with ⟨-, heq⟩ | ⟨before, listener, rest, quiet, -, -, hdown⟩
  · have hsame := (History.isOffPass_handOut log
      (History.receivers log machine.registry)).samePasses machine.history
    rw [heq]
    refine ⟨?_, ?_⟩
    · rw [history_record]
      exact h.phase.of_eq hsame.passAddresses? hsame.queryOf?
    · rw [history_record]
      exact h.history.append_free (History.ofPass_handOut log _)
  · refine Covered.of_breaksDown ?_ hdown
    rw [history_record]
    exact h.history.append_free (History.ofPass_handOut log before)

theorem Covered.of_controlStep (h : Covered machine) (hgranted : Granted machine)
    (hregistry : machine.registry = machine.history.registry)
    (hstep : ControlStep machine after) : Covered after := by
  have hwellFormed : machine.registry.WellFormed :=
    hregistry ▸ Registry.wellFormed_history machine.history
  cases hstep with
  | interrupted => exact ⟨trivial, h.history⟩
  | ready | resubscribed => exact .of_beginPass h.history hregistry
  | @handled caller command mailbox callers hphase =>
      have hoff := History.isOffPass_handling caller command
      refine ⟨?_, ?_⟩
      · rw [history_record]
        exact h.phase.of_handled (hoff.samePasses machine.history) hwellFormed hphase
      · rw [history_record]
        exact h.history.append_free (History.ofPass_handling caller command)
  | @repeated caller command mailbox =>
      obtain ⟨quiet, hdown⟩ := machine.breaksDown_repeated caller command mailbox
      refine Covered.of_breaksDown ?_ hdown
      exact History.keeps_cons.mpr ⟨trivial, h.history⟩
  | left =>
      obtain ⟨quiet, quiet', subscriptions, hquiet, hquiet', -, heq⟩ :=
        machine.leave_eq machine.phase.fresh?
      rw [heq]
      refine ⟨trivial, ?_⟩
      rw [history_record, List.append_assoc, List.append_assoc]
      refine History.Keeps.append_free (History.Keeps.append_free ?_ ?_) hquiet'.ofPass
      · exact h.history.append_free hquiet.ofPass
      · split
        next => exact History.ofPass_round_false machine.registry
        next => simp
  | talked _ htalk => exact h.of_clientStep hgranted hregistry htalk
  | @fetched fresh addresses failures number deadline query logs hphase =>
      -- No request was handled since the pass began, so that its addresses are still registered.
      have hcovers := h.phase
      rw [hphase] at hcovers
      obtain ⟨hin, mine, rfl, hmine⟩ := hcovers
      have hends := passEnds_completePass
        (machine.record [.answered (.filter query) (.logs logs)]) (some mine) logs
      refine Covered.of_passEnds ?_ ?_ ?_ ?_ ?_ hends
      · exact History.keeps_cons.mpr ⟨trivial, h.history⟩
      · exact hregistry
      · exact hin.latest.trans (congrArg some hin.registered.symm)
      · have hcovered := congrArg (Option.map FilterQuery.addresses) hmine
        exact hcovered.trans (congrArg some hin.registered.symm)
      · exact iff_of_false (Option.some_ne_none mine) (hin.registered ▸ hin.nonempty)
  | @lost _ number _ _ error subscription later =>
      rw [notifyDisconnected_eq]
      refine Covered.of_beginPass ?_ ?_
      · rw [history_record]
        refine History.Keeps.append_free ?_ (History.ofPass_round_false _)
        exact History.keeps_cons.mpr ⟨trivial, h.history⟩
      · rw [history_record]
        have hround := (History.isOffStream_round false machine.registry).sameRoutes
          (.lost error :: machine.history)
        exact hregistry.trans hround.registry.symm
  | ticked hphase =>
      have hcovers := h.phase
      rw [hphase] at hcovers
      exact ⟨hcovers, h.history⟩
  | took =>
      refine Covered.of_dispatch ⟨?_, ?_⟩
      · exact h.phase.of_eq rfl fun _ => rfl
      · exact History.keeps_cons.mpr ⟨trivial, h.history⟩
  | streamEnded hphase =>
      have hcovers := h.phase
      rw [hphase] at hcovers
      exact ⟨hcovers, h.history⟩
  | ended =>
      obtain ⟨callers, heq, -⟩ := machine.closeMailbox_eq
      rw [heq]
      exact ⟨trivial, h.history⟩

theorem Covered.of_outsideStep (h : Covered machine) (hstep : OutsideStep machine after) :
    Covered after := by
  cases hstep with
  | accepted =>
      exact ⟨h.phase.of_eq rfl fun _ => rfl, History.keeps_cons.mpr ⟨trivial, h.history⟩⟩
  | started => exact ⟨trivial, h.history⟩
  | _ => exact ⟨h.phase, h.history⟩

theorem Reachable.covered (h : Reachable machine) : Covered machine := by
  induction h using Reachable.always with
  | initial => exact ⟨trivial, History.keeps_nil _⟩
  | control hreach _ hstep ih =>
      exact ih.of_controlStep hreach.granted hreach.registry_eq hstep
  | outside _ _ hstep ih => exact ih.of_outsideStep hstep

/-- While the relay processes and has no reason to subscribe anew, the addresses of its subscription
are those of the registry, and it does without a subscription exactly if there are
none.  So an address of the registry is covered, or the relay knows that it has to subscribe
anew.  In every pass all requests name the same addresses, which are ascending and are
those of the registry until the listeners have been told that they are connected; and
nothing is asked in a pass without addresses. -/
theorem Reachable.subscription_covers_registry (h : Reachable machine) :
    (∀ nextTick stale logsOpen, machine.phase = .processing nextTick stale logsOpen →
      (stale = false →
        machine.history.covered? machine.current = some machine.registry.addresses ∧
          (machine.current = none ↔ machine.registry.addresses = [])) ∧
      ∃ addresses, machine.history.covered? machine.current = some addresses ∧
        ∀ address ∈ machine.registry.addresses, address ∈ addresses ∨ stale = true) ∧
    machine.registry = machine.history.registry ∧
    machine.history.Keeps fun _ => History.OfPass := by
  refine ⟨fun nextTick stale logsOpen hphase => ?_, h.registry_eq, h.covered.history⟩
  have hcovers := h.covered.phase
  rw [hphase] at hcovers
  obtain ⟨addresses, hcovered, hnone, hstale⟩ := hcovers
  refine ⟨fun hfresh => ?_, addresses, hcovered, fun address hmem => ?_⟩
  · rw [hstale hfresh]
    exact ⟨hcovered, hnone⟩
  · cases stale with
    | true => exact .inr rfl
    | false => exact .inl (hstale rfl ▸ hmem)

theorem sample_subscription_covers_registry :
    Sample.machine.current = some 0 ∧
      Sample.machine.history.covered? Sample.machine.current =
        some Sample.machine.registry.addresses := by
  have hcovers := Reachable.subscription_covers_registry Sample.reachable
  have hphase : Sample.machine.phase = .processing 100 false true := by rfl
  exact ⟨by decide, ((hcovers.1 100 false true hphase).1 rfl).1⟩

end Machine

end LogRelay
