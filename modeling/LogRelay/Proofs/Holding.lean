import LogRelay.Proofs.Flow
import LogRelay.Proofs.Leases
import LogRelay.Proofs.Requests

/-!
# What the relay holds

What is outstanding is exactly what the relay holds (`Held`): while it is in a pass, the new
subscription and the one in use; while it processes, the one in use; before the first pass
and after the end, nothing.  So no more than two subscriptions are outstanding at any
moment.

A step of the control task does one of four things to the subscriptions (`Settles`): it
keeps them, obtains one, gives all of them back, or completes a pass.
-/

namespace LogRelay

namespace Phase

/-- Whether there was no pass yet. -/
def isEarly : Phase → Bool
  | idle | waiting => true
  | _ => false

theorem isEarly_of_isActive {phase : Phase} (h : phase.isActive = true) :
    phase.isEarly = false := by
  cases phase
  case subscribing | backfilling | processing => rfl
  all_goals cases h

theorem isEarly_afterHandling (phase : Phase) (changed : Bool) :
    (phase.afterHandling changed).isEarly = phase.isEarly := by
  cases phase <;> rfl

theorem fresh?_afterHandling (phase : Phase) (changed : Bool) :
    (phase.afterHandling changed).fresh? = phase.fresh? := by
  cases phase <;> rfl

end Phase

namespace History

theorem mem_obtained_of_leased {history : History} {number : Nat}
    (h : number ∈ history.leased) : number ∈ history.obtained := by
  induction history with
  | nil => cases h
  | cons effect older ih =>
      cases effect
      case answered request answer =>
        cases answer
        case subscribed obtained =>
          cases request
          case subscribe query =>
            rcases List.mem_cons.mp h with rfl | hold
            · exact List.mem_cons_self ..
            · exact List.mem_cons_of_mem _ (ih hold)
          all_goals exact List.mem_cons_of_mem _ (ih h)
        all_goals
          rw [leased_cons (by cases request <;> exact trivial)] at h
          exact ih h
      all_goals exact ih h

/-- At no moment more than two subscriptions were outstanding. -/
def Few (history : History) : Prop :=
  ∀ older : History, older <:+ history → older.outstanding.length ≤ 2

theorem Few.append {burst older : History} (h : older.Few) (hburst : burst.LeasesNothing) :
    (burst ++ older).Few := by
  induction burst with
  | nil => exact h
  | cons effect burst ih =>
      obtain ⟨heffect, hrest⟩ := List.forall_mem_cons.mp hburst
      intro earlier hsuffix
      rcases List.suffix_cons_iff.mp hsuffix with rfl | hearlier
      · have hle := outstanding_cons_le heffect (burst ++ older)
        exact Nat.le_trans hle (ih hrest _ List.suffix_rfl)
      · exact ih hrest earlier hearlier

end History

namespace Machine

variable {machine after : Machine}

/-! ## What the relay holds -/

/-- The numbers of the subscriptions that the relay holds. -/
def holding (machine : Machine) : List Nat :=
  if machine.phase.isActive then machine.phase.fresh?.toList ++ machine.current.toList else []

/-- What is outstanding is what the relay holds, and it was never more than two subscriptions. -/
structure Held (machine : Machine) : Prop where
  tallied : Tallied machine
  nodup : machine.history.leased.Nodup
  tornDown : ∀ number ∈ machine.history.tornDown, number ∈ machine.history.leased
  holding : ∀ number, number ∈ machine.history.outstanding ↔ number ∈ machine.holding
  few : machine.history.Few
  unused : machine.phase.isEarly = true → machine.current = none

theorem Held.leased_of_holding (h : Held machine) {number : Nat}
    (hnumber : number ∈ machine.holding) :
    number ∈ machine.history.leased ∧ number ∉ machine.history.tornDown :=
  History.mem_outstanding.mp ((h.holding number).mpr hnumber)

theorem holding_eq_nil (h : machine.phase.isActive = false) : machine.holding = [] := by
  rw [Machine.holding, h]
  rfl

theorem holding_eq (h : machine.phase.isActive = true) :
    machine.holding = machine.phase.fresh?.toList ++ machine.current.toList := by
  rw [Machine.holding, h]
  rfl

/-- Outside a pass there is no new subscription. -/
theorem Held.holding_of_handlesRequests (h : Held machine)
    (hphase : machine.phase.handlesRequests = true) :
    machine.holding = machine.current.toList := by
  cases hcase : machine.phase
  case waiting =>
    rw [h.unused (by rw [hcase]; rfl)]
    exact holding_eq_nil (by rw [hcase]; rfl)
  case processing =>
    rw [holding_eq (by rw [hcase]; rfl), hcase]
    rfl
  all_goals
    rw [hcase] at hphase
    cases hphase

/-- What was held and is not given back is still held. -/
theorem Held.of_releases (h : Held machine) {released : List Nat}
    (hreleases : Releases machine after released)
    (hreleased : ∀ number ∈ released, number ∈ machine.holding)
    (hholding : ∀ number, number ∈ after.holding ↔
      number ∈ machine.holding ∧ number ∉ released)
    (hunused : after.phase.isEarly = true → after.current = none) :
    Held after := by
  have hleased := hreleases.leased
  refine ⟨hreleases.tallied, hleased ▸ h.nodup, fun number hnumber => ?_, fun number => ?_, ?_,
    hunused⟩
  · rw [hleased]
    rcases (hreleases.tornDown number).mp hnumber with hold | hnew
    · exact h.tornDown number hold
    · exact (h.leased_of_holding (hreleased number hnew)).1
  · rw [hholding, ← h.holding, History.mem_outstanding, History.mem_outstanding, hleased,
      hreleases.tornDown, not_or, and_assoc]
  · obtain ⟨burst, hburst, heq⟩ := hreleases.history
    rw [heq]
    exact h.few.append hburst

/-- A step that gives nothing back and leaves what is held alone. -/
theorem Held.of_releases_nothing (h : Held machine) (hreleases : Releases machine after [])
    (hholding : after.holding = machine.holding)
    (hunused : after.phase.isEarly = true → after.current = none) :
    Held after := by
  refine h.of_releases hreleases (fun number hnumber => absurd hnumber List.not_mem_nil)
    (fun number => ?_) hunused
  rw [hholding]
  simp

/-- A step that gives everything back. -/
theorem Held.of_releases_all (h : Held machine) {released : List Nat}
    (hreleases : Releases machine after released)
    (hreleased : released = machine.holding) (hover : after.phase.isActive = false)
    (hunused : after.phase.isEarly = true → after.current = none) :
    Held after := by
  subst hreleased
  refine h.of_releases hreleases (fun number hnumber => hnumber) (fun number => ?_) hunused
  rw [holding_eq_nil hover]
  simp

/-! ## What a step gives back -/

/-- The relay is about to complete a pass: it holds the new subscription, if there is one, and the
one in use, and has just fetched the earlier logs, or has no addresses. -/
structure Completes (machine : Machine) (fresh : Option Nat) (logs : List RawLog) : Prop where
  holding : machine.holding = fresh.toList ++ machine.current.toList
  distinct : ∀ number ∈ fresh.toList, number ∉ machine.current.toList
  made : machine.IsMade fresh
  madeCurrent : machine.IsMade machine.current
  created : ∀ new, fresh = some new →
    ∃ query older, machine.history = .answered (.filter query) (.logs logs) :: older
  idle : fresh = none → machine.registry.addresses = [] ∧ logs = [] ∧
    ∃ older, machine.history = .began [] :: older

/-- What a step of the control task means for the subscriptions. -/
inductive Settles (machine after : Machine) : Prop
  /-- All that was held is held. -/
  | kept (hreleases : Releases machine after []) (hholding : after.holding = machine.holding)
      (hunused : after.phase.isEarly = true → after.current = none)
  /-- A subscription is obtained. -/
  | leased {query : FilterQuery} {obtained : Nat} (hnew : obtained ∉ machine.history.obtained)
      (hhistory : after.history =
        .answered (.subscribe query) (.subscribed obtained) :: machine.history)
      (hmarks : after.subscriptions.marks = machine.subscriptions.marks)
      (hbefore : machine.holding = machine.current.toList)
      (hafter : after.holding = obtained :: machine.current.toList)
      (hunused : after.phase.isEarly = true → after.current = none)
  /-- All that was held is given back. -/
  | dropped (hreleases : Releases machine after machine.holding)
      (hover : after.phase.isActive = false) (hbegun : after.phase.isEarly = false)
      (hreason : machine.signalled = true ∨ after.phase = .crashed)
  /-- A pass is completed. -/
  | completed {middle : Machine} {fresh : Option Nat} {logs : List RawLog}
      (hreleases : Releases machine middle []) (hholding : middle.holding = machine.holding)
      (hunused : middle.phase.isEarly = true → middle.current = none)
      (hpipeline : middle.pipeline = machine.pipeline) (hcompletes : Completes middle fresh logs)
      (hafter : after = middle.completePass fresh logs)

/-! ## Steps -/

theorem isMade_fresh? (hgranted : Granted machine) (hlent : Lent machine) :
    machine.IsMade machine.phase.fresh? :=
  fun number hnumber =>
    hlent.obtained number (hgranted.fresh number (Option.mem_toList.mp hnumber)).1

theorem isMade_current (hgranted : Granted machine) (hlent : Lent machine) :
    machine.IsMade machine.current :=
  fun number hnumber => hlent.obtained number
    (hgranted.used number (hgranted.current number (Option.mem_toList.mp hnumber)))

theorem unused_of_isActive (h : machine.phase.isActive = true)
    (hearly : machine.phase.isEarly = true) : machine.current = none := by
  rw [Phase.isEarly_of_isActive h] at hearly
  cases hearly

theorem Held.settles_of_beginPass {start : Machine} (h : Held machine)
    (hreleases : Releases start machine []) (hholding : machine.holding = start.holding)
    (hpipeline : machine.pipeline = start.pipeline)
    (hphase : machine.phase.handlesRequests = true) (hcurrent : machine.IsMade machine.current) :
    Settles start machine.beginPass := by
  have hheld := h.holding_of_handlesRequests hphase
  rw [beginPass_eq]
  split
  next hempty =>
    have hbegan : Releases machine (machine.record [.began []]) [] :=
      h.tallied.of_effect rfl trivial rfl
    refine .completed (hreleases.trans hbegan) hholding h.unused hpipeline ?_ rfl
    refine ⟨hheld, ?_, ?_, hcurrent, nofun, fun _ => ⟨hempty, rfl, machine.history, rfl⟩⟩
    all_goals exact fun number hnumber => absurd hnumber List.not_mem_nil
  next =>
    have hbegan : Releases machine { machine.record [.began machine.registry.addresses] with
        phase := .subscribing machine.registry.addresses 0 .due } [] :=
      h.tallied.of_effect rfl trivial rfl
    exact .kept (hreleases.trans hbegan) (hheld.symm.trans hholding) nofun

theorem Held.settles_of_clientStep (h : Held machine) (hgranted : Granted machine)
    (hcovered : Covered machine) (hfetches : Fetches machine)
    (hstep : ClientStep machine after) : Settles machine after := by
  -- All but one of these steps lead to no subscription, and the relay holds what it held before.
  have hkeeps : ∀ {later : Machine} {burst : History}, burst.IsOffLease →
      later.history = burst ++ machine.history → later.subscriptions = machine.subscriptions →
      later.current = machine.current → machine.phase.isActive = true →
      later.phase.isActive = true → later.phase.fresh? = machine.phase.fresh? →
        Settles machine later := by
    intro later burst hoff hhistory hsubscriptions hcurrent hbefore hafter hfresh
    have hreleases := releases_nothing h.tallied hoff hhistory (by rw [hsubscriptions])
    refine .kept hreleases ?_ (unused_of_isActive hafter)
    rw [holding_eq hafter, holding_eq hbefore, hfresh, hcurrent]
  have hnone : History.IsOffLease [] := fun _ hmem => absurd hmem List.not_mem_nil
  have hone : ∀ {effect : Effect}, effect.IsOffLease → History.IsOffLease [effect] :=
    fun heffect => List.forall_mem_singleton.mpr heffect
  cases hstep with
  | askedToSubscribe hphase | askedForHeader hphase =>
      have hoff : ∀ request, Effect.IsOffLease (.asked request) := fun _ => trivial
      refine hkeeps (hone (hoff _)) rfl rfl rfl ?_ rfl ?_
      all_goals
        rw [hphase]
        rfl
  | restedToSubscribe hphase | restedToFetch hphase =>
      refine hkeeps hnone rfl rfl rfl ?_ rfl ?_
      all_goals
        rw [hphase]
        rfl
  | gaveUpToSubscribe hphase | gaveUpToFetch hphase =>
      have hoff : ∀ request, Effect.IsOffLease (.gaveUp request) := fun _ => trivial
      refine hkeeps (hone (hoff _)) rfl rfl rfl ?_ rfl ?_
      all_goals
        rw [hphase]
        rfl
  | @refusedToSubscribe _ _ _ _ request answer hphase hanswer hother =>
      have hoff : Effect.IsOffLease (.answered request answer) := by
        cases answer
        case subscribed obtained => exact absurd rfl (hother obtained)
        all_goals cases request <;> exact trivial
      refine hkeeps (hone hoff) rfl rfl rfl ?_ rfl ?_
      all_goals
        rw [hphase]
        rfl
  | @refusedToFetch _ _ _ _ _ request answer hphase =>
      -- While it fetches it does not ask for subscriptions.
      have hoff : Effect.IsOffLease (.answered request answer) := by
        rcases hfetches _ _ _ _ _ _ hphase with rfl | ⟨header, -, rfl⟩
        all_goals exact trivial
      refine hkeeps (hone hoff) rfl rfl rfl ?_ rfl ?_
      all_goals
        rw [hphase]
        rfl
  | @askedForLogs _ addresses _ _ _ header hphase =>
      have hoff : ∀ request,
          History.IsOffLease [.asked request, .answered .header (.header (some header))] :=
        fun _ => List.forall_mem_cons.mpr ⟨trivial, hone trivial⟩
      refine hkeeps (hoff _) rfl rfl rfl ?_ rfl ?_
      all_goals
        rw [hphase]
        rfl
  | @subscribed addresses failures number deadline obtained request hphase hanswer =>
      have hcovers := hcovered.phase
      rw [hphase] at hcovers
      obtain rfl := hcovers.2 request number deadline rfl
      have hnew := hgranted.pending _ number deadline obtained (by rw [hphase]; rfl) hanswer
      refine .leased hnew rfl rfl ?_ rfl nofun
      rw [holding_eq (by rw [hphase]; rfl), hphase]
      rfl

theorem Held.settles_of_dispatch {start : Machine} (h : Held machine)
    (hreleases : Releases start machine []) (hholding : machine.holding = start.holding)
    (hphase : machine.phase.handlesRequests = true) (hcurrent : machine.IsMade machine.current)
    (log : RawLog) : Settles start (machine.dispatch log) := by
  rcases h.tallied.dispatch hcurrent log with ⟨hout, out, heq⟩ | ⟨hdown, hcrashed⟩
  · rw [heq] at hout ⊢
    exact .kept (hreleases.trans hout) hholding h.unused
  · rw [← h.holding_of_handlesRequests hphase, hholding] at hdown
    refine .dropped (hreleases.trans hdown) ?_ ?_ (.inr hcrashed)
    all_goals
      rw [hcrashed]
      rfl

theorem Held.settles_of_repeated (h : Held machine)
    (hphase : machine.phase.handlesRequests = true) (hcurrent : machine.IsMade machine.current)
    (caller : CallerId) (command : Command) (mailbox : Mailbox) :
    Settles machine
      ((({ machine with mailbox }.record [.handled caller command]).answerCaller none
        caller).crash none) := by
  have hhandled : Releases machine (({ machine with mailbox }.record
      [.handled caller command]).answerCaller none caller) [] :=
    h.tallied.of_effect rfl trivial rfl
  obtain ⟨quiet, hdown⟩ := machine.breaksDown_repeated caller command mailbox
  have hnone : (({ machine with mailbox }.record [.handled caller command]).answerCaller none
      caller).IsMade none :=
    fun _ hmem => absurd hmem List.not_mem_nil
  have hreleases := hhandled.trans
    (hhandled.tallied.crash hnone (hcurrent.of_releases hhandled))
  refine .dropped (h.holding_of_handlesRequests hphase ▸ hreleases) ?_ ?_ (.inr hdown.phase)
  all_goals
    rw [hdown.phase]
    rfl

/-- When the logs that were asked for are there, the pass can be completed. -/
theorem completes_of_fetched (hgranted : Granted machine) (hlent : Lent machine)
    (hcovered : Covered machine) {fresh : Option Nat} {addresses : List Address}
    {failures number deadline : Nat} {query : FilterQuery} {logs : List RawLog}
    (hphase : machine.phase =
      .backfilling fresh addresses failures (.asking (.filter query) number deadline)) :
    Completes (machine.record [.answered (.filter query) (.logs logs)]) fresh logs := by
  have hfresh : machine.phase.fresh? = fresh := by
    rw [hphase]
    rfl
  have hmade := isMade_fresh? hgranted hlent
  rw [hfresh] at hmade
  have hcurrent := isMade_current hgranted hlent
  refine ⟨?_, fun number hnew hold => ?_, hmade, hcurrent, fun _ _ =>
    ⟨query, machine.history, rfl⟩, fun hnone => ?_⟩
  · change machine.holding = fresh.toList ++ machine.current.toList
    rw [holding_eq (by rw [hphase]; rfl), hfresh]
  · -- The one in use was taken into use, and the new one was not.
    have hunused := (hgranted.fresh number (hfresh.trans (Option.mem_toList.mp hnew))).2
    exact hunused (hgranted.current number (Option.mem_toList.mp hold))
  · -- Logs are fetched only for a new subscription.
    have hcovers := hcovered.phase
    rw [hphase] at hcovers
    obtain ⟨-, mine, hmine, -⟩ := hcovers
    cases hnone.symm.trans hmine

theorem Held.settles (h : Held machine) (hgranted : Granted machine) (hlent : Lent machine)
    (hcovered : Covered machine) (hfetches : Fetches machine) (hstep : ControlStep machine after) :
    Settles machine after := by
  have hcurrent := isMade_current hgranted hlent
  cases hstep with
  | interrupted hphase =>
      have hholding : machine.holding = [] := holding_eq_nil (by rw [hphase]; rfl)
      exact .kept (h.tallied.of_same rfl rfl) hholding.symm fun hearly => by cases hearly
  | ready hphase | resubscribed hphase =>
      refine h.settles_of_beginPass h.tallied.refl rfl rfl ?_ hcurrent
      rw [hphase]
      rfl
  | @handled caller command mailbox callers =>
      have hreleases := releases_nothing h.tallied (History.isOffLease_handling caller command)
        (history_record ({ machine with
          mailbox, callers
          registry := machine.registry.apply command
          phase := machine.phase.afterHandling (machine.registry.changes command) }) _) rfl
      refine .kept hreleases ?_ fun hearly => h.unused ?_
      · simp only [Machine.holding, record, Phase.isActive_afterHandling,
          Phase.fresh?_afterHandling]
      · rwa [record, Phase.isEarly_afterHandling] at hearly
  | @repeated caller command mailbox hphase =>
      exact h.settles_of_repeated hphase hcurrent caller command mailbox
  | left hphase hsignal =>
      have hreleases := h.tallied.leave (isMade_fresh? hgranted hlent) hcurrent
      rw [← holding_eq hphase] at hreleases
      exact .dropped hreleases rfl rfl (.inl hsignal)
  | talked _ htalk => exact h.settles_of_clientStep hgranted hcovered hfetches htalk
  | @fetched _ _ _ _ _ query logs hphase =>
      have hanswered : Releases machine
          (machine.record [.answered (.filter query) (.logs logs)]) [] :=
        h.tallied.of_effect rfl trivial rfl
      exact .completed hanswered rfl h.unused rfl
        (completes_of_fetched hgranted hlent hcovered hphase) rfl
  | @lost _ number _ _ error subscription later hphase _ _ hsubscription hfailure =>
      have hmarks := Subscriptions.marks_set hsubscription
        (ClientSubscription.unsubscribed_of_failure? hfailure)
      have hlost : Releases machine ({ machine with
          subscriptions := machine.subscriptions.set number later }.record [.lost error]) [] :=
        h.tallied.of_effect rfl trivial hmarks
      have htold := hlost.trans hlost.tallied.notifyDisconnected
      rw [notifyDisconnected_eq] at htold ⊢
      have hheld := h.of_releases_nothing htold rfl h.unused
      exact hheld.settles_of_beginPass htold rfl rfl (congrArg Phase.handlesRequests hphase)
        (hcurrent.of_releases htold)
  | ticked hphase | streamEnded hphase =>
      have hholding : machine.holding = machine.current.toList := by
        rw [holding_eq (by rw [hphase]; rfl), hphase]
        rfl
      exact .kept (h.tallied.of_same rfl rfl) hholding.symm fun hearly => by cases hearly
  | @took _ _ log pipeline hphase =>
      have htook : Releases machine ({ machine with pipeline }.record [.took log]) [] :=
        h.tallied.of_effect rfl trivial rfl
      have hheld := h.of_releases_nothing htook rfl h.unused
      exact hheld.settles_of_dispatch htook rfl (congrArg Phase.handlesRequests hphase) hcurrent log
  | ended hphase =>
      have hholding : machine.holding = [] := holding_eq_nil (by rw [hphase]; rfl)
      obtain ⟨callers, heq, -⟩ := machine.closeMailbox_eq
      rw [heq]
      exact .kept (h.tallied.of_same rfl rfl) hholding.symm fun hearly => by cases hearly

/-! ## Runs -/

/-- The relay obtains a subscription and holds it from now on. -/
theorem Held.of_lease (h : Held machine) {query : FilterQuery} {obtained : Nat}
    (hnew : obtained ∉ machine.history.obtained)
    (hhistory : after.history =
      .answered (.subscribe query) (.subscribed obtained) :: machine.history)
    (hmarks : after.subscriptions.marks = machine.subscriptions.marks)
    (hbefore : machine.holding = machine.current.toList)
    (hafter : after.holding = obtained :: machine.current.toList)
    (hunused : after.phase.isEarly = true → after.current = none) :
    Held after := by
  have hunleased : obtained ∉ machine.history.leased :=
    fun hmem => hnew (History.mem_obtained_of_leased hmem)
  have hleased : after.history.leased = obtained :: machine.history.leased := by
    rw [hhistory]
    rfl
  have hdown : after.history.tornDown = machine.history.tornDown := by
    rw [hhistory]
    rfl
  have hnodup : after.history.leased.Nodup := by
    rw [hleased]
    exact List.nodup_cons.mpr ⟨hunleased, h.nodup⟩
  have hholding : ∀ number, number ∈ after.history.outstanding ↔ number ∈ after.holding := by
    intro number
    rw [History.mem_outstanding, hleased, hdown, hafter, List.mem_cons, List.mem_cons,
      ← hbefore, ← h.holding, History.mem_outstanding]
    constructor
    · rintro ⟨rfl | hold, hnot⟩
      · exact .inl rfl
      · exact .inr ⟨hold, hnot⟩
    · rintro (rfl | ⟨hold, hnot⟩)
      · exact ⟨.inl rfl, fun hmem => hunleased (h.tornDown number hmem)⟩
      · exact ⟨.inr hold, hnot⟩
  refine ⟨⟨fun number => ?_, hdown ▸ h.tallied.nodup⟩, hnodup, fun number hnumber => ?_, hholding,
    fun older hsuffix => ?_, hunused⟩
  · rw [hmarks, hdown]
    exact h.tallied.marks number
  · rw [hleased]
    exact List.mem_cons_of_mem _ (h.tornDown number (hdown ▸ hnumber))
  · rw [hhistory] at hsuffix
    rcases List.suffix_cons_iff.mp hsuffix with rfl | hold
    · -- No two of them are the same, and they are the new one and perhaps the one in use.
      rw [← hhistory]
      have hsub : after.history.outstanding ⊆ obtained :: machine.current.toList :=
        fun number hmem => hafter ▸ (hholding number).mp hmem
      have hle := (List.subperm_of_subset (hnodup.filter _) hsub).length_le
      have hone : machine.current.toList.length ≤ 1 := by
        cases machine.current <;> simp
      rw [List.length_cons] at hle
      exact Nat.le_trans hle (Nat.succ_le_succ hone)
    · exact h.few older hold

/-- What is held when a pass ends is the new subscription and the one in use. -/
theorem Held.of_completePass (h : Held machine) {fresh : Option Nat} {logs : List RawLog}
    (hcompletes : Completes machine fresh logs) : Held (machine.completePass fresh logs) := by
  have hholding := hcompletes.holding
  rcases h.tallied.completePass hcompletes.made hcompletes.madeCurrent logs with
    ⟨hreleases, nextTick, heq⟩ | ⟨hreleases, hphase⟩
  · have hadopted := adopts_adopt (machine.record [.gathered logs fresh]) fresh logs
    refine h.of_releases hreleases (fun number hnumber => ?_) (fun number => ?_) fun hphase => ?_
    · rw [hholding]
      exact List.mem_append_right _ hnumber
    · have hafter : (machine.completePass fresh logs).holding = fresh.toList := by
        rw [heq]
        exact congrArg Option.toList hadopted.current
      rw [hafter, hholding, List.mem_append]
      constructor
      · exact fun hnumber => ⟨.inl hnumber, hcompletes.distinct number hnumber⟩
      · rintro ⟨hnumber | hold, hnot⟩
        · exact hnumber
        · exact absurd hold hnot
    · rw [heq] at hphase
      cases hphase
  · refine h.of_releases_all hreleases hholding.symm ?_ fun hearly => ?_
    · rw [hphase]
      rfl
    · rw [hphase] at hearly
      cases hearly

theorem Held.of_settles (h : Held machine) (hsettles : Settles machine after) : Held after := by
  cases hsettles with
  | kept hreleases hholding hunused => exact h.of_releases_nothing hreleases hholding hunused
  | leased hnew hhistory hmarks hbefore hafter hunused =>
      exact h.of_lease hnew hhistory hmarks hbefore hafter hunused
  | dropped hreleases hover hbegun =>
      refine h.of_releases_all hreleases rfl hover fun hearly => ?_
      rw [hbegun] at hearly
      cases hearly
  | completed hreleases hholding hunused _ hcompletes hafter =>
      rw [hafter]
      exact (h.of_releases_nothing hreleases hholding hunused).of_completePass hcompletes

theorem OutsideStep.marks (h : OutsideStep machine after) :
    after.subscriptions.marks = machine.subscriptions.marks ∨
      after.subscriptions.marks = machine.subscriptions.marks ++ [false] := by
  cases h with
  | staged hstep => exact .inl (Pipeline.marks_of_step? hstep)
  | accepted hnumber => exact .inl (Subscriptions.marks_set hnumber rfl)
  | shut _ hmarks => exact .inl hmarks
  | opened => exact .inr (List.map_append ..)
  | granted | replied | started | arranged => exact .inl rfl

theorem Held.of_outsideStep (h : Held machine) (hstep : OutsideStep machine after) :
    Held after := by
  have haside := hstep.aside
  have hburst : ∃ burst, History.IsOffLease burst ∧ after.history = burst ++ machine.history := by
    rcases haside.history with heq | ⟨number, log, heq⟩
    · exact ⟨[], fun _ hmem => absurd hmem List.not_mem_nil, heq⟩
    · exact ⟨[.accepted number log], List.forall_mem_singleton.mpr trivial, heq⟩
  obtain ⟨burst, hoff, heq⟩ := hburst
  have hleased : after.history.leased = machine.history.leased := by
    rw [heq]
    exact hoff.leasesNothing.leased machine.history
  have hdown : after.history.tornDown = machine.history.tornDown := by
    rw [heq]
    exact hoff.tornDown machine.history
  have hholding : after.holding = machine.holding := by
    rcases haside.phase with hsame | ⟨hidle, hwaiting⟩
    · rw [Machine.holding, hsame, haside.current, Machine.holding]
    · rw [holding_eq_nil (by rw [hwaiting]; rfl), holding_eq_nil (by rw [hidle]; rfl)]
  refine ⟨⟨fun number => ?_, hdown ▸ h.tallied.nodup⟩, hleased ▸ h.nodup, ?_, fun number => ?_, ?_,
    fun hearly => ?_⟩
  · rw [hdown, ← h.tallied.marks number]
    rcases hstep.marks with hsame | hmore
    · rw [hsame]
    · -- The flag of the new subscription is not set.
      rw [hmore, List.getElem?_append]
      split
      next => rfl
      next hle =>
        rw [List.getElem?_eq_none (Nat.le_of_not_lt hle)]
        rcases Nat.eq_zero_or_pos (number - machine.subscriptions.marks.length) with hzero | hpos
        · simp [hzero]
        · simp [List.getElem?_eq_none (show [false].length ≤ _ from hpos)]
  · rw [hleased, hdown]
    exact h.tornDown
  · rw [hholding, ← h.holding, History.outstanding, History.outstanding, hleased, hdown]
  · rw [heq]
    exact h.few.append hoff.leasesNothing
  · rw [haside.current]
    rcases haside.phase with hsame | ⟨hidle, -⟩
    · exact h.unused (hsame ▸ hearly)
    · exact h.unused (by rw [hidle]; rfl)

theorem Reachable.held (h : Reachable machine) : Held machine := by
  induction h using Reachable.always with
  | initial =>
      refine ⟨⟨fun number => ?_, List.nodup_nil⟩, List.nodup_nil, fun _ hmem => ?_,
        fun number => ?_, fun older hsuffix => ?_, fun _ => rfl⟩
      · simp [Machine.initial, create, history, Subscriptions.marks]
      · cases hmem
      · exact iff_of_false List.not_mem_nil List.not_mem_nil
      · rw [List.suffix_nil.mp hsuffix]
        exact Nat.zero_le 2
  | control hreach _ hstep ih =>
      exact ih.of_settles
        (ih.settles hreach.granted hreach.lent hreach.covered hreach.fetches hstep)
  | outside _ _ hstep ih => exact ih.of_outsideStep hstep

end Machine

end LogRelay
