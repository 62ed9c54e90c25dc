import LogRelay.Proofs.Run

/-!
# Which subscriptions are torn down

A subscription is leased when subscribing has led to it, and it is given back when the
client is told to tear it down.  The flag of a subscription says whether this was done, so that
it is done once (`Tallied`).

The operations of the control task give back what they let go of and nothing else.  For
each of them `Releases` says which numbers these are:

```text
discard, discardUnused    the one they are told
crash, leave              the new one and the one in use
adopt                     the one in use
```
-/

namespace LogRelay

/-- Whether the effect neither leads to a subscription nor tears one down. -/
def Effect.IsOffLease : Effect → Prop
  | .answered (.subscribe _) (.subscribed _) | .unsubscribed _ => False
  | _ => True

namespace History

/-- The numbers of the subscriptions that subscribing has led to. -/
@[simp] def leased : History → List Nat
  | [] => []
  | .answered (.subscribe _) (.subscribed number) :: older => number :: leased older
  | _ :: older => leased older

/-- The numbers of the subscriptions that the client was told to tear down, one for each time. -/
@[simp] def tornDown : History → List Nat
  | [] => []
  | .unsubscribed number :: older => number :: tornDown older
  | _ :: older => tornDown older

/-- The numbers of the subscriptions that were obtained and not torn down. -/
def outstanding (history : History) : List Nat :=
  history.leased.filter (· ∉ history.tornDown)

theorem mem_outstanding {history : History} {number : Nat} :
    number ∈ history.outstanding ↔ number ∈ history.leased ∧ number ∉ history.tornDown := by
  simp [outstanding]

theorem leased_cons {effect : Effect} (h : effect.IsOffLease) (older : History) :
    leased (effect :: older) = older.leased := by
  cases effect
  case answered request answer =>
    cases request
    case subscribe query =>
      cases answer
      case subscribed number => exact h.elim
      all_goals rfl
    all_goals rfl
  all_goals rfl

theorem tornDown_cons {effect : Effect} (h : effect.IsOffLease) (older : History) :
    tornDown (effect :: older) = older.tornDown := by
  cases effect
  case unsubscribed number => exact h.elim
  all_goals rfl

/-- Nothing becomes outstanding but by a lease. -/
theorem outstanding_cons_le {effect : Effect}
    (h : effect.IsOffLease ∨ effect.IsTearDown) (older : History) :
    (outstanding (effect :: older)).length ≤ older.outstanding.length := by
  rcases h with hoff | hdown
  · rw [outstanding, leased_cons hoff, tornDown_cons hoff]
    exact Nat.le_refl _
  · cases effect
    case unsubscribed number =>
      have hsub : outstanding (.unsubscribed number :: older) =
          older.outstanding.filter (· ≠ number) := by
        simp [outstanding, List.filter_filter]
      rw [hsub]
      exact List.length_filter_le ..
    all_goals exact hdown.elim

/-- A history without leases. -/
def LeasesNothing (history : History) : Prop :=
  ∀ effect ∈ history, effect.IsOffLease ∨ effect.IsTearDown

theorem LeasesNothing.append {first second : History} (h : first.LeasesNothing)
    (h' : second.LeasesNothing) : (first ++ second).LeasesNothing :=
  List.forall_mem_append.mpr ⟨h, h'⟩

theorem LeasesNothing.leased {newer : History} (h : newer.LeasesNothing) (older : History) :
    (newer ++ older).leased = older.leased := by
  refine append_eq_of_neutral older fun effect hmem history => ?_
  rcases h effect hmem with hoff | hdown
  · exact leased_cons hoff history
  · cases effect
    case unsubscribed number => rfl
    all_goals exact hdown.elim

/-- A history that neither leads to a subscription nor tears one down. -/
def IsOffLease (history : History) : Prop := ∀ effect ∈ history, effect.IsOffLease

theorem IsOffLease.leasesNothing {history : History} (h : history.IsOffLease) :
    history.LeasesNothing :=
  fun effect hmem => .inl (h effect hmem)

theorem IsOffLease.tornDown {newer : History} (h : newer.IsOffLease) (older : History) :
    (newer ++ older).tornDown = older.tornDown :=
  append_eq_of_neutral older fun effect hmem => tornDown_cons (h effect hmem)

theorem isOffLease_round (connected : Bool) (registry : Registry) :
    (round connected registry).IsOffLease := by
  intro effect hmem
  rcases List.mem_append.mp hmem with hmem | hmem
  · obtain ⟨pair, -, rfl⟩ := List.mem_map.mp (List.mem_reverse.mp hmem)
    cases connected
    all_goals exact trivial
  · rw [List.mem_singleton.mp hmem]
    exact trivial

theorem isOffLease_handOut (log : RawLog) (listeners : List ListenerId) :
    (handOut log listeners).IsOffLease := by
  intro effect hmem
  obtain ⟨listener, -, rfl⟩ := List.mem_map.mp (List.mem_reverse.mp hmem)
  exact trivial

theorem isOffLease_handling (caller : CallerId) (command : Command) :
    (handling caller command).IsOffLease := by
  cases command with
  | register address listener => exact List.forall_mem_singleton.mpr trivial
  | unregister address listener =>
      exact List.forall_mem_cons.mpr ⟨trivial, List.forall_mem_singleton.mpr trivial⟩

end History

theorem Subscriptions.marks_close (number : Nat) (subscriptions : Subscriptions) :
    (subscriptions.change ClientSubscription.close number).marks =
      subscriptions.marks.set number true := by
  refine List.ext_getElem? fun other => ?_
  simp only [marks, change, List.getElem?_map, List.getElem?_modify, List.getElem?_set,
    List.length_map]
  by_cases h : number = other
  · subst h
    cases hnumber : subscriptions[number]? with
    | none =>
        have hlength := List.getElem?_eq_none_iff.mp hnumber
        simp [Nat.not_lt.mpr hlength]
    | some subscription =>
        have hlength : number < subscriptions.length := (List.getElem?_eq_some_iff.mp hnumber).1
        simp [hlength, ClientSubscription.close]
  · cases subscriptions[other]? <;> simp [h]

namespace Machine

variable {machine after : Machine}

/-! ## Flags and tear-downs -/

/-- The flags of the subscriptions say which of them were torn down, and this was done once. -/
structure Tallied (machine : Machine) : Prop where
  marks : ∀ number, machine.subscriptions.marks[number]? = some true ↔
    number ∈ machine.history.tornDown
  nodup : machine.history.tornDown.Nodup

/-- Between the two states no subscription is obtained, and those that are torn down have the given
numbers. -/
structure Releases (machine after : Machine) (released : List Nat) : Prop where
  history : ∃ burst, History.LeasesNothing burst ∧ after.history = burst ++ machine.history
  tornDown : ∀ number, number ∈ after.history.tornDown ↔
    number ∈ machine.history.tornDown ∨ number ∈ released
  length : after.subscriptions.length = machine.subscriptions.length
  tallied : Tallied after

theorem Releases.leased {released : List Nat} (h : Releases machine after released) :
    after.history.leased = machine.history.leased := by
  obtain ⟨burst, hburst, heq⟩ := h.history
  rw [heq]
  exact hburst.leased machine.history

theorem Releases.trans {first second third : Machine} {released released' : List Nat}
    (h : Releases first second released) (h' : Releases second third released') :
    Releases first third (released ++ released') := by
  obtain ⟨burst, hburst, heq⟩ := h.history
  obtain ⟨burst', hburst', heq'⟩ := h'.history
  refine ⟨⟨burst' ++ burst, hburst'.append hburst, ?_⟩, fun number => ?_,
    h'.length.trans h.length, h'.tallied⟩
  · rw [heq', heq, List.append_assoc]
  · rw [h'.tornDown, h.tornDown, List.mem_append, or_assoc]

/-- A step that neither leads to a subscription nor tears one down. -/
theorem releases_nothing (h : Tallied machine) {burst : History} (hoff : burst.IsOffLease)
    (hhistory : after.history = burst ++ machine.history)
    (hmarks : after.subscriptions.marks = machine.subscriptions.marks) :
    Releases machine after [] := by
  have hdown : after.history.tornDown = machine.history.tornDown := by
    rw [hhistory]
    exact hoff.tornDown machine.history
  refine ⟨⟨burst, hoff.leasesNothing, hhistory⟩, fun number => ?_, ?_, fun number => ?_, ?_⟩
  · rw [hdown]
    simp
  · have hlength := congrArg List.length hmarks
    rwa [Subscriptions.marks, Subscriptions.marks, List.length_map, List.length_map] at hlength
  · rw [hmarks, hdown]
    exact h.marks number
  · rw [hdown]
    exact h.nodup

theorem Tallied.of_same (h : Tallied machine) (hhistory : after.history = machine.history)
    (hmarks : after.subscriptions.marks = machine.subscriptions.marks) :
    Releases machine after [] := by
  have hnone : History.IsOffLease [] := fun _ hmem => absurd hmem List.not_mem_nil
  exact releases_nothing h hnone hhistory hmarks

theorem Tallied.of_effect (h : Tallied machine) {effect : Effect}
    (hhistory : after.history = effect :: machine.history) (hoff : effect.IsOffLease)
    (hmarks : after.subscriptions.marks = machine.subscriptions.marks) :
    Releases machine after [] := by
  have hone : History.IsOffLease [effect] := List.forall_mem_singleton.mpr hoff
  exact releases_nothing h hone hhistory hmarks

theorem Tallied.refl (h : Tallied machine) : Releases machine machine [] := h.of_same rfl rfl

theorem Tallied.record (h : Tallied machine) {effects : History} (hoff : effects.IsOffLease) :
    Releases machine (machine.record effects) [] :=
  releases_nothing h hoff (machine.history_record effects) rfl

/-! ## What the operations give back -/

theorem Tallied.unsubscribe (h : Tallied machine) {number : Nat}
    (hmade : number < machine.subscriptions.length) :
    Releases machine (machine.unsubscribe number) [number] := by
  have hnumber := List.getElem?_eq_getElem hmade
  have hmark : machine.subscriptions.marks[number]? =
      some machine.subscriptions[number].unsubscribed := by
    rw [Subscriptions.marks, List.getElem?_map, hnumber]
    rfl
  simp only [Machine.unsubscribe, hnumber]
  split
  next hdone =>
    -- It was torn down before, so that nothing is added.
    have hmem : number ∈ machine.history.tornDown :=
      (h.marks number).mp (hmark.trans (congrArg some hdone))
    refine ⟨⟨[], fun _ hmem => absurd hmem List.not_mem_nil, rfl⟩, fun other => ?_, rfl, h⟩
    rw [List.mem_singleton, or_iff_left_of_imp]
    rintro rfl
    exact hmem
  next hnot =>
    have hnew : number ∉ machine.history.tornDown := by
      intro hmem
      have htrue := hmark.symm.trans ((h.marks number).mpr hmem)
      exact hnot (Option.some.inj htrue)
    have hdown : History.LeasesNothing [.unsubscribed number] :=
      List.forall_mem_singleton.mpr (.inr trivial)
    refine ⟨⟨_, hdown, rfl⟩, fun other => ?_, List.length_modify .., fun other => ?_, ?_⟩
    · exact List.mem_cons.trans (or_comm.trans (or_congr_right List.mem_singleton.symm))
    · change (machine.subscriptions.change ClientSubscription.close number).marks[other]? =
        some true ↔ other ∈ number :: machine.history.tornDown
      rw [Subscriptions.marks_close, List.getElem?_set, List.mem_cons]
      by_cases hother : number = other
      · subst hother
        simp [Subscriptions.marks, hmade]
      · rw [if_neg hother, h.marks other]
        exact (or_iff_right (Ne.symm hother)).symm
    · exact List.nodup_cons.mpr ⟨hnew, h.nodup⟩

theorem Tallied.changeSubscription (h : Tallied machine)
    {f : ClientSubscription → ClientSubscription}
    (hf : ∀ subscription : ClientSubscription,
      (f subscription).unsubscribed = subscription.unsubscribed) (number : Nat) :
    Releases machine (machine.changeSubscription f number) [] :=
  h.of_same rfl (Subscriptions.marks_change hf number machine.subscriptions)

/-- The subscription exists, if there is one. -/
def IsMade (machine : Machine) (number? : Option Nat) : Prop :=
  ∀ number ∈ number?.toList, number < machine.subscriptions.length

theorem IsMade.of_releases {released : List Nat} {number? : Option Nat}
    (h : machine.IsMade number?) (hreleases : Releases machine after released) :
    after.IsMade number? :=
  fun number hmem => hreleases.length ▸ h number hmem

theorem Tallied.discard (h : Tallied machine) {number? : Option Nat}
    (hmade : machine.IsMade number?) :
    Releases machine (machine.discard number?) number?.toList := by
  cases number? with
  | none => exact h.refl
  | some number =>
      have hdown := h.unsubscribe (hmade number (List.mem_singleton_self number))
      exact hdown.trans (hdown.tallied.changeSubscription (f := ClientSubscription.dropFailures)
        (fun _ => rfl) number)

theorem Tallied.history_discard (h : Tallied machine) {number : Nat}
    (hmade : number < machine.subscriptions.length) (hnew : number ∉ machine.history.tornDown) :
    (machine.discard (some number)).history = .unsubscribed number :: machine.history := by
  have hnumber := List.getElem?_eq_getElem hmade
  have hopen : machine.subscriptions[number].unsubscribed = false := by
    refine Bool.eq_false_iff.mpr fun hdone => hnew ((h.marks number).mp ?_)
    rw [Subscriptions.marks, List.getElem?_map, hnumber, Option.map_some, hdone]
  simp only [Machine.discard, Machine.unsubscribe, hnumber, hopen, Bool.false_eq_true, if_false]
  rfl

theorem Tallied.discardUnused (h : Tallied machine) {number? : Option Nat}
    (hmade : machine.IsMade number?) :
    Releases machine (machine.discardUnused number?) number?.toList := by
  cases number? with
  | none => exact h.refl
  | some number =>
      have hdown := h.discard hmade
      have hdrop := hdown.trans (hdown.tallied.changeSubscription
        (f := ClientSubscription.dropLogs) (fun _ => rfl) number)
      rwa [List.append_nil] at hdrop

theorem current_discardUnused (machine : Machine) (number? : Option Nat) :
    (machine.discardUnused number?).current = machine.current := by
  obtain ⟨quiet, subscriptions, heq, -, -⟩ := machine.letsGo_discardUnused number?
  rw [heq]
  rfl

/-- Stopping the stages and closing the mailbox tears nothing down. -/
theorem Tallied.abort (h : Tallied machine) :
    Releases machine
      { machine with
        pipeline := (machine.pipeline.abort machine.subscriptions).1
        subscriptions := (machine.pipeline.abort machine.subscriptions).2
        phase := .crashed }.closeMailbox [] := by
  obtain ⟨callers, heq, -⟩ := closeMailbox_eq
    { machine with
      pipeline := (machine.pipeline.abort machine.subscriptions).1
      subscriptions := (machine.pipeline.abort machine.subscriptions).2
      phase := .crashed }
  rw [heq]
  exact h.of_same rfl (Subscriptions.marks_abort machine.pipeline machine.subscriptions)

theorem Tallied.crash (h : Tallied machine) {fresh : Option Nat} (hfresh : machine.IsMade fresh)
    (hcurrent : machine.IsMade machine.current) :
    Releases machine (machine.crash fresh) (fresh.toList ++ machine.current.toList) := by
  have hunused := h.discardUnused hfresh
  have hboth := hunused.trans (hunused.tallied.discard (hcurrent.of_releases hunused))
  have hall := hboth.trans hboth.tallied.abort
  rwa [List.append_nil] at hall

theorem Tallied.notifyConnected (h : Tallied machine) :
    Releases machine machine.notifyConnected [] := by
  rw [notifyConnected_eq]
  exact releases_nothing h (History.isOffLease_round true machine.registry)
    (history_record ..) rfl

theorem Tallied.notifyDisconnected (h : Tallied machine) :
    Releases machine machine.notifyDisconnected [] := by
  rw [notifyDisconnected_eq]
  exact releases_nothing h (History.isOffLease_round false machine.registry)
    (history_record ..) rfl

theorem Tallied.leave (h : Tallied machine) {fresh : Option Nat} (hfresh : machine.IsMade fresh)
    (hcurrent : machine.IsMade machine.current) :
    Releases machine (machine.leave fresh) (fresh.toList ++ machine.current.toList) := by
  have hunused := h.discardUnused hfresh
  -- Whether the listeners are told makes no difference.
  have htold : ∃ told : Machine, Releases machine told fresh.toList ∧
      told.current = machine.current ∧
      machine.leave fresh = { told.discard told.current with phase := .joining } := by
    have hsame := machine.current_discardUnused fresh
    cases hconnected : (machine.discardUnused fresh).connected with
    | false =>
        refine ⟨_, hunused, hsame, ?_⟩
        simp only [Machine.leave, hconnected, Bool.false_eq_true, if_false]
    | true =>
        have hround := hunused.trans hunused.tallied.notifyDisconnected
        rw [List.append_nil] at hround
        refine ⟨_, hround, ?_, ?_⟩
        · rw [notifyDisconnected_eq]
          exact hsame
        · simp only [Machine.leave, hconnected, if_true]
  obtain ⟨told, hreleases, hsame, heq⟩ := htold
  have hmade : told.IsMade told.current := hsame ▸ hcurrent.of_releases hreleases
  have hboth := hreleases.trans (hreleases.tallied.discard hmade)
  rw [hsame] at hboth
  rw [heq, hsame]
  exact ⟨hboth.history, hboth.tornDown, hboth.length, hboth.tallied.marks, hboth.tallied.nodup⟩

/-- Both stages of a pass are part of the log stream; the subscription before is still open. -/
def join (machine : Machine) (fresh : Option Nat) (logs : List RawLog) : Machine :=
  (machine.appendStage (.batch logs)).appendStage (sourceOf fresh)

theorem adopt_eq (machine : Machine) (fresh : Option Nat) (logs : List RawLog) :
    machine.adopt fresh logs =
      { (machine.join fresh logs).discard machine.current with current := fresh }.notifyConnected :=
  rfl

theorem Tallied.adopt (h : Tallied machine) (hcurrent : machine.IsMade machine.current)
    (fresh : Option Nat) (logs : List RawLog) :
    Releases machine (machine.adopt fresh logs) machine.current.toList := by
  rw [adopt_eq]
  have hjoined : Releases machine (machine.join fresh logs) [] := h.of_same rfl rfl
  have hdown := hjoined.trans (hjoined.tallied.discard (hcurrent.of_releases hjoined))
  have hused : Releases ((machine.join fresh logs).discard machine.current)
      { (machine.join fresh logs).discard machine.current with current := fresh } [] :=
    hdown.tallied.of_same rfl rfl
  have hall := (hdown.trans hused).trans hused.tallied.notifyConnected
  rwa [List.nil_append, List.append_nil, List.append_nil] at hall

/-- A log that is handed out tears nothing down, unless a listener breaks down on it. -/
theorem Tallied.dispatch (h : Tallied machine) (hcurrent : machine.IsMade machine.current)
    (log : RawLog) :
    Releases machine (machine.dispatch log) [] ∧
        (∃ out, machine.dispatch log = machine.record out) ∨
      Releases machine (machine.dispatch log) machine.current.toList ∧
        (machine.dispatch log).phase = .crashed := by
  rw [dispatch_eq]
  rcases deliverTo_eq log (History.receivers log machine.registry) machine with
    ⟨-, heq⟩ | ⟨before, listener, rest, -, -, heq⟩
  · rw [heq]
    exact .inl ⟨h.record (History.isOffLease_handOut log _), _, rfl⟩
  · have hout := h.record (History.isOffLease_handOut log before)
    have hnone : (machine.record (History.handOut log before)).IsMade none :=
      fun _ hmem => absurd hmem List.not_mem_nil
    obtain ⟨quiet, hdown⟩ := (machine.record (History.handOut log before)).breaksDown_crash none
    rw [heq]
    exact .inr ⟨hout.trans (hout.tallied.crash hnone hcurrent), hdown.phase⟩

/-- A pass that ends replaces the subscription in use, or gives both back and breaks down. -/
theorem Tallied.completePass (h : Tallied machine) {fresh : Option Nat}
    (hfresh : machine.IsMade fresh) (hcurrent : machine.IsMade machine.current)
    (logs : List RawLog) :
    Releases machine (machine.completePass fresh logs) machine.current.toList ∧
        (∃ nextTick, machine.completePass fresh logs =
          { (machine.record [.gathered logs fresh]).adopt fresh logs with
            phase := .processing nextTick false true }) ∨
      Releases machine (machine.completePass fresh logs)
          (fresh.toList ++ machine.current.toList) ∧
        (machine.completePass fresh logs).phase = .crashed := by
  have hgathered : Releases machine (machine.record [.gathered logs fresh]) [] :=
    h.record (List.forall_mem_singleton.mpr trivial)
  have hadopted := hgathered.trans (hgathered.tallied.adopt hcurrent fresh logs)
  rw [Machine.completePass, emit_eq]
  split
  next =>
    obtain ⟨quiet, hdown⟩ := (machine.record [.gathered logs fresh]).breaksDown_crash fresh
    exact .inr ⟨hgathered.trans (hgathered.tallied.crash hfresh hcurrent), hdown.phase⟩
  next =>
    simp only []
    split
    next =>
      -- The debounce time is zero: what was replaced and what has replaced it are both given back.
      have hadopts := adopts_adopt (machine.record [.gathered logs fresh]) fresh logs
      obtain ⟨quiet, hdown⟩ :=
        ((machine.record [.gathered logs fresh]).adopt fresh logs).breaksDown_crash none
      have hnone : ((machine.record [.gathered logs fresh]).adopt fresh logs).IsMade none :=
        fun _ hmem => absurd hmem List.not_mem_nil
      have hmade : ((machine.record [.gathered logs fresh]).adopt fresh logs).IsMade
          ((machine.record [.gathered logs fresh]).adopt fresh logs).current := by
        rw [hadopts.current]
        exact hfresh.of_releases hadopted
      have hcrashed := hadopted.trans (hadopted.tallied.crash hnone hmade)
      rw [hadopts.current] at hcrashed
      refine .inr ⟨⟨hcrashed.history, fun number => ?_, hcrashed.length, hcrashed.tallied⟩,
        hdown.phase⟩
      rw [hcrashed.tornDown, List.nil_append, Option.toList_none, List.nil_append,
        List.mem_append, List.mem_append]
      exact or_congr_right or_comm
    next =>
      refine .inl ⟨⟨hadopted.history, hadopted.tornDown, hadopted.length, ?_⟩, _, rfl⟩
      exact ⟨hadopted.tallied.marks, hadopted.tallied.nodup⟩

end Machine

end LogRelay
