import LogRelay.Proofs.Operations
import LogRelay.Proofs.Stream

/-!
# The stages lose nothing

Each thing that a stage can do keeps the log stream balanced: it puts out the log in its
hands, takes a log of its own or from the stages before it, drops these when they are
exhausted, or stops when its source has ended.  So does a step of any stage
(`Balanced.of_step?`), as long as no two stages read from the same subscription: a
subscription belongs to one stage, and the other stages are not touched by what
happens to it.
-/

namespace LogRelay

/-- The number of the subscription that is the source. -/
def LogSource.number? : LogSource → Option Nat
  | batch _ => none
  | live number => some number

theorem LogSource.mem_filterMap_number? {number : Nat} {origins : List LogSource} :
    number ∈ origins.filterMap number? ↔ .live number ∈ origins := by
  rw [List.mem_filterMap]
  constructor
  · rintro ⟨origin, hmem, heq⟩
    cases origin with
    | batch logs => cases heq
    | live found =>
        cases heq
        exact hmem
  · exact fun hmem => ⟨_, hmem, rfl⟩

/-! ## No subscription comes, goes or is torn down -/

theorem LogSource.marks_receive (source : LogSource) (subscriptions : Subscriptions) :
    (source.receive subscriptions).2.2.marks = subscriptions.marks := by
  cases source with
  | batch logs =>
      cases logs with
      | nil => rfl
      | cons log rest => rfl
  | live number =>
      cases hnumber : subscriptions[number]? with
      | none => simp only [receive, hnumber]
      | some subscription =>
          simp only [receive, hnumber]
          exact Subscriptions.marks_set hnumber subscription.unsubscribed_receive

namespace Pipeline

variable {raised : Bool} {room : Nat} {stage : Stage} {pipeline before later : Pipeline}
  {subscriptions after : Subscriptions}

theorem marks_of_stepNewest?
    (h : stepNewest? raised room stage before subscriptions = some (later, after)) :
    after.marks = subscriptions.marks := by
  unfold stepNewest? at h
  split at h
  next => cases h
  next =>
    split at h
    next =>
      cases h
      exact Subscriptions.marks_drop stage.source subscriptions
    next =>
      split at h
      next =>
        split at h
        next =>
          cases h
          rfl
        next => cases h
      next =>
        split at h
        next =>
          have hmarks := stage.source.marks_receive subscriptions
          split at h
          next hreceive =>
            cases h
            rwa [hreceive] at hmarks
          next source subscriptions' hreceive =>
            cases h
            rw [hreceive] at hmarks
            exact (Subscriptions.marks_drop source subscriptions').trans hmarks
          next => cases h
        next =>
          split at h
          next =>
            cases h
            rfl
          next =>
            cases h
            rfl
          next => cases h

theorem marks_of_step? {id : Nat}
    (h : step? raised room id subscriptions pipeline = some (later, after)) :
    after.marks = subscriptions.marks := by
  induction pipeline generalizing later with
  | nil => cases h
  | cons stage before ih =>
      rw [step?] at h
      split at h
      next => exact marks_of_stepNewest? h
      next =>
        obtain ⟨⟨before', found⟩, hbefore, heq⟩ := Option.map_eq_some_iff.mp h
        cases heq
        exact ih hbefore

theorem length_of_step? {id : Nat}
    (h : step? raised room id subscriptions pipeline = some (later, after)) :
    after.length = subscriptions.length := by
  have hlength := congrArg List.length (marks_of_step? h)
  rwa [Subscriptions.marks, Subscriptions.marks, List.length_map, List.length_map] at hlength

/-- Stages that have stopped take no steps. -/
theorem step?_eq_none {id : Nat} (h : pipeline.allFinished = true) :
    step? raised room id subscriptions pipeline = none := by
  induction pipeline with
  | nil => rfl
  | cons stage before ih =>
      obtain ⟨hstage, hbefore⟩ := Bool.and_eq_true_iff.mp h
      rw [step?, ih hbefore]
      split
      next => simp only [stepNewest?, hstage, if_true]
      next => rfl

end Pipeline

namespace Channels

variable {channels later : Channels} {out : List RawLog} {stage : Stage}
  {pipeline before : Pipeline} {origin : LogSource} {origins older : List LogSource}

/-! ## Channels of subscriptions -/

/-- The channels of these subscriptions, on which these logs were accepted. -/
def ofSubscriptions (accepted : Nat → List RawLog) (subscriptions : Subscriptions) : Channels where
  accepted
  waiting number := (subscriptions[number]?.map (·.logs)).getD []
  IsShut number := ∀ subscription, subscriptions[number]? = some subscription →
    subscription.takesLogs = false

variable {accepted : Nat → List RawLog} {subscriptions after : Subscriptions}

theorem waiting_of_shut (accepted : Nat → List RawLog) (h : subscriptions.Shut after)
    (number : Nat) :
    (ofSubscriptions accepted after).waiting number =
      (ofSubscriptions accepted subscriptions).waiting number := by
  cases hbefore : subscriptions[number]? with
  | none =>
      have hafter : after[number]? = none := by
        rw [List.getElem?_eq_none_iff] at hbefore ⊢
        rw [h.length]
        exact hbefore
      simp only [ofSubscriptions, hbefore, hafter]
  | some subscription =>
      obtain ⟨found, hfound, hsame⟩ := h.shut number subscription hbefore
      simp only [ofSubscriptions, hbefore, hfound, Option.map_some, hsame.logs]

/-- No logs are on their way on a new subscription. -/
theorem waiting_concat (accepted : Nat → List RawLog) (subscriptions : Subscriptions)
    {fresh : ClientSubscription} (hfresh : fresh.logs = []) (number : Nat) :
    (ofSubscriptions accepted (subscriptions ++ [fresh])).waiting number =
      (ofSubscriptions accepted subscriptions).waiting number := by
  rcases Nat.lt_trichotomy number subscriptions.length with hlt | rfl | hgt
  · simp only [ofSubscriptions, List.getElem?_append_left hlt]
  · simp [ofSubscriptions, hfresh]
  · have hbefore : subscriptions[number]? = none := List.getElem?_eq_none (by omega)
    have hafter : (subscriptions ++ [fresh])[number]? = none :=
      List.getElem?_eq_none (by simp; omega)
    simp only [ofSubscriptions, hbefore, hafter]

theorem isShut_of_shut (accepted : Nat → List RawLog) (h : subscriptions.Shut after)
    {number : Nat} (hshut : (ofSubscriptions accepted subscriptions).IsShut number) :
    (ofSubscriptions accepted after).IsShut number := by
  intro found hfound
  cases hbefore : subscriptions[number]? with
  | none =>
      have hnumber := (List.getElem?_eq_some_iff.mp hfound).1
      rw [List.getElem?_eq_none_iff] at hbefore
      rw [h.length] at hnumber
      omega
  | some subscription =>
      obtain ⟨found', hfound', hsame⟩ := h.shut number subscription hbefore
      obtain rfl : found = found' := Option.some.inj (hfound.symm.trans hfound')
      have hbefore := hshut subscription hbefore
      cases htakes : found.takesLogs with
      | false => rfl
      | true => exact (hsame.takesLogs htakes).symm.trans hbefore

/-- Letting go of subscriptions does not touch the logs on their way. -/
theorem growsAt_of_shut (accepted : Nat → List RawLog) (h : subscriptions.Shut after)
    (number : Nat) :
    (ofSubscriptions accepted subscriptions).GrowsAt (ofSubscriptions accepted after)
      number := by
  refine ⟨[], (List.append_nil _).symm, ?_, fun hshut => ⟨isShut_of_shut accepted h hshut, rfl⟩⟩
  rw [List.append_nil]
  exact waiting_of_shut accepted h number

/-! ## Sources -/

/-- A source from which a log was taken has one log less; other subscriptions are untouched. -/
theorem receive_log_eq (accepted : Nat → List RawLog) {log : RawLog} {source rest : LogSource}
    (hreceive : source.receive subscriptions = (.log log, rest, after)) :
    (ofSubscriptions accepted subscriptions).remaining source =
        log :: (ofSubscriptions accepted after).remaining rest ∧
      (∀ number, rest = .live number ↔ source = .live number) ∧
      ∀ number, source ≠ .live number →
        (ofSubscriptions accepted subscriptions).GrowsAt (ofSubscriptions accepted after)
          number := by
  cases source with
  | batch logs =>
      cases logs with
      | nil => cases hreceive
      | cons first logs =>
          cases hreceive
          exact ⟨rfl, by simp, fun number _ => growsAt_of_shut accepted (.refl _) number⟩
  | live own =>
      cases hown : subscriptions[own]? with
      | none => simp [LogSource.receive, hown] at hreceive
      | some subscription =>
          rcases hfound : subscription.receive with ⟨arrival, later⟩
          simp only [LogSource.receive, hown, hfound] at hreceive
          cases hreceive
          obtain ⟨logs, hlogs, rfl⟩ := ClientSubscription.receive_eq_log hfound
          have hlength : own < subscriptions.length := (List.getElem?_eq_some_iff.mp hown).1
          refine ⟨?_, fun number => Iff.rfl, fun number hnumber => ?_⟩
          · simp only [remaining, ofSubscriptions, hown, List.getElem?_set_self hlength,
              Option.map_some, Option.getD_some, hlogs]
          · have hother : own ≠ number := fun h => hnumber (h ▸ rfl)
            refine ⟨[], (List.append_nil _).symm, ?_, fun hshut => ⟨fun found hfound => ?_, rfl⟩⟩
            · simp [ofSubscriptions, hother]
            · rw [List.getElem?_set_ne hother] at hfound
              exact hshut found hfound

/-- A source that has ended has no logs left, and will not have more. -/
theorem receive_ended_eq (accepted : Nat → List RawLog) {source rest : LogSource}
    (hreceive : source.receive subscriptions = (.ended, rest, after)) :
    subscriptions.Shut (rest.drop after) ∧
      (ofSubscriptions accepted (rest.drop after)).remaining source = [] ∧
      (ofSubscriptions accepted (rest.drop after)).Closed source := by
  cases source with
  | batch logs =>
      cases logs with
      | nil =>
          cases hreceive
          exact ⟨.refl subscriptions, rfl, trivial⟩
      | cons first logs => cases hreceive
  | live own =>
      cases hown : subscriptions[own]? with
      | none =>
          simp only [LogSource.receive, hown] at hreceive
          cases hreceive
          have hshut := Subscriptions.shut_drop (.live own) subscriptions
          refine ⟨hshut, ?_, fun found hfound => ?_⟩
          · rw [remaining, waiting_of_shut accepted hshut]
            simp [ofSubscriptions, hown]
          · simp [LogSource.drop, Subscriptions.change, hown] at hfound
      | some subscription =>
          rcases hfound : subscription.receive with ⟨arrival, later⟩
          simp only [LogSource.receive, hown, hfound] at hreceive
          cases hreceive
          obtain ⟨hlogs, hlater⟩ := ClientSubscription.receive_eq_ended hfound
          have hlength : own < subscriptions.length := (List.getElem?_eq_some_iff.mp hown).1
          have hshut := (Subscriptions.shut_set hown hlater).trans
            (Subscriptions.shut_drop (.live own) _)
          refine ⟨hshut, ?_, fun found hafter => ?_⟩
          · rw [remaining, waiting_of_shut accepted hshut]
            simp only [ofSubscriptions, hown, Option.map_some, Option.getD_some, hlogs]
          · simp only [LogSource.drop, Subscriptions.change, List.getElem?_modify_eq,
              List.getElem?_set_self hlength] at hafter
            cases hafter
            exact Bool.and_false _

/-! ## What a stage can do -/

/-- A stage takes a log of its own into its hands. -/
theorem Balanced.take {log : RawLog} {source : LogSource}
    (h : channels.Balanced out [stage] (origin :: older)) (hfinished : stage.finished = false)
    (hheld : stage.held = none)
    (hremaining : channels.remaining stage.source = log :: later.remaining source)
    (hsource : ∀ number, source = .live number ↔ stage.source = .live number)
    (hcontent : later.content origin = channels.content origin)
    (hgrows : ∀ number, .live number ∈ older → channels.GrowsAt later number) :
    later.Balanced out [{ stage with source, held := some log }] (origin :: older) := by
  cases h with
  | @staged _ inner own stage before origin older hinner hcarries hflow =>
      have hrunning : stage.finished ≠ true := by simp [hfinished]
      have hcarried :
          later.Carries { stage with source, held := some log } origin (own ++ [log]) := by
        refine ⟨?_, fun number heq => ?_, fun _ number heq => ?_, fun htrue => ?_⟩
        · rw [hcontent, hcarries.content, hremaining, List.append_assoc, List.singleton_append]
        · exact hcarries.origin_live number ((hsource number).mp heq)
        · exact (hsource number).mpr (hcarries.source_live hfinished number heq)
        · exact absurd htrue hrunning
      refine .staged (hinner.grow hgrows) hcarried ?_ (absurd rfl) (absurd · hrunning)
      rw [hheld, Option.toList_none, List.append_nil] at hflow
      rw [Option.toList_some, hflow, List.append_assoc]

/-- A stage that takes logs from those before it takes one of them into its hands. -/
theorem Balanced.forward {log : RawLog} {before' : Pipeline}
    (h : channels.Balanced out (stage :: before) (origin :: older)) (hbefore : before ≠ [])
    (hheld : stage.held = none) (hreceive : before.receive = (.log log, before')) :
    channels.Balanced out ({ stage with held := some log } :: before') (origin :: older) := by
  cases h with
  | @staged _ inner own stage before origin older hinner hcarries hflow hown hfinished =>
      have hrunning : stage.finished ≠ true := fun htrue => hbefore (hfinished htrue).1
      obtain rfl := hown hbefore
      refine .staged (hinner.receive_log hreceive) ⟨hcarries.content, hcarries.origin_live,
        hcarries.source_live, hcarries.finished⟩ ?_ (fun _ => rfl) (absurd · hrunning)
      rw [hheld, Option.toList_none, List.append_nil, List.append_nil] at hflow
      rw [Option.toList_some, hflow, List.append_nil]

/-- A stage drops the stages before it when they are exhausted. -/
theorem Balanced.drop {before' : Pipeline}
    (h : channels.Balanced out (stage :: before) (origin :: older))
    (hreceive : before.receive = (.ended, before')) :
    channels.Balanced out [stage] (origin :: older) := by
  cases h with
  | staged hinner hcarries hflow hown hfinished =>
      refine .staged (hinner.receive_ended hreceive) hcarries hflow (absurd rfl) fun htrue => ?_
      exact ⟨rfl, (hfinished htrue).2⟩

/-- A stage stops when its source has ended. -/
theorem Balanced.stop (h : channels.Balanced out [stage] (origin :: older))
    (hfinished : stage.finished = false) (hheld : stage.held = none)
    (hremaining : channels.remaining stage.source = [])
    (hclosed : channels.Closed stage.source) :
    channels.Balanced out [stage.stop] (origin :: older) := by
  cases h with
  | @staged _ inner own stage before origin older hinner hcarries hflow =>
      -- While the stage runs, it still reads from the subscription that is its origin.
      have horigin : channels.Closed origin := by
        cases origin with
        | batch logs => exact trivial
        | live number => rwa [hcarries.source_live hfinished number rfl] at hclosed
      have hcontent := hcarries.content
      rw [hremaining] at hcontent
      have hstopped : channels.Carries stage.stop origin own := by
        refine ⟨hcontent, fun number heq => ?_, fun hfalse => ?_, fun _ => ⟨rfl, horigin⟩⟩
        · cases heq
        · cases hfalse
      refine .staged hinner hstopped ?_ (absurd rfl) (fun _ => ⟨rfl, rfl⟩)
      rw [hheld] at hflow
      exact hflow

/-- A stage puts the log in its hands into its outlet. -/
theorem Balanced.putOut {log : RawLog}
    (h : channels.Balanced out (stage :: before) (origin :: older))
    (hheld : stage.held = some log) :
    channels.Balanced out
      ({ stage with outlet := stage.outlet ++ [log], held := none } :: before)
      (origin :: older) := by
  cases h with
  | @staged _ inner own stage before origin older hinner hcarries hflow hown hfinished =>
      refine .staged hinner ⟨hcarries.content, hcarries.origin_live, hcarries.source_live,
        hcarries.finished⟩ ?_ hown fun htrue => ⟨(hfinished htrue).1, rfl⟩
      rw [← hflow, hheld]
      simp

/-! ## Steps -/

theorem Balanced.take_received {log : RawLog} {source : LogSource}
    (h : (ofSubscriptions accepted subscriptions).Balanced out [stage] (origin :: older))
    (hnew : ∀ number, origin = .live number → .live number ∉ older)
    (hfinished : stage.finished = false) (hheld : stage.held = none)
    (hreceive : stage.source.receive subscriptions = (.log log, source, after)) :
    (ofSubscriptions accepted after).Balanced out [{ stage with source, held := some log }]
        (origin :: older) ∧
      ∀ number, .live number ∉ origin :: older →
        (ofSubscriptions accepted subscriptions).GrowsAt (ofSubscriptions accepted after)
          number := by
  obtain ⟨hremaining, hsource, hgrows⟩ := receive_log_eq accepted hreceive
  have hcontent : (ofSubscriptions accepted after).content origin =
      (ofSubscriptions accepted subscriptions).content origin := by
    cases origin <;> rfl
  -- Of all subscriptions only the stage's own has changed, and no other stage reads from that.
  refine ⟨h.take hfinished hheld hremaining hsource hcontent fun number hmem => ?_,
    fun number hnot => ?_⟩
  · exact hgrows number fun heq => hnew number (h.origin_live heq) hmem
  · refine hgrows number fun heq => hnot ?_
    rw [h.origin_live heq]
    exact List.mem_cons_self ..

theorem Balanced.stop_received {source : LogSource}
    (h : (ofSubscriptions accepted subscriptions).Balanced out [stage] (origin :: older))
    (hfinished : stage.finished = false) (hheld : stage.held = none)
    (hreceive : stage.source.receive subscriptions = (.ended, source, after)) :
    (ofSubscriptions accepted (source.drop after)).Balanced out [stage.stop] (origin :: older) ∧
      ∀ number, (ofSubscriptions accepted subscriptions).GrowsAt
        (ofSubscriptions accepted (source.drop after)) number := by
  obtain ⟨hshut, hremaining, hclosed⟩ := receive_ended_eq accepted hreceive
  have hgrows := growsAt_of_shut accepted hshut
  have hlater := h.grow fun number _ => hgrows number
  exact ⟨hlater.stop hfinished hheld hremaining hclosed, hgrows⟩

/-- A step of the newest stage neither loses a log nor touches another subscription. -/
theorem Balanced.of_stepNewest? {room : Nat}
    (h : (ofSubscriptions accepted subscriptions).Balanced out (stage :: before) (origin :: older))
    (hnew : ∀ number, origin = .live number → .live number ∉ older)
    (hstep : Pipeline.stepNewest? false room stage before subscriptions =
      some (pipeline, after)) :
    (ofSubscriptions accepted after).Balanced out pipeline (origin :: older) ∧
      ∀ number, .live number ∉ origin :: older →
        (ofSubscriptions accepted subscriptions).GrowsAt (ofSubscriptions accepted after)
          number := by
  have hsame := growsAt_of_shut accepted (.refl subscriptions)
  cases hfinished : stage.finished with
  | true => simp [Pipeline.stepNewest?, hfinished] at hstep
  | false =>
      have hrunning : ¬stage.finished = true := by simp [hfinished]
      unfold Pipeline.stepNewest? at hstep
      rw [if_neg hrunning, if_neg Bool.false_ne_true] at hstep
      cases hheld : stage.held with
      | some log =>
          simp only [hheld] at hstep
          split at hstep
          next =>
            cases hstep
            exact ⟨h.putOut hheld, fun number _ => hsame number⟩
          next => cases hstep
      | none =>
          simp only [hheld] at hstep
          cases before with
          | cons first rest =>
              have hbefore : first :: rest ≠ [] := List.cons_ne_nil first rest
              rcases hreceive : Pipeline.receive (first :: rest) with ⟨arrival, before'⟩
              simp only [hreceive] at hstep
              cases arrival with
              | nothing => cases hstep
              | log log =>
                  cases hstep
                  exact ⟨h.forward hbefore hheld hreceive, fun number _ => hsame number⟩
              | ended =>
                  cases hstep
                  exact ⟨h.drop hreceive, fun number _ => hsame number⟩
          | nil =>
              rcases hreceive : stage.source.receive subscriptions with ⟨arrival, source, later⟩
              simp only [hreceive] at hstep
              cases arrival with
              | nothing => cases hstep
              | log log =>
                  cases hstep
                  exact h.take_received hnew hfinished hheld hreceive
              | ended =>
                  cases hstep
                  obtain ⟨hstopped, hgrows⟩ := h.stop_received hfinished hheld hreceive
                  exact ⟨hstopped, fun number _ => hgrows number⟩

/-- A step of any stage loses no log, as long as no two stages read from one subscription. -/
theorem Balanced.of_step? {room id : Nat}
    (h : (ofSubscriptions accepted subscriptions).Balanced out pipeline origins)
    (hnodup : (origins.filterMap LogSource.number?).Nodup) {later : Pipeline}
    (hstep : pipeline.step? false room id subscriptions = some (later, after)) :
    (ofSubscriptions accepted after).Balanced out later origins ∧
      ∀ number, .live number ∉ origins →
        (ofSubscriptions accepted subscriptions).GrowsAt (ofSubscriptions accepted after)
          number := by
  induction h generalizing later with
  | exhausted => cases hstep
  | @staged out inner own stage before origin older hinner hcarries hflow hown hfinished ih =>
      have hnew : ∀ number, origin = .live number → .live number ∉ older := by
        rintro number rfl hmem
        exact (List.nodup_cons.mp hnodup).1 (LogSource.mem_filterMap_number?.mpr hmem)
      have holder : (older.filterMap LogSource.number?).Nodup := by
        cases origin with
        | batch logs => exact hnodup
        | live number => exact (List.nodup_cons.mp hnodup).2
      rw [Pipeline.step?] at hstep
      split at hstep
      next =>
        exact (Balanced.staged hinner hcarries hflow hown hfinished).of_stepNewest? hnew hstep
      next =>
        -- A stage before this one takes the step, and this one is not finished.
        obtain ⟨⟨before', found⟩, hbefore, heq⟩ := Option.map_eq_some_iff.mp hstep
        cases heq
        obtain ⟨hbalanced, hgrows⟩ := ih holder hbefore
        have hnonempty : before ≠ [] := by
          rintro rfl
          cases hbefore
        refine ⟨.staged hbalanced ?_ hflow (fun _ => hown hnonempty) fun htrue => ?_,
          fun number hnot => ?_⟩
        · exact hcarries.grow fun number heq => hgrows number (hnew number heq)
        · exact absurd (hfinished htrue).1 hnonempty
        · exact hgrows number fun hmem => hnot (List.mem_cons_of_mem _ hmem)

/-- When the shutdown signal is raised, a step of a stage only lets go of a subscription. -/
theorem shut_of_step? {room id : Nat} {later : Pipeline}
    (hstep : pipeline.step? true room id subscriptions = some (later, after)) :
    subscriptions.Shut after := by
  induction pipeline generalizing later with
  | nil => cases hstep
  | cons stage before ih =>
      rw [Pipeline.step?] at hstep
      split at hstep
      next =>
        unfold Pipeline.stepNewest? at hstep
        split at hstep
        next => cases hstep
        next =>
          rw [if_pos rfl] at hstep
          cases hstep
          exact Subscriptions.shut_drop stage.source subscriptions
      next =>
        obtain ⟨⟨before', found⟩, hbefore, heq⟩ := Option.map_eq_some_iff.mp hstep
        cases heq
        exact ih hbefore

end Channels

end LogRelay
