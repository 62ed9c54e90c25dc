import LogRelay.Proofs.Feed
import LogRelay.Proofs.Flow
import LogRelay.Proofs.Requests

/-!
# What the passes have gathered

A harvest is what a pass that has ended leaves in the history: its earlier logs and its
subscription, with the addresses it was for and the header it went by.  A step adds at
most one (`ControlStep.gathers`): that of a pass without addresses, or that of a pass
for which the client has just given logs.  Logs are given only by answering a request that
waits for its answer.
-/

namespace LogRelay

/-- What a pass has gathered. -/
structure Harvest where
  logs : List RawLog
  /-- The number of the new subscription, if there is one. -/
  fresh : Option Nat
  /-- The addresses of the pass. -/
  addresses? : Option (List Address)
  /-- The header that the client had given last. -/
  header? : Option Header

namespace History

/-- What the passes have gathered, in order. -/
@[simp] def harvests : History → List Harvest
  | [] => []
  | .gathered logs fresh :: older =>
      harvests older ++ [⟨logs, fresh, passAddresses? older, seenHeader? older⟩]
  | _ :: older => harvests older

theorem map_harvests (history : History) :
    history.harvests.map (fun harvest => (harvest.logs, harvest.fresh)) = history.passes := by
  induction history with
  | nil => rfl
  | cons effect older ih =>
      cases effect
      case gathered logs fresh => exact (List.map_append ..).trans (congrArg (· ++ _) ih)
      all_goals exact ih

theorem passes_of_harvests {history : History} {harvest : Harvest}
    (h : harvest ∈ history.harvests) : (harvest.logs, harvest.fresh) ∈ history.passes := by
  rw [← map_harvests]
  exact List.mem_map_of_mem h

theorem harvests_append (newer older : History) :
    ∃ more, (newer ++ older).harvests = older.harvests ++ more := by
  induction newer with
  | nil => exact ⟨[], (List.append_nil _).symm⟩
  | cons effect newer ih =>
      obtain ⟨more, hmore⟩ := ih
      cases effect
      case gathered logs fresh =>
        exact ⟨_, (congrArg (· ++ _) hmore).trans (List.append_assoc ..)⟩
      all_goals exact ⟨more, hmore⟩

/-- If no pass has ended, nothing was gathered. -/
theorem harvests_of_passes {newer older : History} (h : (newer ++ older).passes = older.passes) :
    (newer ++ older).harvests = older.harvests := by
  obtain ⟨more, hmore⟩ := harvests_append newer older
  rw [← map_harvests, ← map_harvests, hmore, List.map_append] at h
  have hnone := List.append_right_eq_self.mp h
  rw [hmore, List.map_eq_nil_iff.mp hnone, List.append_nil]

theorem mem_accepted_append {log : RawLog} {number : Nat} {older : History} (newer : History)
    (h : log ∈ older.accepted number) : log ∈ (newer ++ older).accepted number := by
  induction newer with
  | nil => exact h
  | cons effect newer ih =>
      cases effect
      case accepted sender sent =>
        by_cases hsender : sender = number
        · simp only [List.cons_append, accepted, hsender, if_true]
          exact List.mem_append_left _ ih
        · simpa only [List.cons_append, accepted, hsender, if_false] using ih
      all_goals exact ih

theorem mem_leases_append {lease : Nat × FilterQuery} {older : History} (newer : History)
    (h : lease ∈ older.leases) : lease ∈ (newer ++ older).leases := by
  induction newer with
  | nil => exact h
  | cons effect newer ih =>
      cases effect
      case answered request answer =>
        cases request
        case subscribe query =>
          cases answer
          case subscribed number => exact List.mem_cons_of_mem _ ih
          all_goals exact ih
        all_goals exact ih
      all_goals exact ih

theorem mem_leases_of_queryOf? {number : Nat} {query : FilterQuery} {history : History}
    (h : history.queryOf? number = some query) : (number, query) ∈ history.leases := by
  induction history with
  | nil => cases h
  | cons effect older ih =>
      cases effect
      case answered request answer =>
        cases request
        case subscribe asked =>
          cases answer
          case subscribed obtained =>
            by_cases hsame : obtained = number
            · rw [queryOf?, if_pos hsame] at h
              cases h
              exact hsame ▸ List.mem_cons_self ..
            · rw [queryOf?, if_neg hsame] at h
              exact List.mem_cons_of_mem _ (ih h)
          all_goals exact ih h
        all_goals exact ih h
      all_goals exact ih h

end History

namespace Machine

variable {machine after : Machine}

theorem PassEnds.grows {fresh : Option Nat} {logs : List RawLog}
    (h : PassEnds machine fresh logs after) :
    ∃ burst, after.history = burst ++ .gathered logs fresh :: machine.history := by
  have hoff : OffStream (machine.record [.gathered logs fresh]) after := by
    cases h with
    | overcrowded hroom hdown => exact hdown.offStream
    | restless hadopts hdebounce hdown => exact hadopts.offStream.trans hdown.offStream
    | completed hadopts => exact ⟨hadopts.offStream.history, hadopts.offStream.registry⟩
  obtain ⟨⟨burst, -, heq⟩, -⟩ := hoff
  exact ⟨burst, heq⟩

/-- A pass that ends adds its harvest and nothing else. -/
theorem PassEnds.harvests {fresh : Option Nat} {logs : List RawLog}
    (h : PassEnds machine fresh logs after) :
    after.history.harvests = machine.history.harvests ++
      [⟨logs, fresh, machine.history.passAddresses?, machine.history.seenHeader?⟩] := by
  obtain ⟨burst, hburst⟩ := h.grows
  have hpasses := h.samePasses.passes
  rw [hburst] at hpasses ⊢
  exact History.harvests_of_passes hpasses

/-- What a step of the control task gathers. -/
inductive Gathers (machine after : Machine) : Prop
  /-- It completes no pass. -/
  | nothing (hpasses : after.history.passes = machine.history.passes)
  /-- It completes a pass that has no addresses. -/
  | idle {burst : History} {middle : Machine}
      (hbegan : middle.history = .began [] :: (burst ++ machine.history))
      (hpasses : middle.history.passes = machine.history.passes)
      (hends : PassEnds middle none [] after)
  /-- It completes a pass for which the client has given earlier logs. -/
  | fetched {fresh : Option Nat} {addresses : List Address} {failures number deadline : Nat}
      {query : FilterQuery} {logs : List RawLog}
      (hphase : machine.phase =
        .backfilling fresh addresses failures (.asking (.filter query) number deadline))
      (hanswer : machine.answer = some (.logs logs))
      (hends : PassEnds (machine.record [.answered (.filter query) (.logs logs)]) fresh logs after)

theorem gathers_beginPass {start : Machine} {burst : History}
    (hhistory : machine.history = burst ++ start.history)
    (hpasses : machine.history.passes = start.history.passes) :
    Gathers start machine.beginPass := by
  rw [beginPass_eq]
  split
  next =>
    have hbegan : (machine.record [.began []]).history =
        .began [] :: (burst ++ start.history) := congrArg (List.cons _) hhistory
    exact .idle hbegan hpasses (passEnds_completePass ..)
  next => exact .nothing hpasses

theorem ControlStep.gathers (h : ControlStep machine after) : Gathers machine after := by
  cases h with
  | interrupted | ticked | streamEnded => exact .nothing rfl
  | ready | resubscribed => exact gathers_beginPass (List.nil_append _).symm rfl
  | handled =>
      refine .nothing ?_
      rw [history_record]
      exact ((History.isOffPass_handling _ _).samePasses machine.history).passes
  | @repeated caller command mailbox =>
      obtain ⟨quiet, hdown⟩ := machine.breaksDown_repeated caller command mailbox
      exact .nothing hdown.samePasses.passes
  | left => exact .nothing (machine.samePasses_leave _).passes
  | talked _ htalk => exact .nothing htalk.still.passes
  | fetched hphase _ hanswer => exact .fetched hphase hanswer (passEnds_completePass ..)
  | @lost _ number _ _ error _ later =>
      have hround := (History.isOffPass_round false machine.registry).samePasses
        (.lost error :: machine.history)
      have htold : ({ machine with
          subscriptions := machine.subscriptions.set number later }.record
            [.lost error]).notifyDisconnected.history =
          History.round false machine.registry ++ .lost error :: machine.history := by
        rw [notifyDisconnected_eq]
        exact history_record ..
      refine gathers_beginPass (htold.trans (List.append_cons ..)) ?_
      rw [htold]
      exact hround.passes
  | took => exact .nothing (samePasses_dispatch _ _).passes
  | ended =>
      obtain ⟨callers, heq, -⟩ := machine.closeMailbox_eq
      rw [heq]
      exact .nothing rfl

/-! ## Who gives logs -/

theorem CallerStep.answer {id : CallerId} {caller : Caller}
    (h : CallerStep machine id caller after) : after.answer = machine.answer := by
  obtain ⟨mailbox, raised, lifecycle, callers, -, -, rfl⟩ := h.eq
  rfl

/-- Logs come as the answer to a request that waits for it. -/
theorem answer_of_perform? {move : Move} (hmove : move ≠ .step .control)
    (h : machine.perform? move = some after) {logs : List RawLog}
    (hlogs : after.answer = some (.logs logs)) :
    machine.answer = some (.logs logs) ∨
      ∃ number, move = .reply number (.logs logs) ∧ machine.awaits number = true := by
  cases moveStep_of_perform? h with
  | controlled => exact absurd rfl hmove
  | advanced _ hstep => exact .inl (hstep.answer ▸ hlogs)
  | replied hawaits =>
      cases hlogs
      exact .inr ⟨_, rfl, hawaits⟩
  | granted => cases hlogs
  | _ => exact .inl hlogs

end Machine

end LogRelay
