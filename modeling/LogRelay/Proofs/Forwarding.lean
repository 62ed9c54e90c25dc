import LogRelay.Proofs.Conservation
import LogRelay.Proofs.Shutdown

/-!
# Every stage ends before it is dropped

A reader that finds the stages before it exhausted drops them, and so does the control task.
They are exhausted when the newest of them has finished, and a stage finishes by itself
only when there are no stages before it.  So no stage is dropped that still runs; and as the
control task ends only when all stages have finished, each stage that there ever was has
finished by then.
-/

namespace LogRelay

namespace Pipeline

variable {raised : Bool} {room : Nat} {stage : Stage} {pipeline before later : Pipeline}
  {subscriptions after : Subscriptions}

/-- The numbers of the stages. -/
def ids (pipeline : Pipeline) : List Nat := pipeline.map Stage.id

/-- Stages that are no longer there had finished. -/
def Keeps (pipeline later : Pipeline) : Prop :=
  ∀ stage ∈ pipeline, stage.finished = true ∨ stage.id ∈ later.ids

/-- Behind a stage that has finished there are no others. -/
def Tidy : Pipeline → Prop
  | [] => True
  | stage :: before => (stage.finished = true → before = []) ∧ Tidy before

theorem keeps_of_subset (h : pipeline.ids ⊆ later.ids) : Keeps pipeline later :=
  fun _ hmem => .inr (h (List.mem_map_of_mem hmem))

theorem Keeps.cons (h : Keeps before later) {next : Stage} (hid : next.id = stage.id) :
    Keeps (stage :: before) (next :: later) := by
  intro other hmem
  rcases List.mem_cons.mp hmem with rfl | hbefore
  · exact .inr (hid ▸ List.mem_cons_self ..)
  · exact (h other hbefore).imp_right (List.mem_cons_of_mem _)

theorem ids_receive_log {log : RawLog} (h : pipeline.receive = (.log log, later)) :
    later.ids = pipeline.ids := by
  cases pipeline with
  | nil => cases h
  | cons stage before =>
      simp only [receive] at h
      split at h
      next =>
        cases h
        rfl
      next =>
        split at h
        next => cases h
        next => cases h

/-- Exhausted stages have all finished. -/
theorem Tidy.finished_of_receive_ended (htidy : Tidy pipeline)
    (h : pipeline.receive = (.ended, later)) : ∀ stage ∈ pipeline, stage.finished = true := by
  cases pipeline with
  | nil => exact fun _ hmem => absurd hmem List.not_mem_nil
  | cons stage before =>
      simp only [receive] at h
      split at h
      next => cases h
      next =>
        split at h
        next hfinished =>
          rw [htidy.1 hfinished]
          exact List.forall_mem_singleton.mpr hfinished
        next => cases h

theorem keeps_of_stepNewest? (htidy : raised = false → Tidy before)
    (h : stepNewest? raised room stage before subscriptions = some (later, after)) :
    Keeps (stage :: before) later := by
  have hsame : Keeps before before := keeps_of_subset (List.Subset.refl _)
  unfold stepNewest? at h
  split at h
  next => cases h
  next =>
    split at h
    next =>
      cases h
      exact hsame.cons rfl
    next hnot =>
      have hquiet : raised = false := Bool.eq_false_iff.mpr hnot
      split at h
      next =>
        split at h
        next =>
          cases h
          exact hsame.cons rfl
        next => cases h
      next =>
        split at h
        next =>
          split at h
          next =>
            cases h
            exact hsame.cons rfl
          next =>
            cases h
            exact hsame.cons rfl
          next => cases h
        next =>
          split at h
          next hreceive =>
            cases h
            have hids := ids_receive_log hreceive
            exact (keeps_of_subset (hids ▸ List.Subset.refl _)).cons rfl
          next hreceive =>
            cases h
            have hall := (htidy hquiet).finished_of_receive_ended hreceive
            exact Keeps.cons (fun other hmem => .inl (hall other hmem)) rfl
          next => cases h

theorem keeps_of_step? {id : Nat} (htidy : raised = false → Tidy pipeline)
    (h : step? raised room id subscriptions pipeline = some (later, after)) :
    Keeps pipeline later := by
  induction pipeline generalizing later with
  | nil => cases h
  | cons stage before ih =>
      rw [step?] at h
      split at h
      next => exact keeps_of_stepNewest? (fun hquiet => (htidy hquiet).2) h
      next =>
        obtain ⟨⟨before', found⟩, hbefore, heq⟩ := Option.map_eq_some_iff.mp h
        cases heq
        exact (ih (fun hquiet => (htidy hquiet).2) hbefore).cons rfl

end Pipeline

theorem Channels.Balanced.tidy {channels : Channels} {out : List RawLog} {pipeline : Pipeline}
    {origins : List LogSource} (h : channels.Balanced out pipeline origins) : pipeline.Tidy := by
  induction h with
  | exhausted => exact trivial
  | staged _ _ _ _ hfinished ih => exact ⟨fun htrue => (hfinished htrue).1, ih⟩

namespace Machine

variable {machine after : Machine} {move : Move} {moves : List Move}

theorem BreaksDown.ids {quiet : History} (h : BreaksDown machine after quiet) :
    after.pipeline.ids = machine.pipeline.ids := by
  obtain ⟨subscriptions, callers, -, -, rfl⟩ := h.eq
  exact List.map_map ..

theorem PassEnds.ids_subset {fresh : Option Nat} {logs : List RawLog}
    (h : PassEnds machine fresh logs after) : machine.pipeline.ids ⊆ after.pipeline.ids := by
  have hadopted : ∀ {adopted : Machine},
      Adopts (machine.record [.gathered logs fresh]) adopted fresh logs →
        machine.pipeline.ids ⊆ adopted.pipeline.ids := by
    intro adopted hadopts id hmem
    rw [hadopts.stages.2]
    exact List.mem_cons_of_mem _ (List.mem_cons_of_mem _ hmem)
  cases h with
  | overcrowded _ hdown => exact hdown.ids ▸ List.Subset.refl _
  | restless hadopts _ hdown => exact hdown.ids ▸ hadopted hadopts
  | completed hadopts =>
      have hsubset := hadopted hadopts
      exact hsubset

theorem ids_subset_beginPass (machine : Machine) :
    machine.pipeline.ids ⊆ machine.beginPass.pipeline.ids := by
  rw [beginPass_eq]
  split
  next =>
    have hends := passEnds_completePass (machine.record [.began []]) none []
    have hsubset := hends.ids_subset
    exact hsubset
  next => exact List.Subset.refl _

/-- A step of the control task drops no stage that still runs. -/
theorem ControlStep.keeps (h : ControlStep machine after)
    (htidy : machine.signalled = false → machine.pipeline.Tidy) :
    machine.pipeline.Keeps after.pipeline := by
  have hsame : machine.pipeline.Keeps machine.pipeline :=
    Pipeline.keeps_of_subset (List.Subset.refl _)
  cases h with
  | interrupted | handled | ticked => exact hsame
  | ready | resubscribed => exact Pipeline.keeps_of_subset machine.ids_subset_beginPass
  | @repeated caller command mailbox =>
      obtain ⟨quiet, hdown⟩ := machine.breaksDown_repeated caller command mailbox
      have hids : _ = machine.pipeline.ids := hdown.ids
      exact Pipeline.keeps_of_subset (hids ▸ List.Subset.refl _)
  | left =>
      obtain ⟨quiet, quiet', subscriptions, -, -, -, heq⟩ := machine.leave_eq machine.phase.fresh?
      rw [heq]
      exact hsame
  | talked _ htalk =>
      obtain ⟨phase, requestCount, answer, talk, -, -, -, rfl⟩ := htalk.eq
      exact hsame
  | @fetched fresh _ _ _ _ query logs =>
      have hends := passEnds_completePass
        (machine.record [.answered (.filter query) (.logs logs)]) fresh logs
      have hsubset := hends.ids_subset
      exact Pipeline.keeps_of_subset hsubset
  | @lost _ number _ _ error _ later =>
      have hbegins := ids_subset_beginPass ({ machine with
        subscriptions := machine.subscriptions.set number later }.record
          [.lost error]).notifyDisconnected
      refine Pipeline.keeps_of_subset ?_
      rw [notifyDisconnected_eq] at hbegins ⊢
      exact hbegins
  | @took _ _ log pipeline _ _ hreceive =>
      have hids := Pipeline.ids_receive_log hreceive
      refine Pipeline.keeps_of_subset (hids ▸ ?_)
      rcases dispatch_cases ({ machine with pipeline }.record [.took log]) log with
        ⟨-, heq⟩ | ⟨_, _, _, quiet, -, -, hdown⟩
      · rw [heq]
        exact List.Subset.refl _
      · have hdropped : _ = pipeline.ids := hdown.ids
        exact hdropped ▸ List.Subset.refl _
  | streamEnded _ hquiet hreceive =>
      have hall := (htidy hquiet).finished_of_receive_ended hreceive
      exact fun stage hmem => .inl (hall stage hmem)
  | ended =>
      obtain ⟨callers, heq, -⟩ := machine.closeMailbox_eq
      rw [heq]
      exact hsame

theorem Reachable.keeps (h : Reachable machine) (hperform : machine.perform? move = some after) :
    machine.pipeline.Keeps after.pipeline := by
  have htidy : machine.phase ≠ .crashed → machine.signalled = false → machine.pipeline.Tidy :=
    fun hrunning hquiet => (h.conserved.balanced hquiet hrunning).tidy
  have hsame : machine.pipeline.Keeps machine.pipeline :=
    Pipeline.keeps_of_subset (List.Subset.refl _)
  by_cases hmove : move = .step .control
  · subst hmove
    have hstep := controlStep_of_stepControl? hperform
    exact hstep.keeps (htidy hstep.phase_ne_crashed)
  · cases outsideStep_of_perform? hmove h.idle_of_created hperform with
    | staged hstep =>
        refine Pipeline.keeps_of_step? (htidy fun hcrashed => ?_) hstep
        rw [Pipeline.step?_eq_none (h.explained.stopped hcrashed)] at hstep
        cases hstep
    | _ => exact hsame

/-- When the control task is no more, every stage that was there at some moment has finished
since. -/
theorem Reachable.finishes (h : Reachable machine) (hrun : machine.run? moves = some after)
    (hover : after.phase.isOver = true) {stage : Stage} (hmem : stage ∈ machine.pipeline) :
    ∃ first rest middle, moves = first ++ rest ∧ machine.run? first = some middle ∧
      ∃ done ∈ middle.pipeline, done.id = stage.id ∧ done.finished = true := by
  induction moves generalizing machine stage with
  | nil =>
      cases hrun
      have hall := List.all_eq_true.mp (h.allFinished hover)
      exact ⟨[], [], _, rfl, rfl, stage, hmem, rfl, hall stage hmem⟩
  | cons move moves ih =>
      obtain ⟨next, hperform, hrest⟩ := Option.bind_eq_some_iff.mp hrun
      rcases h.keeps hperform stage hmem with hfinished | hkept
      · exact ⟨[], move :: moves, machine, rfl, rfl, stage, hmem, rfl, hfinished⟩
      · obtain ⟨later, hlater, hid⟩ := List.mem_map.mp hkept
        obtain ⟨first, rest, middle, rfl, hfirst, done, hdone, hsame, hfinished⟩ :=
          ih (h.move move hperform) hrest hlater
        refine ⟨move :: first, rest, middle, rfl, ?_, done, hdone, hsame.trans hid, hfinished⟩
        exact Option.bind_eq_some_iff.mpr ⟨next, hperform, hfirst⟩

end Machine

end LogRelay
