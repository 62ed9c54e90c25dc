import LogRelay.Listener.Broadcast
import LogRelay.Marker.Audit
import LogRelay.Proofs.MarkerStores

/-!
# Logs that arrive again

Broadcasts ask one store whether their job has processed their log and record that it
has, in any order, while the store may fail at any call.  What a call comes to depends
on the calls before it only through the markers (`perform_ask`, `perform_record`), and a
marker is set exactly if some call has recorded it (`isMarked_after`).

A listener that processes a log only if its job has not, and then records it, processes
each log once.  Other jobs may use the store at the same time: they set other markers
(`isMarked_after_of_others`).
-/

namespace LogRelay

/-- A call on a broadcast. -/
inductive ConsumptionCall (δ : Type) where
  /-- Whether the job has processed the log. -/
  | ask (broadcast : Broadcast δ)
  /-- The job has processed the log. -/
  | record (broadcast : Broadcast δ)

namespace ConsumptionCall

variable {δ σ : Type}

/-- The broadcast of a call. -/
def broadcast : ConsumptionCall δ → Broadcast δ
  | ask broadcast => broadcast
  | record broadcast => broadcast

/-- The operation on the store that a call is to make, through the scheme of its job. -/
def storeCall : ConsumptionCall δ → StoreCall
  | ask ⟨log, .v1 job, _⟩ => .hasV1 log.blockHash log.logIndex job
  | ask ⟨log, .v2 job, _⟩ => .hasV2 log.blockHash log.logIndex job
  | record ⟨log, .v1 job, _⟩ => .markV1 log.blockHash log.logIndex job log.blockNumber
  | record ⟨log, .v2 job, _⟩ => .markV2 log.blockHash log.logIndex job log.blockNumber

/-- What a call comes to. -/
inductive Reply where
  | answered (yes : Bool)
  | recorded
  | failed (error : StoreError)

def Reply.ofAnswer : Except StoreError Bool → Reply
  | .ok yes => answered yes
  | .error error => failed error

def Reply.ofRecord : Except StoreError Unit → Reply
  | .ok () => recorded
  | .error error => failed error

/-- Makes the call. -/
def perform [MarkerStore σ] (call : ConsumptionCall δ) (store : σ) : Reply × σ :=
  match call with
  | ask broadcast =>
      let (result, store) := broadcast.wasConsumed store
      (.ofAnswer result, store)
  | record broadcast =>
      let (result, store) := broadcast.markConsumed store
      (.ofRecord result, store)

end ConsumptionCall

/-- A call on a store that fails with `fault`, if there is one. -/
structure StoreAttempt (δ : Type) where
  call : ConsumptionCall δ
  fault : Option String := none

namespace StoreAttempt

open ConsumptionCall (ask record Reply)

variable {δ σ : Type} [MarkerStore σ]

/-- Makes the call while the store fails as the attempt says. -/
def perform (attempt : StoreAttempt δ) (audit : Audit σ) : Reply × Audit σ :=
  attempt.call.perform { audit with fault := attempt.fault }

/-- The store after calls one after the other. -/
def after (attempts : List (StoreAttempt δ)) (start : Audit σ) : Audit σ :=
  attempts.foldl (fun audit attempt => (attempt.perform audit).2) start

/-- Calls one after the other, with what each of them comes to. -/
def transcript : List (StoreAttempt δ) → Audit σ → List (StoreAttempt δ × Reply)
  | [], _ => []
  | attempt :: rest, audit =>
      let (reply, audit) := attempt.perform audit
      (attempt, reply) :: transcript rest audit

/-- One of the calls has recorded this log for this job: the hash of the block, the place in
the block and the job are those of the broadcast. -/
def Recorded (calls : List (StoreAttempt δ × Reply)) (broadcast : Broadcast δ) : Prop :=
  ∃ earlier fault, (⟨record earlier, fault⟩, Reply.recorded) ∈ calls ∧
    earlier.log.blockHash = broadcast.log.blockHash ∧
    earlier.log.logIndex = broadcast.log.logIndex ∧ earlier.job = broadcast.job

end StoreAttempt

/-! ## One call -/

namespace Audit

variable {σ α : Type} (call : StoreCall) (step : StoreStep σ α) {audit : Audit σ}

theorem journal_perform (audit : Audit σ) :
    (perform call step audit).2.journal = audit.journal ++ [call] := by
  simp only [perform]
  split <;> rfl

theorem perform_of_fault {cause : String} (h : audit.fault = some cause) :
    (perform call step audit).1 = .error (.fault cause) ∧
      (perform call step audit).2.store = audit.store := by
  simp [perform, h]

theorem perform_of_sound (h : audit.fault = none) :
    (perform call step audit).1 = (step audit.store).1 ∧
      (perform call step audit).2.store = (step audit.store).2 := by
  simp [perform, h]

end Audit

namespace StoreAttempt

open ConsumptionCall (ask record Reply)

variable {δ σ : Type} [MarkerStore σ]

/-- A question reaches the store through the operation of its job's scheme. -/
theorem perform_ask_eq (broadcast : Broadcast δ) (fault : Option String) (audit : Audit σ) :
    perform ⟨ask broadcast, fault⟩ audit =
      let (result, audit) := Audit.perform (ask broadcast).storeCall
        (MarkerStore.has broadcast.markerKey) { audit with fault }
      (.ofAnswer result, audit) := by
  obtain ⟨log, job, decoded⟩ := broadcast
  cases job <;> rfl

/-- A marker reaches the store through the operation of its job's scheme. -/
theorem perform_record_eq (broadcast : Broadcast δ) (fault : Option String) (audit : Audit σ) :
    perform ⟨record broadcast, fault⟩ audit =
      let (result, audit) := Audit.perform (record broadcast).storeCall
        (MarkerStore.mark broadcast.markerKey broadcast.log.blockNumber) { audit with fault }
      (.ofRecord result, audit) := by
  obtain ⟨log, job, decoded⟩ := broadcast
  cases job <;> rfl

/-- Whatever it comes to, a call reaches the store once. -/
theorem journal_perform (attempt : StoreAttempt δ) (audit : Audit σ) :
    (attempt.perform audit).2.journal = audit.journal ++ [attempt.call.storeCall] := by
  obtain ⟨call, fault⟩ := attempt
  cases call with
  | ask broadcast => rw [perform_ask_eq, Audit.journal_perform]
  | record broadcast => rw [perform_record_eq, Audit.journal_perform]

theorem perform_of_fault {attempt : StoreAttempt δ} {cause : String}
    (h : attempt.fault = some cause) (audit : Audit σ) :
    (attempt.perform audit).1 = .failed (.fault cause) ∧
      (attempt.perform audit).2.store = audit.store := by
  obtain ⟨call, fault⟩ := attempt
  have hfault : { audit with fault }.fault = some cause := h
  cases call with
  | ask broadcast =>
      obtain ⟨hresult, hstore⟩ := Audit.perform_of_fault (ask broadcast).storeCall
        (MarkerStore.has broadcast.markerKey) hfault
      rw [perform_ask_eq]
      exact ⟨congrArg Reply.ofAnswer hresult, hstore⟩
  | record broadcast =>
      obtain ⟨hresult, hstore⟩ := Audit.perform_of_fault (record broadcast).storeCall
        (MarkerStore.mark broadcast.markerKey broadcast.log.blockNumber) hfault
      rw [perform_record_eq]
      exact ⟨congrArg Reply.ofRecord hresult, hstore⟩

variable [LawfulStore σ]

open LawfulStore

theorem perform_ask (broadcast : Broadcast δ) (audit : Audit σ) :
    (perform ⟨ask broadcast, none⟩ audit).1 =
        .answered (isMarked audit.store broadcast.markerKey) ∧
      (perform ⟨ask broadcast, none⟩ audit).2.store = audit.store := by
  have hsound : { audit with fault := none }.fault = none := rfl
  obtain ⟨hresult, hstore⟩ := Audit.perform_of_sound (ask broadcast).storeCall
    (MarkerStore.has broadcast.markerKey) hsound
  rw [has_eq] at hresult hstore
  rw [perform_ask_eq]
  exact ⟨congrArg Reply.ofAnswer hresult, hstore⟩

theorem perform_record (broadcast : Broadcast δ) (audit : Audit σ) :
    (perform ⟨record broadcast, none⟩ audit).1 = .recorded ∧
      ∀ key, isMarked (perform ⟨record broadcast, none⟩ audit).2.store key =
        (decide (key = broadcast.markerKey) || isMarked audit.store key) := by
  have hsound : { audit with fault := none }.fault = none := rfl
  obtain ⟨hresult, hstore⟩ := Audit.perform_of_sound (record broadcast).storeCall
    (MarkerStore.mark broadcast.markerKey broadcast.log.blockNumber) hsound
  rw [mark_eq] at hresult
  rw [perform_record_eq]
  refine ⟨congrArg Reply.ofRecord hresult, ?_⟩
  intro key
  show isMarked (Audit.perform _ _ _).2.store key = _
  rw [hstore, isMarked_mark]

/-! ## Calls one after the other -/

/-- A call sets the marker of its broadcast if it records one, and no other marker. -/
theorem isMarked_perform (attempt : StoreAttempt δ) (audit : Audit σ) (key : MarkerKey) :
    isMarked (attempt.perform audit).2.store key = true ↔
      (∃ broadcast, attempt.call = record broadcast ∧ (attempt.perform audit).1 = .recorded ∧
        broadcast.markerKey = key) ∨ isMarked audit.store key = true := by
  obtain ⟨call, fault⟩ := attempt
  cases fault with
  | some cause =>
      have hfault : (⟨call, some cause⟩ : StoreAttempt δ).fault = some cause := rfl
      obtain ⟨hreply, hstore⟩ := perform_of_fault hfault audit
      simp [hreply, hstore]
  | none =>
      cases call with
      | ask broadcast =>
          obtain ⟨hreply, hstore⟩ := perform_ask broadcast audit
          simp [hreply, hstore]
      | record broadcast =>
          obtain ⟨hreply, hmarked⟩ := perform_record broadcast audit
          rw [hmarked, Bool.or_eq_true, decide_eq_true_eq]
          apply or_congr_left
          constructor
          · intro h
            exact ⟨broadcast, rfl, hreply, h.symm⟩
          · rintro ⟨_, hcall, -, hkey⟩
            cases hcall
            exact hkey.symm

theorem recorded_cons (attempt : StoreAttempt δ) (reply : Reply)
    (calls : List (StoreAttempt δ × Reply)) (broadcast : Broadcast δ) :
    Recorded ((attempt, reply) :: calls) broadcast ↔
      (∃ earlier, attempt.call = record earlier ∧ reply = .recorded ∧
        earlier.markerKey = broadcast.markerKey) ∨ Recorded calls broadcast := by
  simp only [Recorded, List.mem_cons, Prod.mk.injEq, Broadcast.markerKey, MarkerKey.mk.injEq]
  constructor
  · rintro ⟨earlier, fault, ⟨heq, hreply⟩ | hmem, hkey⟩
    · exact .inl ⟨earlier, by rw [← heq], hreply.symm, hkey⟩
    · exact .inr ⟨earlier, fault, hmem, hkey⟩
  · rintro (⟨earlier, hcall, hreply, hkey⟩ | ⟨earlier, fault, hmem, hkey⟩)
    · exact ⟨earlier, attempt.fault, .inl ⟨by rw [← hcall], hreply.symm⟩, hkey⟩
    · exact ⟨earlier, fault, .inr hmem, hkey⟩

/-- A marker is set exactly if it was set before or a call has recorded it. -/
theorem isMarked_after (attempts : List (StoreAttempt δ)) (start : Audit σ)
    (broadcast : Broadcast δ) :
    isMarked (after attempts start).store broadcast.markerKey = true ↔
      Recorded (transcript attempts start) broadcast ∨
        isMarked start.store broadcast.markerKey = true := by
  induction attempts generalizing start with
  | nil => simp [after, transcript, Recorded]
  | cons attempt rest ih =>
      have hafter : after (attempt :: rest) start = after rest (attempt.perform start).2 := rfl
      rw [hafter, ih, isMarked_perform, transcript, recorded_cons, or_left_comm, or_assoc]

theorem isMarked_after_of_others {attempts : List (StoreAttempt δ)} {key : MarkerKey}
    (h : ∀ attempt ∈ attempts, attempt.call.broadcast.job ≠ key.job) (start : Audit σ) :
    isMarked (after attempts start).store key = isMarked start.store key := by
  induction attempts generalizing start with
  | nil => rfl
  | cons attempt rest ih =>
      have hafter : after (attempt :: rest) start = after rest (attempt.perform start).2 := rfl
      have hother : ¬ ∃ broadcast, attempt.call = record broadcast ∧
          (attempt.perform start).1 = .recorded ∧ broadcast.markerKey = key := by
        rintro ⟨broadcast, hcall, -, hkey⟩
        apply h attempt (List.mem_cons_self ..)
        rw [hcall, ← hkey]
        rfl
      rw [hafter, ih fun later hmem => h later (List.mem_cons_of_mem _ hmem), Bool.eq_iff_iff,
        isMarked_perform]
      simp [hother]

/-- What is to hold of a call that comes after others. -/
structure Accounted (start : Audit σ) (earlier : List (StoreAttempt δ)) (attempt : StoreAttempt δ) :
    Prop where
  /-- The call reaches the store once, through the operation of its job's scheme. -/
  journal : (attempt.perform (after earlier start)).2.journal =
    (after earlier start).journal ++ [attempt.call.storeCall]
  /-- On a store that fails, the call hands on the failure and sets nothing. -/
  of_fault : ∀ cause, attempt.fault = some cause →
    (attempt.perform (after earlier start)).1 = .failed (.fault cause) ∧
      (attempt.perform (after earlier start)).2.store = (after earlier start).store
  /-- Otherwise a question is answered by what was recorded, and sets nothing. -/
  of_ask : ∀ broadcast, attempt = ⟨ask broadcast, none⟩ →
    (∃ yes, (attempt.perform (after earlier start)).1 = .answered yes ∧
      (yes = true ↔ Recorded (transcript earlier start) broadcast)) ∧
      (attempt.perform (after earlier start)).2.store = (after earlier start).store
  /-- Otherwise a record succeeds, and if it is not the first it changes no answer. -/
  of_record : ∀ broadcast, attempt = ⟨record broadcast, none⟩ →
    (attempt.perform (after earlier start)).1 = .recorded ∧
      (Recorded (transcript earlier start) broadcast → ∀ other : Broadcast δ,
        (perform ⟨ask other, none⟩ (attempt.perform (after earlier start)).2).1 =
          (perform ⟨ask other, none⟩ (after earlier start)).1)

theorem accounted {start : Audit σ} (hempty : ∀ key, isMarked start.store key = false)
    (earlier : List (StoreAttempt δ)) (attempt : StoreAttempt δ) :
    Accounted start earlier attempt where
  journal := journal_perform attempt _
  of_fault cause hfault := perform_of_fault hfault _
  of_ask := by
    rintro broadcast rfl
    obtain ⟨hreply, hstore⟩ := perform_ask broadcast (after earlier start)
    refine ⟨⟨_, hreply, ?_⟩, hstore⟩
    rw [isMarked_after, hempty]
    simp
  of_record := by
    rintro broadcast rfl
    obtain ⟨hreply, hmarked⟩ := perform_record broadcast (after earlier start)
    refine ⟨hreply, ?_⟩
    intro hrecorded other
    have hset : isMarked (after earlier start).store broadcast.markerKey = true :=
      (isMarked_after earlier start broadcast).mpr (.inl hrecorded)
    rw [(perform_ask other _).1, (perform_ask other _).1, hmarked]
    by_cases hkey : other.markerKey = broadcast.markerKey
    · simp [hkey, hset]
    · simp [hkey]

end StoreAttempt

/-! ## A listener -/

/-- A log that reaches the listener of a job, with the calls that listeners of other jobs make
before it arrives and while it is processed. -/
structure Delivery (δ : Type) where
  broadcast : Broadcast δ
  before : List (StoreAttempt δ) := []
  meanwhile : List (StoreAttempt δ) := []

namespace Delivery

open ConsumptionCall (ask record)
open StoreAttempt (perform after)

variable {δ σ : Type} [MarkerStore σ]

/-- The delivery is to this job, and the other calls are of other jobs. -/
def IsFor (job : JobIdentity) (delivery : Delivery δ) : Prop :=
  delivery.broadcast.job = job ∧
    ∀ attempt ∈ delivery.before ++ delivery.meanwhile, attempt.call.broadcast.job ≠ job

/-- The listener asks whether its job has processed the log; if not it processes the log, which
is the first component, and records that it has. -/
def handle (delivery : Delivery δ) (audit : Audit σ) : Bool × Audit σ :=
  let (reply, audit) := perform ⟨ask delivery.broadcast, none⟩ (after delivery.before audit)
  let audit := after delivery.meanwhile audit
  match reply with
  | .answered false => (true, (perform ⟨record delivery.broadcast, none⟩ audit).2)
  | _ => (false, audit)

/-- The broadcasts that the listener processes, in order. -/
def processed : List (Delivery δ) → Audit σ → List (Broadcast δ)
  | [], _ => []
  | delivery :: rest, audit =>
      match delivery.handle audit with
      | (true, audit) => delivery.broadcast :: processed rest audit
      | (false, audit) => processed rest audit

variable [LawfulStore σ] {job : JobIdentity} {delivery : Delivery δ}

open LawfulStore

/-- The listener processes a log whose marker is not set; afterwards it is set. -/
theorem handle_eq (h : delivery.IsFor job) (audit : Audit σ) :
    (delivery.handle audit).1 = !isMarked audit.store delivery.broadcast.markerKey ∧
      ∀ key : MarkerKey, key.job = job → isMarked (delivery.handle audit).2.store key =
        (decide (key = delivery.broadcast.markerKey) || isMarked audit.store key) := by
  obtain ⟨hjob, hothers⟩ := h
  have hbefore : ∀ key : MarkerKey, key.job = job →
      isMarked (after delivery.before audit).store key = isMarked audit.store key := by
    intro key hkey
    apply StoreAttempt.isMarked_after_of_others
    intro attempt hmem
    rw [hkey]
    exact hothers attempt (List.mem_append_left _ hmem)
  have hmeanwhile : ∀ (key : MarkerKey) (start : Audit σ), key.job = job →
      isMarked (after delivery.meanwhile start).store key = isMarked start.store key := by
    intro key start hkey
    apply StoreAttempt.isMarked_after_of_others
    intro attempt hmem
    rw [hkey]
    exact hothers attempt (List.mem_append_right _ hmem)
  obtain ⟨hreply, hstore⟩ :=
    StoreAttempt.perform_ask delivery.broadcast (after delivery.before audit)
  rw [hbefore delivery.broadcast.markerKey hjob] at hreply
  unfold handle
  cases hmarked : isMarked audit.store delivery.broadcast.markerKey with
  | true =>
      simp only [hreply, hmarked]
      refine ⟨rfl, ?_⟩
      intro key hkey
      rw [hmeanwhile key _ hkey, hstore, hbefore key hkey]
      by_cases heq : key = delivery.broadcast.markerKey <;> simp [heq, hmarked]
  | false =>
      simp only [hreply, hmarked]
      refine ⟨rfl, ?_⟩
      intro key hkey
      rw [(StoreAttempt.perform_record delivery.broadcast _).2, hmeanwhile key _ hkey, hstore,
        hbefore key hkey]

variable {deliveries : List (Delivery δ)} {key : MarkerKey}

theorem countP_processed_of_marked (h : ∀ delivery ∈ deliveries, delivery.IsFor key.job)
    {audit : Audit σ} (hmarked : isMarked audit.store key = true) :
    (processed deliveries audit).countP (fun broadcast => broadcast.markerKey = key) = 0 := by
  induction deliveries generalizing audit with
  | nil => rfl
  | cons delivery rest ih =>
      obtain ⟨hprocessed, hset⟩ := handle_eq (h delivery (List.mem_cons_self ..)) audit
      have hstill : isMarked (delivery.handle audit).2.store key = true := by
        rw [hset key rfl, hmarked, Bool.or_true]
      have hrest := ih (fun later hmem => h later (List.mem_cons_of_mem _ hmem)) hstill
      unfold processed
      split
      next audit' heq =>
        rw [heq] at hprocessed hrest
        have hother : delivery.broadcast.markerKey ≠ key := by
          rintro rfl
          simp [hmarked] at hprocessed
        simpa [hother] using hrest
      next audit' heq =>
        rw [heq] at hrest
        exact hrest

theorem countP_processed_of_delivered (h : ∀ delivery ∈ deliveries, delivery.IsFor key.job)
    {audit : Audit σ} (hmarked : isMarked audit.store key = false)
    (hdelivered : ∃ delivery ∈ deliveries, delivery.broadcast.markerKey = key) :
    (processed deliveries audit).countP (fun broadcast => broadcast.markerKey = key) = 1 := by
  induction deliveries generalizing audit with
  | nil => simp at hdelivered
  | cons delivery rest ih =>
      obtain ⟨hprocessed, hset⟩ := handle_eq (h delivery (List.mem_cons_self ..)) audit
      have hothers : ∀ later ∈ rest, later.IsFor key.job :=
        fun later hmem => h later (List.mem_cons_of_mem _ hmem)
      by_cases hkey : delivery.broadcast.markerKey = key
      · -- The first delivery of the log: it is processed now and never again.
        rw [hkey, hmarked] at hprocessed
        have hnow : isMarked (delivery.handle audit).2.store key = true := by
          rw [hset key rfl]
          simp [hkey]
        have hrest := countP_processed_of_marked hothers hnow
        unfold processed
        split
        next audit' heq =>
          rw [heq] at hrest
          simp [hkey, hrest]
        next audit' heq => simp [heq] at hprocessed
      · have hlater : ∃ later ∈ rest, later.broadcast.markerKey = key := by
          simpa [hkey] using hdelivered
        have hunset : isMarked (delivery.handle audit).2.store key = false := by
          rw [hset key rfl, hmarked]
          simp [Ne.symm hkey]
        have hrest := ih hothers hunset hlater
        unfold processed
        split
        next audit' heq =>
          rw [heq] at hrest
          simpa [hkey] using hrest
        next audit' heq =>
          rw [heq] at hrest
          exact hrest

omit [LawfulStore σ] in
theorem exists_of_mem_processed {audit : Audit σ} {broadcast : Broadcast δ}
    (h : broadcast ∈ processed deliveries audit) :
    ∃ delivery ∈ deliveries, delivery.broadcast = broadcast := by
  induction deliveries generalizing audit with
  | nil => simp [processed] at h
  | cons delivery rest ih =>
      unfold processed at h
      split at h
      next audit' heq =>
        rcases List.mem_cons.mp h with rfl | h
        · exact ⟨delivery, List.mem_cons_self .., rfl⟩
        · obtain ⟨later, hmem, hbroadcast⟩ := ih h
          exact ⟨later, List.mem_cons_of_mem _ hmem, hbroadcast⟩
      next audit' heq =>
        obtain ⟨later, hmem, hbroadcast⟩ := ih h
        exact ⟨later, List.mem_cons_of_mem _ hmem, hbroadcast⟩

/-- **Redelivery is harmless.**  On a store without markers, every call after any others is
answered by what was recorded for the same log and job, and a listener that processes what its
job has not processed, and then records it, processes each log that reaches it once. -/
theorem redelivery_is_harmless {start : Audit σ}
    (hempty : ∀ key, isMarked start.store key = false) :
    (∀ (earlier : List (StoreAttempt δ)) (attempt : StoreAttempt δ),
      attempt.Accounted start earlier) ∧
    ∀ (job : JobIdentity) (deliveries : List (Delivery δ)),
      (∀ delivery ∈ deliveries, delivery.IsFor job) → ∀ delivery ∈ deliveries,
        (processed deliveries start).countP (fun broadcast =>
          broadcast.log.blockHash = delivery.broadcast.log.blockHash ∧
            broadcast.log.logIndex = delivery.broadcast.log.logIndex) = 1 := by
  refine ⟨StoreAttempt.accounted hempty, ?_⟩
  intro job deliveries hfor delivery hmem
  obtain rfl : delivery.broadcast.job = job := (hfor delivery hmem).1
  have hkey : ∀ other ∈ deliveries, other.IsFor delivery.broadcast.markerKey.job := hfor
  have honce := countP_processed_of_delivered hkey (hempty delivery.broadcast.markerKey)
    ⟨delivery, hmem, rfl⟩
  rw [← honce]
  apply List.countP_congr
  intro broadcast hbroadcast
  obtain ⟨earlier, hearlier, rfl⟩ := exists_of_mem_processed hbroadcast
  simp [Broadcast.markerKey, (hfor earlier hearlier).1]

/-- A listener of a job of the second scheme: the log arrives twice, the second time from a block
of another number, and both times a job of the first scheme works on it too. -/
def sampleDeliveries : List (Delivery Unit) :=
  let log : RawLog := { blockNumber := 7, logIndex := 3 }
  let other : Broadcast Unit := ⟨log, .v1 default, none⟩
  [{ broadcast := ⟨log, .v2 5, none⟩
     before := [⟨record other, none⟩]
     meanwhile := [⟨ask other, none⟩, ⟨record other, some "disk full"⟩] },
    { broadcast := ⟨{ log with blockNumber := 8, removed := true }, .v2 5, none⟩
      before := [⟨record other, none⟩] }]

theorem sample_redelivery_is_harmless :
    (∀ key, LawfulStore.isMarked ({} : MemoryStore) key = false) ∧
    (∀ delivery ∈ sampleDeliveries, delivery.IsFor (.v2 5)) ∧
    ∀ delivery ∈ sampleDeliveries,
      (processed sampleDeliveries { store := ({} : MemoryStore) }).countP (fun broadcast =>
        broadcast.log.blockHash = delivery.broadcast.log.blockHash ∧
          broadcast.log.logIndex = delivery.broadcast.log.logIndex) = 1 := by
  let start : Audit MemoryStore := { store := {} }
  have hempty : ∀ key, LawfulStore.isMarked start.store key = false := fun _ => rfl
  have hfor : ∀ delivery ∈ sampleDeliveries, delivery.IsFor (.v2 5) := by
    simp [sampleDeliveries, IsFor, ConsumptionCall.broadcast]
  refine ⟨hempty, hfor, ?_⟩
  exact (redelivery_is_harmless hempty).2 (.v2 5) sampleDeliveries hfor

end Delivery

end LogRelay
