import LogRelay.Proofs.Course
import LogRelay.Proofs.Grants
import LogRelay.Proofs.Stages

/-!
# What a move means for the log stream

Seen from the log stream, most steps of the control task keep still: they take no log,
gather none, and touch the subscriptions only to let go of them (`Still`).  The others
take a log, find that the stream has ended, or take into use what a pass has gathered.
`ControlStep.flow` says so for every step.

A subscription that was given to the relay exists (`Lent`), so that what the client makes
later on is never one of those that the log stream has come to.
-/

namespace LogRelay

namespace History

theorem IsWithClient.accepted {newer : History} (h : newer.IsWithClient) (older : History)
    (number : Nat) : (newer ++ older).accepted number = older.accepted number := by
  refine append_eq_of_neutral older fun effect hmem history => ?_
  have hwith := h effect hmem
  cases effect
  case accepted sender log => exact hwith.elim
  all_goals rfl

theorem taken_handling (caller : CallerId) (command : Command) (older : History) :
    (handling caller command ++ older).taken = older.taken := by
  cases command
  all_goals rfl

theorem mem_obtained_answered {number : Nat} {request : ClientRequest} {answer : ClientAnswer}
    {older : History} (h : number ∈ History.obtained (.answered request answer :: older)) :
    number ∈ older.obtained ∨ answer = .subscribed number := by
  cases answer with
  | subscribed obtained =>
      rcases List.mem_cons.mp h with rfl | hold
      · exact .inr rfl
      · exact .inl hold
  | failed error | header header | logs logs => exact .inl h

end History

namespace Machine

variable {machine after : Machine}

/-! ## Steps that keep still -/

/-- Between the two states no log is taken, gathered or accepted, and the stages stay as they are
unless the control task breaks down.  The relay may be given a subscription that waits to be
taken. -/
structure Still (machine after : Machine) : Prop where
  subscriptions : machine.subscriptions.Shut after.subscriptions
  taken : after.history.taken = machine.history.taken
  passes : after.history.passes = machine.history.passes
  accepted : ∀ number, after.history.accepted number = machine.history.accepted number
  running : after.phase ≠ .crashed → machine.phase ≠ .crashed ∧ after.pipeline = machine.pipeline
  obtained : ∀ number ∈ after.history.obtained,
    number ∈ machine.history.obtained ∨ machine.answer = some (.subscribed number)
  answer : ∀ number, after.answer = some (.subscribed number) →
    machine.answer = some (.subscribed number)

theorem Still.refl (machine : Machine) : Still machine machine :=
  ⟨.refl _, rfl, rfl, fun _ => rfl, fun h => ⟨h, rfl⟩, fun _ h => .inl h, fun _ h => h⟩

theorem Still.trans {first second third : Machine} (h : Still first second)
    (h' : Still second third) : Still first third where
  subscriptions := h.subscriptions.trans h'.subscriptions
  taken := h'.taken.trans h.taken
  passes := h'.passes.trans h.passes
  accepted number := (h'.accepted number).trans (h.accepted number)
  running hthird := by
    obtain ⟨hsecond, hpipeline⟩ := h'.running hthird
    obtain ⟨hfirst, hpipeline'⟩ := h.running hsecond
    exact ⟨hfirst, hpipeline.trans hpipeline'⟩
  obtained number hmem := by
    rcases h'.obtained number hmem with hsecond | hanswer
    · exact h.obtained number hsecond
    · exact .inr (h.answer number hanswer)
  answer number hanswer := h.answer number (h'.answer number hanswer)

theorem still_of_samePasses (hsame : machine.history.SamePasses after.history)
    (htaken : after.history.taken = machine.history.taken)
    (hshut : machine.subscriptions.Shut after.subscriptions)
    (hrunning : after.phase ≠ .crashed →
      machine.phase ≠ .crashed ∧ after.pipeline = machine.pipeline)
    (hanswer : after.answer = machine.answer) : Still machine after := by
  refine ⟨hshut, htaken, hsame.passes, hsame.accepted, hrunning, fun number hmem => .inl ?_,
    fun number hanswered => hanswer ▸ hanswered⟩
  rwa [hsame.obtained] at hmem

theorem BreaksDown.still {quiet : History} (h : BreaksDown machine after quiet) :
    Still machine after := by
  refine still_of_samePasses h.samePasses h.offStream.sameRoutes.taken ?_ (absurd h.phase) ?_
  all_goals
    obtain ⟨subscriptions, callers, hshut, -, rfl⟩ := h.eq
  · exact hshut
  · rfl

theorem still_leave (hphase : machine.phase ≠ .crashed) (fresh : Option Nat) :
    Still machine (machine.leave fresh) := by
  have hsame := machine.samePasses_leave fresh
  have htaken := (machine.offStream_leave fresh).sameRoutes.taken
  obtain ⟨quiet, quiet', subscriptions, -, -, hshut, heq⟩ := machine.leave_eq fresh
  rw [heq] at hsame htaken ⊢
  exact still_of_samePasses hsame htaken hshut (fun _ => ⟨hphase, rfl⟩) rfl

theorem still_dispatch (machine : Machine) (log : RawLog) :
    Still machine (machine.dispatch log) := by
  have hout : ∀ listeners, Still machine (machine.record (History.handOut log listeners)) := by
    intro listeners
    have hsame := (History.isOffPass_handOut log listeners).samePasses machine.history
    have htaken := History.taken_handOut log listeners machine.history
    rw [← history_record] at hsame htaken
    exact still_of_samePasses hsame htaken (.refl _) (fun h => ⟨h, rfl⟩) rfl
  rcases machine.dispatch_cases log with ⟨-, heq⟩ | ⟨before, breaker, rest, quiet, -, -, hdown⟩
  · rw [heq]
    exact hout _
  · exact (hout before).trans hdown.still

theorem still_notifyDisconnected (machine : Machine) :
    Still machine machine.notifyDisconnected := by
  have hsame := (History.isOffPass_round false machine.registry).samePasses machine.history
  have htaken := machine.offStream_notifyDisconnected.sameRoutes.taken
  rw [notifyDisconnected_eq] at htaken ⊢
  rw [← history_record] at hsame
  exact still_of_samePasses hsame htaken (.refl _) (fun h => ⟨h, rfl⟩) rfl

theorem still_began (machine : Machine) (addresses : List Address) :
    Still machine (machine.record [.began addresses]) :=
  ⟨.refl _, rfl, rfl, fun _ => rfl, fun h => ⟨h, rfl⟩, fun _ h => .inl h, fun _ h => h⟩

theorem ClientStep.obtained (h : ClientStep machine after) {number : Nat}
    (hmem : number ∈ after.history.obtained) :
    number ∈ machine.history.obtained ∨ machine.answer = some (.subscribed number) := by
  cases h with
  | refusedToSubscribe _ hanswer | subscribed _ hanswer | refusedToFetch _ hanswer =>
      rcases History.mem_obtained_answered hmem with hold | heq
      · exact .inl hold
      · exact .inr (heq ▸ hanswer)
  | _ => exact .inl hmem

theorem ClientStep.still (h : ClientStep machine after) : Still machine after := by
  have hanswer : ∀ number, after.answer = some (.subscribed number) →
      machine.answer = some (.subscribed number) := by
    intro number hanswered
    cases h with
    | askedToSubscribe | askedForHeader | askedForLogs => cases hanswered
    | _ => exact hanswered
  have hobtained : ∀ number ∈ after.history.obtained, _ := fun number => h.obtained
  obtain ⟨phase, requestCount, answer, talk, hwith, hpassing, -, rfl⟩ := h.eq
  have halike := hwith.alike machine.history
  refine ⟨.refl _, ?_, ?_, fun number => ?_, fun _ => ⟨fun hcrashed => ?_, rfl⟩, hobtained, hanswer⟩
  · rw [history_record]
    exact halike.taken
  · rw [history_record]
    exact halike.passes
  · rw [history_record]
    exact hwith.accepted machine.history number
  · rw [hcrashed] at hpassing
    cases hpassing

/-! ## The flow of logs -/

/-- What a step of the control task means for the log stream. -/
inductive Flow (machine after : Machine) : Prop
  /-- It keeps still. -/
  | still (hstill : Still machine after)
  /-- A log is taken. -/
  | took {log : RawLog} {pipeline : Pipeline}
      (hsignal : machine.signalled = false) (hrunning : machine.phase ≠ .crashed)
      (hreceive : machine.pipeline.receive = (.log log, pipeline))
      (hstill : Still ({ machine with pipeline }.record [.took log]) after)
  /-- The log stream is found to have ended. -/
  | driedUp {pipeline : Pipeline} (hreceive : machine.pipeline.receive = (.ended, pipeline))
      (hstill : Still { machine with pipeline } after)
  /-- A pass ends, and with it a subscription may come into use. -/
  | gathered {middle : Machine} {fresh : Option Nat} {logs : List RawLog}
      (hfresh : ∀ number, fresh = some number → machine.phase.fresh? = some number)
      (hstill : Still machine middle) (hends : PassEnds middle fresh logs after)
      (hrunning : middle.phase ≠ .crashed)

theorem flow_beginPass {start : Machine} (hstill : Still start machine)
    (hrunning : machine.phase ≠ .crashed) : Flow start machine.beginPass := by
  rw [beginPass_eq]
  split
  next =>
    have hends := passEnds_completePass (machine.record [.began []]) none []
    exact .gathered (by simp) (hstill.trans (machine.still_began [])) hends hrunning
  next =>
    have hbegan := machine.still_began machine.registry.addresses
    refine .still (hstill.trans ⟨hbegan.subscriptions, hbegan.taken, hbegan.passes,
      hbegan.accepted, fun _ => ⟨hrunning, rfl⟩, hbegan.obtained, hbegan.answer⟩)

theorem ControlStep.flow (h : ControlStep machine after) : Flow machine after := by
  have hrunning := h.phase_ne_crashed
  cases h with
  | interrupted | ticked =>
      exact .still (still_of_samePasses (.refl _) rfl (.refl _) (fun _ => ⟨hrunning, rfl⟩) rfl)
  | ready | resubscribed => exact flow_beginPass (.refl machine) hrunning
  | @handled caller command mailbox callers =>
      have hsame := (History.isOffPass_handling caller command).samePasses machine.history
      have htaken := History.taken_handling caller command machine.history
      rw [← history_record] at hsame htaken
      exact .still (still_of_samePasses hsame htaken (.refl _) (fun _ => ⟨hrunning, rfl⟩) rfl)
  | @repeated caller command mailbox =>
      obtain ⟨quiet, hdown⟩ := machine.breaksDown_repeated caller command mailbox
      refine .still (Still.trans ?_ hdown.still)
      have hsame : machine.history.SamePasses (.handled caller command :: machine.history) :=
        ⟨rfl, fun _ => rfl, rfl, rfl, fun _ => rfl⟩
      exact still_of_samePasses hsame rfl (.refl _) (fun h => ⟨h, rfl⟩) rfl
  | left => exact .still (still_leave hrunning _)
  | talked _ htalk => exact .still htalk.still
  | @fetched fresh _ _ _ _ query logs hphase =>
      have hends := passEnds_completePass
        (machine.record [.answered (.filter query) (.logs logs)]) fresh logs
      refine .gathered (fun number hnumber => by rw [hphase]; exact hnumber) ?_ hends hrunning
      exact ⟨.refl _, rfl, rfl, fun _ => rfl, fun h => ⟨h, rfl⟩, fun _ h => .inl h, fun _ h => h⟩
  | @lost _ number _ _ error subscription later _ _ _ hsubscription hfailure =>
      -- Taking the failure uses it up and leaves the logs of the subscription alone.
      have hshut :=
        Subscriptions.shut_set hsubscription (ClientSubscription.shut_of_failure? hfailure)
      have hlost : Still machine ({ machine with
          subscriptions := machine.subscriptions.set number later }.record [.lost error]) := by
        have hsame : machine.history.SamePasses (.lost error :: machine.history) :=
          ⟨rfl, fun _ => rfl, rfl, rfl, fun _ => rfl⟩
        exact still_of_samePasses hsame rfl hshut (fun h => ⟨h, rfl⟩) rfl
      refine flow_beginPass (hlost.trans (still_notifyDisconnected _)) ?_
      rw [notifyDisconnected_eq]
      exact hrunning
  | took _ hsignal hreceive => exact .took hsignal hrunning hreceive (still_dispatch _ _)
  | streamEnded _ _ hreceive =>
      refine .driedUp hreceive ?_
      exact still_of_samePasses (.refl _) rfl (.refl _) (fun _ => ⟨hrunning, rfl⟩) rfl
  | ended =>
      obtain ⟨callers, heq, -⟩ := machine.closeMailbox_eq
      rw [heq]
      exact .still (still_of_samePasses (.refl _) rfl (.refl _) (fun _ => ⟨hrunning, rfl⟩) rfl)

/-! ## Subscriptions that exist -/

/-- The subscriptions that the relay was given, and the one that waits to be taken, exist. -/
structure Lent (machine : Machine) : Prop where
  obtained : ∀ number ∈ machine.history.obtained, number < machine.subscriptions.length
  answer : ∀ number, machine.answer = some (.subscribed number) →
    number < machine.subscriptions.length

theorem Lent.of_still (h : Lent machine) (hstill : Still machine after) : Lent after := by
  have hlength := hstill.subscriptions.length
  refine ⟨fun number hmem => ?_, fun number hanswer => ?_⟩
  · rw [hlength]
    rcases hstill.obtained number hmem with hold | hanswer
    · exact h.obtained number hold
    · exact h.answer number hanswer
  · rw [hlength]
    exact h.answer number (hstill.answer number hanswer)

theorem Lent.of_adopts {fresh : Option Nat} {logs : List RawLog} (h : Lent machine)
    (hadopts : Adopts machine after fresh logs) : Lent after := by
  have hobtained := hadopts.samePasses.obtained
  obtain ⟨quiet, subscriptions, -, hshut, rfl⟩ := hadopts.eq
  refine ⟨fun number hmem => ?_, fun number hanswer => ?_⟩
  · exact hshut.length ▸ h.obtained number (hobtained ▸ hmem)
  · exact hshut.length ▸ h.answer number hanswer

theorem Lent.of_passEnds {fresh : Option Nat} {logs : List RawLog} (h : Lent machine)
    (hends : PassEnds machine fresh logs after) : Lent after := by
  have hgathered : Lent (machine.record [.gathered logs fresh]) := ⟨h.obtained, h.answer⟩
  cases hends with
  | overcrowded hroom hdown => exact hgathered.of_still hdown.still
  | restless hadopts hdebounce hdown => exact (hgathered.of_adopts hadopts).of_still hdown.still
  | completed hadopts =>
      have hadopted := hgathered.of_adopts hadopts
      exact ⟨hadopted.obtained, hadopted.answer⟩

theorem Lent.of_flow (h : Lent machine) (hflow : Flow machine after) : Lent after := by
  cases hflow with
  | still hstill => exact h.of_still hstill
  | took _ _ hreceive hstill =>
      refine Lent.of_still ?_ hstill
      exact ⟨h.obtained, h.answer⟩
  | driedUp hreceive hstill =>
      refine Lent.of_still ?_ hstill
      exact ⟨h.obtained, h.answer⟩
  | gathered hfresh hstill hends => exact (h.of_still hstill).of_passEnds hends

theorem Lent.of_outsideStep (h : Lent machine) (hstep : OutsideStep machine after) :
    Lent after := by
  have hlength : ∀ {later : Machine}, later.history.obtained = machine.history.obtained →
      later.answer = machine.answer →
        machine.subscriptions.length ≤ later.subscriptions.length → Lent later := by
    intro later hobtained hanswer hle
    refine ⟨fun number hmem => ?_, fun number hanswered => ?_⟩
    · exact Nat.lt_of_lt_of_le (h.obtained number (hobtained ▸ hmem)) hle
    · exact Nat.lt_of_lt_of_le (h.answer number (hanswer ▸ hanswered)) hle
  cases hstep with
  | staged hstep => exact hlength rfl rfl (Nat.le_of_eq (Pipeline.length_of_step? hstep).symm)
  | accepted => exact hlength rfl rfl (Nat.le_of_eq List.length_set.symm)
  | shut hshut => exact hlength rfl rfl (Nat.le_of_eq hshut.length.symm)
  | opened => exact hlength rfl rfl (by simp)
  | granted hawaits hnew hmade =>
      refine ⟨h.obtained, fun number hanswer => ?_⟩
      cases hanswer
      exact hmade
  | replied hanswer =>
      refine ⟨h.obtained, fun number hsubscribed => ?_⟩
      cases hsubscribed
      cases hanswer
  | started | arranged => exact hlength rfl rfl (Nat.le_refl _)

theorem Reachable.lent (h : Reachable machine) : Lent machine := by
  induction h using Reachable.always with
  | initial =>
      refine ⟨fun number hmem => ?_, fun number hanswer => ?_⟩
      · cases hmem
      · cases hanswer
  | control _ _ hstep ih => exact ih.of_flow hstep.flow
  | outside _ _ hstep ih => exact ih.of_outsideStep hstep

end Machine

end LogRelay
