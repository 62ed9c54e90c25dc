import LogRelay.Proofs.BreakDown
import LogRelay.Proofs.Flow
import Mathlib.Data.List.Induction

/-!
# No log is lost

The logs that the relay takes from its log stream are a beginning of those that its passes
offer: of each pass first the earlier logs, then those accepted on its subscription, and
the passes in order.  Until the shutdown signal is raised the rest is still in the
stages, so that no log is lost, doubled or moved however the stages take their steps and
whenever a pass begins.

The one other way to lose logs is that the control task breaks down, which stops all
stages at once.  Without a pair that is registered again this takes a debounce time of zero,
a room for logs that no channel can have, or a listener that breaks down.
-/

namespace LogRelay

namespace History

/-- Where the logs that the passes offer come from, the newest origin first. -/
def origins (history : History) : List LogSource :=
  history.passes.reverse.flatMap fun (logs, fresh) => [Machine.sourceOf fresh, .batch logs]

theorem origins_gathered (logs : List RawLog) (fresh : Option Nat) (older : History) :
    History.origins (.gathered logs fresh :: older) =
      Machine.sourceOf fresh :: .batch logs :: older.origins := by
  simp [origins]

theorem contents_origins (history : History) {channels : Channels}
    (haccepted : ∀ number, channels.accepted number = history.accepted number) :
    channels.contents history.origins = history.offered := by
  rw [origins, offered]
  induction history.passes using List.reverseRecOn with
  | nil => rfl
  | append_singleton passes pass ih =>
      obtain ⟨logs, fresh⟩ := pass
      have hlive : channels.content (Machine.sourceOf fresh) =
          fresh.elim [] fun number => history.accepted number := by
        cases fresh with
        | none => rfl
        | some number => exact haccepted number
      rw [List.reverse_concat, List.flatMap_cons, List.flatMap_append, ← ih]
      refine (List.append_assoc ..).trans (congrArg _ ?_)
      rw [hlive, List.flatMap_singleton]
      rfl

theorem filterMap_number?_origins (history : History) :
    history.origins.filterMap LogSource.number? = history.used.reverse := by
  rw [origins, used]
  induction history.passes using List.reverseRecOn with
  | nil => rfl
  | append_singleton passes pass ih =>
      obtain ⟨logs, fresh⟩ := pass
      rw [List.reverse_concat, List.flatMap_cons, List.filterMap_append, ih]
      cases fresh with
      | none => simp [Machine.sourceOf, LogSource.number?]
      | some number => simp [Machine.sourceOf, LogSource.number?]

theorem live_mem_origins {history : History} {number : Nat} :
    .live number ∈ history.origins ↔ number ∈ history.used := by
  rw [← LogSource.mem_filterMap_number?, filterMap_number?_origins, List.mem_reverse]

end History

namespace Machine

variable {machine after : Machine}

/-- What has happened to the logs of all subscriptions of the relay. -/
def channels (machine : Machine) : Channels :=
  .ofSubscriptions (fun number => machine.history.accepted number) machine.subscriptions

/-! ## Nothing is lost -/

/-- The logs of a subscription that is not in use are all on their way; what was taken reaches
into the logs that the passes offer; and the rest of them is in the stages, until the
shutdown signal is raised or the control task breaks down. -/
structure Conserved (machine : Machine) : Prop where
  unread : ∀ number, number ∉ machine.history.used →
    machine.history.accepted number = machine.channels.waiting number
  reached : machine.channels.Reached machine.history.taken machine.history.origins
  balanced : machine.signalled = false → machine.phase ≠ .crashed →
    machine.channels.Balanced machine.history.taken machine.pipeline machine.history.origins

/-- What was accepted meanwhile is on its way. -/
theorem Conserved.of_grows (h : Conserved machine)
    (htaken : after.history.taken = machine.history.taken)
    (hpasses : after.history.passes = machine.history.passes)
    (hgrows : ∀ number ∈ machine.history.used, machine.channels.GrowsAt after.channels number)
    (hunread : ∀ number, ∃ more,
      after.history.accepted number = machine.history.accepted number ++ more ∧
        after.channels.waiting number = machine.channels.waiting number ++ more)
    (hrunning : after.signalled = false → after.phase ≠ .crashed →
      machine.signalled = false ∧ machine.phase ≠ .crashed ∧ after.pipeline = machine.pipeline) :
    Conserved after := by
  have hused : after.history.used = machine.history.used := by
    rw [History.used, hpasses, History.used]
  have horigins : after.history.origins = machine.history.origins := by
    rw [History.origins, hpasses, History.origins]
  have hlive : ∀ number, .live number ∈ machine.history.origins →
      machine.channels.GrowsAt after.channels number :=
    fun number hmem => hgrows number (History.live_mem_origins.mp hmem)
  refine ⟨fun number hnot => ?_, ?_, fun hsignal hphase => ?_⟩
  · rw [hused] at hnot
    obtain ⟨more, haccepted, hwaiting⟩ := hunread number
    rw [haccepted, hwaiting, h.unread number hnot]
  · rw [htaken, horigins]
    exact h.reached.grow hlive
  · obtain ⟨hsignal, hphase, hpipeline⟩ := hrunning hsignal hphase
    rw [htaken, horigins, hpipeline]
    exact (h.balanced hsignal hphase).grow hlive

/-- When subscriptions are let go of and nothing is accepted, the logs on their way stay. -/
theorem channels_of_shut
    (haccepted : ∀ number, after.history.accepted number = machine.history.accepted number)
    (hshut : machine.subscriptions.Shut after.subscriptions) (number : Nat) :
    machine.channels.GrowsAt after.channels number ∧
      after.channels.waiting number = machine.channels.waiting number := by
  have hchannels : after.channels =
      .ofSubscriptions (fun number => machine.history.accepted number) after.subscriptions := by
    rw [channels, funext haccepted]
  rw [hchannels]
  exact ⟨Channels.growsAt_of_shut _ hshut number, Channels.waiting_of_shut _ hshut number⟩

theorem Conserved.of_still (h : Conserved machine) (hstill : Still machine after)
    (hsignal : after.signalled = machine.signalled) : Conserved after := by
  have hchannels := channels_of_shut hstill.accepted hstill.subscriptions
  refine h.of_grows hstill.taken hstill.passes (fun number _ => (hchannels number).1)
    (fun number => ?_) fun hquiet hphase => ?_
  · refine ⟨[], (hstill.accepted number).trans (List.append_nil _).symm, ?_⟩
    rw [(hchannels number).2, List.append_nil]
  · obtain ⟨hcrashed, hpipeline⟩ := hstill.running hphase
    exact ⟨hsignal ▸ hquiet, hcrashed, hpipeline⟩

/-- New stages begin with everything that is on its way to them. -/
theorem Conserved.of_adopts {fresh : Option Nat} {logs : List RawLog} (h : Conserved machine)
    (hnew : ∀ number, fresh = some number → number ∉ machine.history.used)
    (hadopts : Adopts (machine.record [.gathered logs fresh]) after fresh logs) :
    Conserved after := by
  have hsame := hadopts.samePasses
  have hsignal : after.signalled = machine.signalled := hadopts.frame.signalled
  have htaken : after.history.taken = machine.history.taken := hadopts.offStream.sameRoutes.taken
  have horigins : after.history.origins =
      sourceOf fresh :: .batch logs :: machine.history.origins := by
    rw [← History.origins_gathered, History.origins, hsame.passes]
    rfl
  have hused : after.history.used = machine.history.used ++ fresh.toList := by
    rw [hsame.used]
    exact History.used_gathered logs fresh machine.history
  obtain ⟨hshut, hpipeline⟩ := hadopts.stages
  have hchannels := channels_of_shut hsame.accepted hshut
  have hunread : ∀ number, number ∉ machine.history.used →
      after.history.accepted number = after.channels.waiting number := by
    intro number hnot
    calc after.history.accepted number
        = machine.history.accepted number := hsame.accepted number
      _ = machine.channels.waiting number := h.unread number hnot
      _ = after.channels.waiting number := (hchannels number).2.symm
  refine ⟨fun number hnot => ?_, ?_, fun hquiet hcrashed => ?_⟩
  · rw [hused, List.mem_append, not_or] at hnot
    exact hunread number hnot.1
  · rw [htaken, horigins]
    exact .inl (.inl (h.reached.grow fun number _ => (hchannels number).1))
  · have hphase : after.phase = machine.phase := hadopts.phase
    have hbefore := (h.balanced (hsignal ▸ hquiet) (hphase ▸ hcrashed)).grow
      fun number _ => (hchannels number).1
    have hfresh : after.channels.content (sourceOf fresh) =
        after.channels.remaining (sourceOf fresh) := by
      cases fresh with
      | none => rfl
      | some number => exact hunread number (hnew number rfl)
    have hbatch : after.channels.content (.batch logs) = after.channels.remaining (.batch logs) :=
      rfl
    rw [htaken, horigins, hpipeline]
    exact (hbefore.addStage hbatch).addStage hfresh

theorem Conserved.of_passEnds {fresh : Option Nat} {logs : List RawLog} (h : Conserved machine)
    (hnew : ∀ number, fresh = some number → number ∉ machine.history.used)
    (hrunning : machine.phase ≠ .crashed) (hends : PassEnds machine fresh logs after) :
    Conserved after := by
  cases hends with
  | overcrowded hroom hdown =>
      -- The fetched logs get no stage, but the control task has broken down.
      obtain ⟨⟨subscriptions, callers, hshut, hdone, heq⟩, hquiet, hcallers⟩ := hdown
      rw [callers_closeMailbox] at hcallers
      have hdown : BreaksDown { machine.record [.gathered logs fresh] with phase := .crashed } after
          _ := ⟨⟨subscriptions, callers, hshut, hdone, heq⟩, hquiet, by
        rw [hcallers, callers_closeMailbox]⟩
      refine Conserved.of_still ⟨fun number hnot => ?_, ?_, fun _ hphase => ?_⟩ hdown.still
        hdown.frame.signalled
      · refine h.unread number fun hmem => hnot ?_
        have hused := History.used_gathered logs fresh machine.history
        exact hused ▸ List.mem_append_left _ hmem
      · have horigins := History.origins_gathered logs fresh machine.history
        exact horigins ▸ .inl (.inl h.reached)
      · exact absurd rfl hphase
  | restless hadopts hdebounce hdown =>
      exact (h.of_adopts hnew hadopts).of_still hdown.still hdown.frame.signalled
  | @completed adopted hadopts =>
      obtain ⟨hunread, hreached, hbalanced⟩ := h.of_adopts hnew hadopts
      have hphase : adopted.phase = machine.phase := hadopts.phase
      exact ⟨hunread, hreached, fun hsignal _ => hbalanced hsignal (hphase ▸ hrunning)⟩

theorem Conserved.of_flow (h : Conserved machine) (hgranted : Granted machine)
    (hsignal : after.signalled = machine.signalled) (hflow : Flow machine after) :
    Conserved after := by
  cases hflow with
  | still hstill => exact h.of_still hstill hsignal
  | @took log pipeline hquiet hrunning hreceive hstill =>
      have hbalanced := (h.balanced hquiet hrunning).receive_log hreceive
      refine Conserved.of_still ?_ hstill hsignal
      exact ⟨h.unread, hbalanced.reached, fun _ _ => hbalanced⟩
  | driedUp hreceive hstill =>
      obtain rfl := Pipeline.eq_nil_of_receive_ended hreceive
      refine Conserved.of_still ?_ hstill hsignal
      refine ⟨h.unread, h.reached, fun hquiet hrunning => ?_⟩
      exact (h.balanced hquiet hrunning).receive_ended hreceive
  | @gathered middle fresh logs hfresh hstill hends hrunning =>
      have hmiddle := hends.frame.signalled.symm.trans hsignal
      refine (h.of_still hstill hmiddle).of_passEnds (fun number hnumber => ?_) hrunning hends
      rw [History.used, hstill.passes]
      exact (hgranted.fresh number (hfresh number hnumber)).2

/-! ## Moves from outside -/

theorem OutsideStep.signalled (h : OutsideStep machine after) (hquiet : after.signalled = false) :
    machine.signalled = false := by
  cases h with
  | arranged hsignal =>
      cases hbefore : machine.signalled with
      | false => rfl
      | true => exact hquiet.symm.trans (hsignal hbefore) |>.symm
  | _ => exact hquiet

/-- An accepted log is on its way. -/
theorem growsAt_accepted {number : Nat} {log : RawLog} {subscription : ClientSubscription}
    (hnumber : machine.subscriptions[number]? = some subscription)
    (htakes : subscription.takesLogs = true) (other : Nat) :
    machine.channels.GrowsAt
      ({ machine with
        subscriptions := machine.subscriptions.set number
          { subscription with logs := subscription.logs ++ [log] } }.record
            [.accepted number log]).channels other := by
  have hlength : number < machine.subscriptions.length := (List.getElem?_eq_some_iff.mp hnumber).1
  by_cases heq : number = other
  · subst heq
    refine ⟨[log], if_pos rfl, ?_, fun hshut => ?_⟩
    · simp only [channels, Channels.ofSubscriptions, record, List.getElem?_set_self hlength,
        hnumber, Option.map_some, Option.getD_some]
    · exact absurd (htakes.symm.trans (hshut subscription hnumber)) (by simp)
  · refine ⟨[], (if_neg heq).trans (List.append_nil _).symm, ?_, fun hshut => ⟨?_, rfl⟩⟩
    · simp [channels, Channels.ofSubscriptions, record, heq]
    · intro found hfound
      exact hshut found ((List.getElem?_set_ne heq).symm.trans hfound)

theorem Conserved.of_staged (h : Conserved machine) (hnodup : machine.history.used.Nodup)
    (hstopped : machine.phase = .crashed → machine.pipeline.allFinished = true) {id : Nat}
    {pipeline : Pipeline} {subscriptions : Subscriptions}
    (hstep : machine.pipeline.step? machine.signalled machine.parameters.logRoom id
      machine.subscriptions = some (pipeline, subscriptions)) :
    Conserved { machine with pipeline, subscriptions } := by
  cases hsignal : machine.signalled with
  | true =>
      rw [hsignal] at hstep
      have hshut := Channels.shut_of_step? hstep
      refine ⟨fun number hnot => ?_, ?_, fun hquiet => ?_⟩
      · exact (h.unread number hnot).trans (Channels.waiting_of_shut _ hshut number).symm
      · exact h.reached.grow fun number _ => Channels.growsAt_of_shut _ hshut number
      · exact absurd (hsignal.symm.trans hquiet) (by simp)
  | false =>
      rw [hsignal] at hstep
      -- Stages that were stopped with the control task take no steps.
      have hrunning : machine.phase ≠ .crashed := by
        intro hcrashed
        rw [Pipeline.step?_eq_none (hstopped hcrashed)] at hstep
        cases hstep
      have horigins : (machine.history.origins.filterMap LogSource.number?).Nodup := by
        rw [History.filterMap_number?_origins]
        exact List.nodup_reverse.mpr hnodup
      obtain ⟨hbalanced, hgrows⟩ := (h.balanced hsignal hrunning).of_step? horigins hstep
      refine ⟨fun number hnot => ?_, hbalanced.reached, fun _ _ => hbalanced⟩
      obtain ⟨more, haccepted, hwaiting, -⟩ :=
        hgrows number fun hmem => hnot (History.live_mem_origins.mp hmem)
      -- A stage accepts nothing, so that nothing is added to other subscriptions either.
      obtain rfl : more = [] := List.self_eq_append_right.mp haccepted
      exact (h.unread number hnot).trans (hwaiting.trans (List.append_nil _)).symm

theorem Conserved.of_outsideStep (h : Conserved machine) (hgranted : Granted machine)
    (hlent : Lent machine)
    (hstopped : machine.phase = .crashed → machine.pipeline.allFinished = true)
    (hstep : OutsideStep machine after) : Conserved after := by
  have hsignal := hstep.signalled
  have hsame := Channels.growsAt_of_shut (fun number => machine.history.accepted number)
    (.refl machine.subscriptions)
  have hunread : ∀ number, ∃ more,
      machine.history.accepted number = machine.history.accepted number ++ more ∧
        machine.channels.waiting number = machine.channels.waiting number ++ more :=
    fun number => ⟨[], (List.append_nil _).symm, (List.append_nil _).symm⟩
  cases hstep with
  | staged hstep => exact h.of_staged hgranted.nodup hstopped hstep
  | @accepted number log subscription hnumber htakes =>
      have hgrows := @growsAt_accepted machine number log subscription hnumber htakes
      refine h.of_grows rfl rfl (fun other _ => hgrows other) (fun other => ?_)
        fun hquiet hrunning => ⟨hquiet, hrunning, rfl⟩
      obtain ⟨more, haccepted, hwaiting, -⟩ := hgrows other
      exact ⟨more, haccepted, hwaiting⟩
  | shut hshut =>
      exact h.of_still (still_of_samePasses (.refl _) rfl hshut (fun h => ⟨h, rfl⟩) rfl) rfl
  | opened room =>
      refine h.of_grows rfl rfl (fun number hused => ?_) (fun number => ?_)
        fun hquiet hrunning => ⟨hquiet, hrunning, rfl⟩
      · -- The new subscription is none of those that are in use.
        have hlength := hlent.obtained number (hgranted.used number hused)
        have hfound : (machine.subscriptions ++ [({ room } : ClientSubscription)])[number]? =
            machine.subscriptions[number]? :=
          List.getElem?_append_left hlength
        refine ⟨[], (List.append_nil _).symm, ?_, fun hshut => ⟨fun found hmem => ?_, rfl⟩⟩
        · simp only [channels, Channels.ofSubscriptions, hfound, List.append_nil]
        · exact hshut found (hfound.symm.trans hmem)
      · refine ⟨[], (List.append_nil _).symm, ?_⟩
        rw [List.append_nil]
        exact Channels.waiting_concat _ machine.subscriptions rfl number
  | granted | replied =>
      exact h.of_grows rfl rfl (fun number _ => hsame number) hunread
        fun hquiet hrunning => ⟨hquiet, hrunning, rfl⟩
  | started hphase =>
      refine h.of_grows rfl rfl (fun number _ => hsame number) hunread
        fun hquiet _ => ⟨hquiet, ?_, rfl⟩
      rw [hphase]
      simp
  | arranged =>
      exact h.of_grows rfl rfl (fun number _ => hsame number) hunread
        fun hquiet hrunning => ⟨hsignal hquiet, hrunning, rfl⟩

theorem Reachable.conserved (h : Reachable machine) : Conserved machine := by
  induction h using Reachable.always with
  | initial =>
      refine ⟨fun number _ => rfl, rfl, fun _ _ => ?_⟩
      exact .exhausted fun origin hmem => absurd hmem List.not_mem_nil
  | control hreach _ hstep ih => exact ih.of_flow hreach.granted hstep.frame.signalled hstep.flow
  | outside hreach _ hstep ih =>
      exact ih.of_outsideStep hreach.granted hreach.lent hreach.explained.stopped hstep

theorem contents_origins (machine : Machine) :
    machine.channels.contents machine.history.origins = machine.history.offered :=
  machine.history.contents_origins fun _ => rfl

/-- The log that is taken next is one that the passes offer. -/
theorem Reachable.offers_next (h : Reachable machine) (hsignal : machine.signalled = false)
    (hrunning : machine.phase ≠ .crashed) {log : RawLog} {pipeline : Pipeline}
    (hreceive : machine.pipeline.receive = (.log log, pipeline)) :
    machine.history.taken ++ [log] <+: machine.history.offered := by
  have hbalanced := (h.conserved.balanced hsignal hrunning).receive_log hreceive
  rw [← machine.contents_origins]
  exact hbalanced.reached.isPrefix_contents

/-- What was taken from the log stream is a beginning of what the passes offer: of each pass the
earlier logs, followed by those accepted on its subscription.  Unless the shutdown signal
is raised or the control task has broken down, the rest is exactly what is still in the
stages and in their sources.  And the control task breaks down only over a fault. -/
theorem Reachable.no_log_is_lost (h : Reachable machine) :
    machine.history.taken <+: machine.history.offered ∧
    (machine.signalled = false → machine.phase ≠ .crashed →
      machine.history.taken ++ machine.channels.inFlight machine.pipeline =
        machine.history.offered) ∧
    (machine.phase = .crashed → machine.HasFault) := by
  rw [← machine.contents_origins]
  refine ⟨h.conserved.reached.isPrefix_contents, fun hsignal hrunning => ?_, h.explained.fault⟩
  exact (h.conserved.balanced hsignal hrunning).out_append_inFlight

theorem sample_no_log_is_lost :
    Sample.machine.signalled = false ∧
      Sample.machine.history.taken ++ Sample.machine.channels.inFlight Sample.machine.pipeline =
        [Sample.log] := by
  have hsignal : Sample.machine.signalled = false := by decide
  have hphase : Sample.machine.phase = .processing 100 false true := by rfl
  have hconserved := Reachable.no_log_is_lost Sample.reachable
  have hoffered : Sample.machine.history.offered = [Sample.log] := by decide
  refine ⟨hsignal, ?_⟩
  rw [hconserved.2.1 hsignal (by simp [hphase]), hoffered]

end Machine

/-! ## A listener that breaks down over the first of two logs -/

namespace Sample

/-- Two logs are fetched, and the first of them is taken for the listener. -/
def movesToShatter : List Move :=
  movesToFetch ++ [.reply 2 (.logs [log, log]), .step .control, .step (.stage 0),
    .step (.stage 1), .step (.stage 1), .step (.stage 2), .step (.stage 2), .step (.stage 2),
    .step (.stage 3), .step (.stage 3), .step .control]

/-- The relay after the run, when the listener breaks down. -/
def shattered : Machine :=
  ((Machine.initial parameters fun _ _ => true).run? movesToShatter).getD default

/-- The second log is neither taken nor on its way, although the shutdown signal was not raised, no
pair was registered twice, and the channels and the debounce time are as they have to be. -/
theorem shattered_loses_log :
    shattered.Reachable ∧ shattered.signalled = false ∧ ¬shattered.history.Repeated ∧
      shattered.parameters.debounce ≠ 0 ∧
      shattered.parameters.logRoom ≤ RelayParameters.greatestRoom ∧
      shattered.history.offered = [log, log] ∧ shattered.history.taken = [log] ∧
      shattered.channels.inFlight shattered.pipeline = [] := by
  have hstart : (Machine.initial parameters fun _ _ => true).Reachable :=
    .initial parameters fun _ _ => true
  have hreach : shattered.Reachable := hstart.getD_run? (by decide)
  refine ⟨hreach, ?_, ?_, ?_, ?_, ?_, ?_, ?_⟩
  all_goals decide

end Sample

end LogRelay
