import LogRelay.Proofs.Operations

/-!
# What a step of the control task can be

`ControlStep` lists the steps of the control task, each with the condition under which
it is taken, and `controlStep_of_stepControl?` says that the task takes no others.
Invariants of the control task are proved by cases on this list.  The steps in which
the task only talks to the client are a list of their own (`ClientStep`), because most
invariants need not tell them apart.
-/

namespace LogRelay

namespace Phase

/-- The subscription that is not in use yet. -/
def fresh? : Phase → Option Nat
  | backfilling fresh .. => fresh
  | _ => none

/-- Whether the control task is in a pass or processes. -/
def isActive : Phase → Bool
  | subscribing .. | backfilling .. | processing .. => true
  | _ => false

/-- Whether the control task subscribes or fetches. -/
def isPassing : Phase → Bool
  | subscribing .. | backfilling .. => true
  | _ => false

/-- Whether the control task handles requests. -/
def handlesRequests : Phase → Bool
  | waiting | processing .. => true
  | _ => false

/-- The phase after a request was handled, which has changed the addresses or not. -/
def afterHandling (changed : Bool) : Phase → Phase
  | processing nextTick stale logsOpen => processing nextTick (stale || changed) logsOpen
  | phase => phase

theorem isActive_afterHandling (phase : Phase) (changed : Bool) :
    (phase.afterHandling changed).isActive = phase.isActive := by
  cases phase <;> rfl

end Phase

namespace Machine

/-- A step in which the control task only talks to the client. -/
inductive ClientStep (machine : Machine) : Machine → Prop
  /-- It asks for a subscription. -/
  | askedToSubscribe {addresses : List Address} {failures : Nat}
      (hphase : machine.phase = .subscribing addresses failures .due) :
      ClientStep machine
        (machine.ask (.subscribe (.ofAddresses addresses))
          (machine.now + machine.parameters.createTimeout) (.subscribing addresses failures))
  /-- It is ready to subscribe again. -/
  | restedToSubscribe {addresses : List Address} {failures wakeUp : Nat}
      (hphase : machine.phase = .subscribing addresses failures (.resting wakeUp))
      (hwake : wakeUp ≤ machine.now) :
      ClientStep machine { machine with phase := .subscribing addresses failures .due }
  /-- It gets another answer than a subscription. -/
  | refusedToSubscribe {addresses : List Address} {failures number deadline : Nat}
      {request : ClientRequest} {answer : ClientAnswer}
      (hphase : machine.phase =
        .subscribing addresses failures (.asking request number deadline))
      (hanswer : machine.answer = some answer)
      (hother : ∀ obtained, answer ≠ .subscribed obtained) :
      ClientStep machine
        ((machine.record [.answered request answer]).retrySubscribing addresses failures)
  /-- It gets no answer in time while it subscribes. -/
  | gaveUpToSubscribe {addresses : List Address} {failures number deadline : Nat}
      {request : ClientRequest}
      (hphase : machine.phase =
        .subscribing addresses failures (.asking request number deadline))
      (hanswer : machine.answer = none) (hlate : deadline ≤ machine.now) :
      ClientStep machine
        ((machine.record [.gaveUp request]).retrySubscribing addresses failures)
  /-- It gets a subscription. -/
  | subscribed {addresses : List Address} {failures number deadline obtained : Nat}
      {request : ClientRequest}
      (hphase : machine.phase =
        .subscribing addresses failures (.asking request number deadline))
      (hanswer : machine.answer = some (.subscribed obtained)) :
      ClientStep machine
        { machine.record [.answered request (.subscribed obtained)] with
          phase := .backfilling (some obtained) machine.registry.addresses 0 .due }
  /-- It asks for the latest header. -/
  | askedForHeader {fresh : Option Nat} {addresses : List Address} {failures : Nat}
      (hphase : machine.phase = .backfilling fresh addresses failures .due) :
      ClientStep machine
        (machine.ask .header (machine.now + machine.parameters.requestTimeout)
          (.backfilling fresh addresses failures))
  /-- It is ready to fetch again. -/
  | restedToFetch {fresh : Option Nat} {addresses : List Address} {failures wakeUp : Nat}
      (hphase : machine.phase = .backfilling fresh addresses failures (.resting wakeUp))
      (hwake : wakeUp ≤ machine.now) :
      ClientStep machine { machine with phase := .backfilling fresh addresses failures .due }
  /-- It gets an answer that it cannot go on with. -/
  | refusedToFetch {fresh : Option Nat} {addresses : List Address}
      {failures number deadline : Nat} {request : ClientRequest} {answer : ClientAnswer}
      (hphase : machine.phase =
        .backfilling fresh addresses failures (.asking request number deadline))
      (hanswer : machine.answer = some answer)
      (hheader : ∀ header, request = .header → answer ≠ .header (some header))
      (hfilter : ∀ query logs, request = .filter query → answer ≠ .logs logs) :
      ClientStep machine
        ((machine.record [.answered request answer]).retryBackfilling fresh addresses failures)
  /-- It gets no answer in time while it fetches. -/
  | gaveUpToFetch {fresh : Option Nat} {addresses : List Address}
      {failures number deadline : Nat} {request : ClientRequest}
      (hphase : machine.phase =
        .backfilling fresh addresses failures (.asking request number deadline))
      (hanswer : machine.answer = none) (hlate : deadline ≤ machine.now) :
      ClientStep machine
        ((machine.record [.gaveUp request]).retryBackfilling fresh addresses failures)
  /-- It gets a header and asks for earlier logs. -/
  | askedForLogs {fresh : Option Nat} {addresses : List Address}
      {failures number deadline : Nat} {header : Header}
      (hphase : machine.phase =
        .backfilling fresh addresses failures (.asking .header number deadline))
      (hanswer : machine.answer = some (.header (some header))) :
      ClientStep machine
        ((machine.record [.answered .header (.header (some header))]).ask
          (.filter ((FilterQuery.ofAddresses addresses).startingAt
            (UInt64.ofNat (startBlock header.number.toNat machine.parameters.depth))))
          deadline (.backfilling fresh addresses failures))

/-- A step of the control task. -/
inductive ControlStep (machine : Machine) : Machine → Prop
  /-- It stops waiting for other services because of the shutdown signal. -/
  | interrupted (hphase : machine.phase = .waiting) (hsignal : machine.signalled = true) :
      ControlStep machine { machine with phase := .joining }
  /-- It begins the first pass. -/
  | ready (hphase : machine.phase = .waiting) (hsignal : machine.signalled = false)
      (hready : machine.dependents.areReady = true) : ControlStep machine machine.beginPass
  /-- It handles a request. -/
  | handled {caller : CallerId} {command : Command} {mailbox : Mailbox} {callers : List Caller}
      (hphase : machine.phase.handlesRequests = true) (hsignal : machine.signalled = false)
      (htake : machine.mailbox.take? = some ((caller, command), mailbox))
      (hposted : callers.map Caller.asPosted = machine.callers.map Caller.asPosted)
      (hnew : ¬ machine.registry.Repeats command)
      (hanswered : callers = (machine.answerCaller (some machine.connected) caller).callers) :
      ControlStep machine
        ({ machine with
          mailbox, callers
          registry := machine.registry.apply command
          phase := machine.phase.afterHandling (machine.registry.changes command) }.record
            (History.handling caller command))
  /-- It breaks down over a request to register a pair again. -/
  | repeated {caller : CallerId} {command : Command} {mailbox : Mailbox}
      (hphase : machine.phase.handlesRequests = true) (hsignal : machine.signalled = false)
      (htake : machine.mailbox.take? = some ((caller, command), mailbox))
      (hrepeats : machine.registry.Repeats command) :
      ControlStep machine
        ((({ machine with mailbox }.record [.handled caller command]).answerCaller none
          caller).crash none)
  /-- It begins to end because of the shutdown signal. -/
  | left (hphase : machine.phase.isActive = true) (hsignal : machine.signalled = true) :
      ControlStep machine (machine.leave machine.phase.fresh?)
  /-- It talks to the client. -/
  | talked {after : Machine} (hsignal : machine.signalled = false)
      (htalk : ClientStep machine after) : ControlStep machine after
  /-- It gets earlier logs and completes the pass. -/
  | fetched {fresh : Option Nat} {addresses : List Address} {failures number deadline : Nat}
      {query : FilterQuery} {logs : List RawLog}
      (hphase : machine.phase =
        .backfilling fresh addresses failures (.asking (.filter query) number deadline))
      (hsignal : machine.signalled = false) (hanswer : machine.answer = some (.logs logs)) :
      ControlStep machine
        ((machine.record [.answered (.filter query) (.logs logs)]).completePass fresh logs)
  /-- It finds that the subscription is lost and begins a pass. -/
  | lost {nextTick number : Nat} {stale logsOpen : Bool} {error : ClientError}
      {subscription after : ClientSubscription}
      (hphase : machine.phase = .processing nextTick stale logsOpen)
      (hsignal : machine.signalled = false) (hcurrent : machine.current = some number)
      (hsubscription : machine.subscriptions[number]? = some subscription)
      (hfailure : subscription.failure? = some (error, after)) :
      ControlStep machine
        (({ machine with
          subscriptions := machine.subscriptions.set number after }.record
            [.lost error]).notifyDisconnected.beginPass)
  /-- It finds that the addresses have changed and begins a pass. -/
  | resubscribed {nextTick : Nat} {logsOpen : Bool}
      (hphase : machine.phase = .processing nextTick true logsOpen)
      (hsignal : machine.signalled = false) (hfailure : machine.failure? = none)
      (htick : nextTick ≤ machine.now) : ControlStep machine machine.beginPass
  /-- It finds that the addresses have not changed. -/
  | ticked {nextTick : Nat} {logsOpen : Bool}
      (hphase : machine.phase = .processing nextTick false logsOpen)
      (hsignal : machine.signalled = false) (htick : nextTick ≤ machine.now) :
      ControlStep machine
        { machine with phase := .processing (machine.tickAfter nextTick) false logsOpen }
  /-- It takes a log from the log stream and delivers it. -/
  | took {nextTick : Nat} {stale : Bool} {log : RawLog} {pipeline : Pipeline}
      (hphase : machine.phase = .processing nextTick stale true)
      (hsignal : machine.signalled = false)
      (hreceive : machine.pipeline.receive = (.log log, pipeline)) :
      ControlStep machine (({ machine with pipeline }.record [.took log]).dispatch log)
  /-- It finds that the log stream has ended. -/
  | streamEnded {nextTick : Nat} {stale : Bool} {pipeline : Pipeline}
      (hphase : machine.phase = .processing nextTick stale true)
      (hsignal : machine.signalled = false)
      (hreceive : machine.pipeline.receive = (.ended, pipeline)) :
      ControlStep machine { machine with pipeline, phase := .processing nextTick stale false }
  /-- It ends, as all stages have stopped. -/
  | ended (hphase : machine.phase = .joining) (hfinished : machine.pipeline.allFinished = true) :
      ControlStep machine { machine.closeMailbox with phase := .ended }

variable {machine after : Machine}

/-- What the steps in which the control task only talks to the client have in common. -/
theorem ClientStep.eq (h : ClientStep machine after) :
    ∃ phase requestCount answer talk, talk.IsWithClient ∧ machine.phase.isPassing = true ∧
      phase.isPassing = true ∧
      after = { machine with phase, requestCount, answer }.record talk := by
  cases h with
  | askedToSubscribe hphase | askedForHeader hphase =>
      refine ⟨_, _, _, [.asked _], History.isWithClient_singleton trivial, ?_, ?_, rfl⟩
      · rw [hphase]
        rfl
      · rfl
  | restedToSubscribe hphase | restedToFetch hphase =>
      refine ⟨_, machine.requestCount, machine.answer, [], History.isWithClient_nil, ?_, ?_,
        (record_nil _).symm⟩
      · rw [hphase]
        rfl
      · rfl
  | refusedToSubscribe hphase | subscribed hphase | refusedToFetch hphase =>
      refine ⟨_, machine.requestCount, machine.answer, [.answered _ _],
        History.isWithClient_singleton trivial, ?_, ?_, rfl⟩
      · rw [hphase]
        rfl
      · rfl
  | gaveUpToSubscribe hphase | gaveUpToFetch hphase =>
      refine ⟨_, machine.requestCount, machine.answer, [.gaveUp _],
        History.isWithClient_singleton trivial, ?_, ?_, rfl⟩
      · rw [hphase]
        rfl
      · rfl
  | askedForLogs hphase =>
      refine ⟨_, _, _, [.asked _, .answered _ _], ?_, ?_, ?_, rfl⟩
      · exact List.forall_mem_cons.mpr ⟨trivial, History.isWithClient_singleton trivial⟩
      · rw [hphase]
        rfl
      · rfl

theorem breaksDown_repeated (machine : Machine) (caller : CallerId) (command : Command)
    (mailbox : Mailbox) :
    ∃ quiet, BreaksDown
      (({ machine with mailbox }.record [.handled caller command]).answerCaller none caller)
      ((({ machine with mailbox }.record [.handled caller command]).answerCaller none
        caller).crash none) quiet :=
  breaksDown_crash _ none

/-! ## No other steps -/

theorem controlStep_of_stepMailbox? {next : Bool → Machine → Machine}
    (hnext : ∀ changed (later : Machine), later.phase = machine.phase →
      next changed later = { later with phase := machine.phase.afterHandling changed })
    (hphase : machine.phase.handlesRequests = true) (hsignal : machine.signalled = false)
    (h : machine.stepMailbox? next = some after) : ControlStep machine after := by
  cases htake : machine.mailbox.take? with
  | none => simp [stepMailbox?, htake] at h
  | some taken =>
      obtain ⟨⟨caller, command⟩, mailbox⟩ := taken
      -- Nothing but a pair that is registered again keeps a request from being handled.
      cases hhandle : ({ machine with mailbox } : Machine).handle? caller command with
      | none =>
          simp only [stepMailbox?, htake, hhandle, Option.bind_eq_bind, Option.bind_some,
            Option.some.injEq] at h
          subst h
          have hrepeats := handle?_eq_none hhandle
          exact .repeated hphase hsignal htake hrepeats
      | some result =>
          obtain ⟨changed, handled⟩ := result
          simp only [stepMailbox?, htake, hhandle, Option.bind_eq_bind, Option.bind_some,
            Option.some.injEq] at h
          obtain ⟨callers, hposted, hanswered, rfl, hnew, hhandled⟩ := handle?_eq_some hhandle
          have hsame : handled.phase = machine.phase := by
            rw [hhandled]
            rfl
          rw [hnext _ handled hsame] at h
          subst h hhandled
          exact .handled hphase hsignal htake hposted hnew hanswered

theorem clientStep_of_stepSubscribing? {addresses : List Address} {failures : Nat}
    {attempt : Attempt} (hphase : machine.phase = .subscribing addresses failures attempt)
    (h : machine.stepSubscribing? addresses failures attempt = some after) :
    ClientStep machine after := by
  cases attempt with
  | due =>
      cases h
      exact .askedToSubscribe hphase
  | resting wakeUp =>
      simp only [stepSubscribing?] at h
      split at h
      next hwake =>
        cases h
        exact .restedToSubscribe hphase hwake
      next => cases h
  | asking request number deadline =>
      simp only [stepSubscribing?] at h
      split at h
      next obtained hanswer =>
        cases h
        exact .subscribed hphase hanswer
      next answer hother hanswer =>
        cases h
        exact .refusedToSubscribe hphase hanswer hother
      next hanswer =>
        split at h
        next hlate =>
          cases h
          exact .gaveUpToSubscribe hphase hanswer hlate
        next => cases h

theorem controlStep_of_stepBackfilling? {fresh : Option Nat} {addresses : List Address}
    {failures : Nat} {attempt : Attempt}
    (hphase : machine.phase = .backfilling fresh addresses failures attempt)
    (hsignal : machine.signalled = false)
    (h : machine.stepBackfilling? fresh addresses failures attempt = some after) :
    ControlStep machine after := by
  cases attempt with
  | due =>
      cases h
      exact .talked hsignal (.askedForHeader hphase)
  | resting wakeUp =>
      simp only [stepBackfilling?] at h
      split at h
      next hwake =>
        cases h
        exact .talked hsignal (.restedToFetch hphase hwake)
      next => cases h
  | asking request number deadline =>
      simp only [stepBackfilling?] at h
      split at h
      next answer hanswer =>
        split at h
        next header =>
          cases h
          exact .talked hsignal (.askedForLogs hphase hanswer)
        next query logs =>
          cases h
          exact .fetched hphase hsignal hanswer
        next hheader hfilter =>
          cases h
          exact .talked hsignal (.refusedToFetch hphase hanswer hheader hfilter)
      next hanswer =>
        split at h
        next hlate =>
          cases h
          exact .talked hsignal (.gaveUpToFetch hphase hanswer hlate)
        next => cases h

theorem failure?_eq_some {error : ClientError} (h : machine.failure? = some (error, after)) :
    ∃ number subscription later, machine.current = some number ∧
      machine.subscriptions[number]? = some subscription ∧
      subscription.failure? = some (error, later) ∧
      after = { machine with subscriptions := machine.subscriptions.set number later } := by
  simp only [failure?, Option.bind_eq_bind, Option.bind_eq_some_iff] at h
  obtain ⟨number, hcurrent, subscription, hsubscription, ⟨found, later⟩, hfailure, h⟩ := h
  simp only [Option.pure_def, Option.some.injEq, Prod.mk.injEq] at h
  obtain ⟨rfl, rfl⟩ := h
  exact ⟨number, subscription, later, hcurrent, hsubscription, hfailure, rfl⟩

theorem controlStep_of_stepLogs? {nextTick : Nat} {stale : Bool}
    (hphase : machine.phase = .processing nextTick stale true)
    (hsignal : machine.signalled = false) (h : machine.stepLogs? nextTick stale = some after) :
    ControlStep machine after := by
  simp only [stepLogs?] at h
  split at h
  next log pipeline hreceive =>
    cases h
    exact .took hphase hsignal hreceive
  next pipeline hreceive =>
    cases h
    exact .streamEnded hphase hsignal hreceive
  next => cases h

theorem controlStep_of_stepProcessing? {nextTick : Nat} {stale logsOpen : Bool}
    (hphase : machine.phase = .processing nextTick stale logsOpen)
    (hsignal : machine.signalled = false)
    (h : machine.stepProcessing? nextTick stale logsOpen = some after) :
    ControlStep machine after := by
  simp only [stepProcessing?] at h
  split at h
  next error found hfailure =>
    cases h
    obtain ⟨number, subscription, later, hcurrent, hsubscription, hfailed, rfl⟩ :=
      failure?_eq_some hfailure
    exact .lost hphase hsignal hcurrent hsubscription hfailed
  next hfailure =>
    split at h
    next htick =>
      cases stale with
      | true =>
          cases h
          exact .resubscribed hphase hsignal hfailure htick
      | false =>
          cases h
          exact .ticked hphase hsignal htick
    next =>
      rcases Option.or_eq_some_iff.mp h with h | ⟨-, h⟩
      · refine controlStep_of_stepMailbox? (fun changed later _ => ?_) ?_ hsignal h
        · rw [hphase]
          rfl
        · rw [hphase]
          rfl
      · cases logsOpen with
        | true => exact controlStep_of_stepLogs? hphase hsignal h
        | false => cases h

/-- The control task takes no other steps than those of the list. -/
theorem controlStep_of_stepControl? (h : machine.stepControl? = some after) :
    ControlStep machine after := by
  unfold stepControl? at h
  -- In every active phase the shutdown signal is looked at first.
  cases hphase : machine.phase with
  | idle => simp [hphase] at h
  | ended => simp [hphase] at h
  | crashed => simp [hphase] at h
  | waiting =>
      simp only [hphase] at h
      cases hsignal : machine.signalled with
      | true =>
          simp only [hsignal, if_true, Option.some.injEq] at h
          subst h
          exact .interrupted hphase hsignal
      | false =>
          simp only [hsignal, Bool.false_eq_true, if_false] at h
          split at h
          next hready =>
            cases h
            exact .ready hphase hsignal hready
          next =>
            refine controlStep_of_stepMailbox? (fun changed later hlater => ?_) ?_ hsignal h
            · rw [hphase] at hlater ⊢
              change later = { later with phase := .waiting }
              rw [← hlater]
            · rw [hphase]
              rfl
  | subscribing addresses failures attempt =>
      simp only [hphase] at h
      cases hsignal : machine.signalled with
      | true =>
          simp only [hsignal, if_true, Option.some.injEq] at h
          subst h
          have hactive : machine.phase.isActive = true := by
            rw [hphase]
            rfl
          have hleft := ControlStep.left hactive hsignal
          rwa [hphase] at hleft
      | false =>
          simp only [hsignal, Bool.false_eq_true, if_false] at h
          exact .talked hsignal (clientStep_of_stepSubscribing? hphase h)
  | backfilling fresh addresses failures attempt =>
      simp only [hphase] at h
      cases hsignal : machine.signalled with
      | true =>
          simp only [hsignal, if_true, Option.some.injEq] at h
          subst h
          have hactive : machine.phase.isActive = true := by
            rw [hphase]
            rfl
          have hleft := ControlStep.left hactive hsignal
          rwa [hphase] at hleft
      | false =>
          simp only [hsignal, Bool.false_eq_true, if_false] at h
          exact controlStep_of_stepBackfilling? hphase hsignal h
  | processing nextTick stale logsOpen =>
      simp only [hphase] at h
      cases hsignal : machine.signalled with
      | true =>
          simp only [hsignal, if_true, Option.some.injEq] at h
          subst h
          have hactive : machine.phase.isActive = true := by
            rw [hphase]
            rfl
          have hleft := ControlStep.left hactive hsignal
          rwa [hphase] at hleft
      | false =>
          simp only [hsignal, Bool.false_eq_true, if_false] at h
          exact controlStep_of_stepProcessing? hphase hsignal h
  | joining =>
      simp only [hphase] at h
      split at h
      next hfinished =>
        cases h
        exact .ended hphase hfinished
      next => cases h

end Machine

end LogRelay
