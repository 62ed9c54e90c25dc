import LogRelay.Proofs.Attendance
import LogRelay.Proofs.CallerStep

/-!
# Moves of a relay

A relay runs by moves: one of its tasks takes a step, or the world outside acts on it.
What the client does is free, with two exceptions that are part of being a client: it only
gives away a subscription that it has made, and it gives none away twice.

`MoveStep` lists what moves can do, and `moveStep_of_perform?` says that they do nothing else.
-/

namespace LogRelay

/-- Whether the answer is a subscription. -/
def ClientAnswer.isSubscription : ClientAnswer → Bool
  | .subscribed _ => true
  | _ => false

/-- Something that can happen next. -/
inductive Move where
  | step (task : Task)
  | start
  | call (request : CallRequest)
  /-- The last handle is given up. -/
  | release
  | wait (time : Nat)
  | reply (number : Nat) (answer : ClientAnswer)
  /-- The client makes a subscription. -/
  | openSubscription (room : ChannelRoom)
  /-- The client answers a request with a subscription. -/
  | grant (number subscription : Nat)
  | push (number : Nat) (log : RawLog)
  | fail (number : Nat) (error : ClientError)
  /-- The client gives up sending logs. -/
  | endLogs (number : Nat)
  /-- The client gives up reporting failures. -/
  | endFailures (number : Nat)
  | addDependents (count : Nat)
  | dependentReady

namespace Machine

/-- Whether the client can give the subscription away. -/
def canGrant (machine : Machine) (subscription : Nat) : Bool :=
  decide (subscription < machine.subscriptions.length) &&
    !machine.history.obtained.contains subscription

/-- What a move leads to; `none` if it is not possible. -/
def perform? (machine : Machine) : Move → Option Machine
  | .step task => machine.step? task
  | .start => if machine.held then machine.start.toOption else none
  | .call request => if machine.held then some (machine.call request) else none
  | .release => some machine.release
  | .wait time => some (machine.advanceTo time)
  | .reply number answer =>
      if answer.isSubscription then none else some (machine.reply number answer)
  | .openSubscription room => some (machine.openSubscription room)
  | .grant number subscription =>
      if machine.canGrant subscription then
        some (machine.reply number (.subscribed subscription))
      else none
  | .push number log => some (machine.push number log).2
  | .fail number error => some (machine.fail number error).2
  | .endLogs number => some (machine.changeSubscription ClientSubscription.endLogs number)
  | .endFailures number => some (machine.changeSubscription ClientSubscription.endFailures number)
  | .addDependents count => machine.addDependents? count
  | .dependentReady => some machine.dependentReady

variable {machine after : Machine} {move : Move}

/-- What a move does. -/
inductive MoveStep (machine : Machine) : Move → Machine → Prop
  /-- The control task takes a step. -/
  | controlled {after : Machine} (hstep : machine.stepControl? = some after) :
      MoveStep machine (.step .control) after
  /-- A stage of the log stream takes a step. -/
  | staged {id : Nat} {pipeline : Pipeline} {subscriptions : Subscriptions}
      (hstep : machine.pipeline.step? machine.signalled machine.parameters.logRoom id
        machine.subscriptions = some (pipeline, subscriptions)) :
      MoveStep machine (.step (.stage id)) { machine with pipeline, subscriptions }
  /-- A call takes a step. -/
  | advanced {id : CallerId} {caller : Caller} {after : Machine}
      (hcaller : machine.callers[id]? = some caller) (hstep : CallerStep machine id caller after) :
      MoveStep machine (.step (.caller id)) after
  /-- The relay is started. -/
  | started (hcreated : machine.lifecycle = .created) :
      MoveStep machine .start { machine with lifecycle := .running, phase := .waiting }
  /-- A call is made. -/
  | called {request : CallRequest} (hheld : machine.held = true) :
      MoveStep machine (.call request) (machine.call request)
  /-- The last handle is given up. -/
  | released : MoveStep machine .release machine.release
  /-- Time passes, services are declared or report, or nothing happens. -/
  | arranged {move : Move} {now : Nat} {dependents : Dependents} (hnow : machine.now ≤ now) :
      MoveStep machine move { machine with now, dependents }
  /-- The client gives an answer that is waited for, but no subscription. -/
  | replied {number : Nat} {answer : ClientAnswer} (hawaits : machine.awaits number = true)
      (hanswer : answer.isSubscription = false) :
      MoveStep machine (.reply number answer) { machine with answer := some answer }
  /-- The client gives a subscription away. -/
  | granted {number subscription : Nat} (hawaits : machine.awaits number = true)
      (hnew : subscription ∉ machine.history.obtained)
      (hmade : subscription < machine.subscriptions.length) :
      MoveStep machine (.grant number subscription)
        { machine with answer := some (.subscribed subscription) }
  /-- The client makes a subscription. -/
  | opened (room : ChannelRoom) :
      MoveStep machine (.openSubscription room) (machine.openSubscription room)
  /-- A log is accepted on a subscription. -/
  | accepted {number : Nat} {log : RawLog} {subscription : ClientSubscription}
      (hnumber : machine.subscriptions[number]? = some subscription)
      (htakes : subscription.takesLogs = true) :
      MoveStep machine (.push number log)
        ({ machine with
          subscriptions := machine.subscriptions.set number
            { subscription with logs := subscription.logs ++ [log] } }.record
              [.accepted number log])
  /-- The client reports a failure or gives up what it has to a subscription. -/
  | shut {move : Move} {subscriptions : Subscriptions}
      (hshut : machine.subscriptions.Shut subscriptions)
      (hmarks : subscriptions.marks = machine.subscriptions.marks)
      (hattended : machine.subscriptions.Attended → subscriptions.Attended) :
      MoveStep machine move { machine with subscriptions }

theorem start_eq_ok (h : machine.lifecycle = .created) :
    machine.start = .ok { machine with lifecycle := .running, phase := .waiting } := by
  simp only [start, h, Lifecycle.start?]
  rfl

theorem start_eq_error (h : machine.lifecycle ≠ .created) :
    machine.start = .error .alreadyStarted := by
  cases hlifecycle : machine.lifecycle with
  | created => exact absurd hlifecycle h
  | running | stopped =>
      simp only [start, hlifecycle, Lifecycle.start?]
      rfl

/-- Only a relay that is new can be started. -/
theorem eq_of_start (h : machine.perform? .start = some after) :
    machine.lifecycle = .created ∧
      after = { machine with lifecycle := .running, phase := .waiting } := by
  simp only [perform?] at h
  split at h
  next =>
    by_cases hcreated : machine.lifecycle = .created
    · rw [start_eq_ok hcreated] at h
      cases h
      exact ⟨hcreated, rfl⟩
    · rw [start_eq_error hcreated] at h
      cases h
  next => cases h

theorem moveStep_of_reply {number : Nat} {answer : ClientAnswer}
    (h : machine.perform? (.reply number answer) = some after) :
    MoveStep machine (.reply number answer) after := by
  simp only [perform?] at h
  split at h
  next => cases h
  next hanswer =>
    cases h
    unfold reply
    split
    next hawaits => exact .replied hawaits (Bool.eq_false_iff.mpr hanswer)
    next => exact .arranged (Nat.le_refl machine.now)

theorem moveStep_of_grant {number subscription : Nat}
    (h : machine.perform? (.grant number subscription) = some after) :
    MoveStep machine (.grant number subscription) after := by
  simp only [perform?] at h
  split at h
  next hgrant =>
    cases h
    unfold reply
    split
    next hawaits =>
      obtain ⟨hmade, hnew⟩ := Bool.and_eq_true_iff.mp hgrant
      exact .granted hawaits (by simpa using hnew) (of_decide_eq_true hmade)
    next => exact .arranged (Nat.le_refl machine.now)
  next => cases h

theorem moveStep_push (machine : Machine) (number : Nat) (log : RawLog) :
    MoveStep machine (.push number log) (machine.push number log).2 := by
  have hsame : MoveStep machine (.push number log) machine :=
    .arranged (Nat.le_refl machine.now)
  cases hnumber : machine.subscriptions[number]? with
  | none => simpa only [push, hnumber] using hsame
  | some subscription =>
      rcases subscription.push_eq log with ⟨htakes, hpush⟩ | ⟨result, hresult, hpush⟩
      · simp only [push, hnumber, hpush]
        exact .accepted hnumber htakes
      · cases result with
        | taken => exact absurd rfl hresult
        | full | closed | missing => simpa only [push, hnumber, hpush] using hsame

theorem moveStep_fail (machine : Machine) (number : Nat) (error : ClientError) :
    MoveStep machine (.fail number error) (machine.fail number error).2 := by
  unfold fail
  cases hnumber : machine.subscriptions[number]? with
  | none => exact .arranged (Nat.le_refl machine.now)
  | some subscription =>
      have hfail : subscription.Shut (subscription.fail error).2 ∧
          (subscription.fail error).2.unsubscribed = subscription.unsubscribed := by
        unfold ClientSubscription.fail
        split
        next => exact ⟨.refl subscription, rfl⟩
        next =>
          split
          next => exact ⟨.refl subscription, rfl⟩
          next =>
            split
            next => exact ⟨.refl subscription, rfl⟩
            next => exact ⟨⟨rfl, id⟩, rfl⟩
      refine .shut (Subscriptions.shut_set hnumber hfail.1)
        (Subscriptions.marks_set hnumber hfail.2) fun hattended => ?_
      exact hattended.set ((hattended _ (List.mem_of_getElem? hnumber)).fail error) number

/-- A move does nothing but what is listed. -/
theorem moveStep_of_perform? (h : machine.perform? move = some after) :
    MoveStep machine move after := by
  cases move with
  | step task =>
      cases task with
      | control => exact .controlled h
      | stage id =>
          obtain ⟨⟨pipeline, subscriptions⟩, hstep, heq⟩ := Option.bind_eq_some_iff.mp h
          cases heq
          exact .staged hstep
      | caller id =>
          obtain ⟨caller, hcaller, hstep⟩ := callerStep_of_stepCaller? h
          exact .advanced hcaller hstep
  | start =>
      obtain ⟨hcreated, rfl⟩ := eq_of_start h
      exact .started hcreated
  | call request =>
      simp only [perform?] at h
      split at h
      next hheld =>
        cases h
        exact .called hheld
      next => cases h
  | release =>
      cases h
      exact .released
  | wait time =>
      cases h
      exact .arranged (Nat.le_max_left machine.now time)
  | dependentReady =>
      cases h
      exact .arranged (Nat.le_refl machine.now)
  | reply number answer => exact moveStep_of_reply h
  | openSubscription room =>
      cases h
      exact .opened room
  | grant number subscription => exact moveStep_of_grant h
  | push number log =>
      cases h
      exact moveStep_push machine number log
  | fail number error =>
      cases h
      exact moveStep_fail machine number error
  | endLogs number =>
      cases h
      exact .shut (Subscriptions.shut_change ClientSubscription.shut_endLogs number _)
        (Subscriptions.marks_change (f := ClientSubscription.endLogs) (fun _ => rfl) number _)
        fun hattended => hattended.change fun _ _ hsubscription => hsubscription.endLogs
  | endFailures number =>
      cases h
      exact .shut (Subscriptions.shut_change ClientSubscription.shut_endFailures number _)
        (Subscriptions.marks_change (f := ClientSubscription.endFailures) (fun _ => rfl) number _)
        fun hattended => hattended.change fun _ _ hsubscription => hsubscription.endFailures
  | addDependents count =>
      obtain ⟨dependents, -, heq⟩ := Option.bind_eq_some_iff.mp h
      cases heq
      exact .arranged (Nat.le_refl machine.now)

end Machine

end LogRelay
