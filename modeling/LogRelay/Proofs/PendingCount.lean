import LogRelay.Proofs.Operations

/-!
# The pending count

The control task looks at the number of missing reports only while it waits for other services.  In
every other phase its step is the same with any other number (`stepControl?_withDependents`): each
operation that the step is made of carries the number along and does not read it.
-/

namespace LogRelay

namespace Machine

/-- The relay with another number of missing reports. -/
def withDependents (machine : Machine) (dependents : Dependents) : Machine :=
  { machine with dependents }

variable (machine : Machine) (dependents : Dependents)

@[simp] theorem parameters_withDependents :
    (machine.withDependents dependents).parameters = machine.parameters := rfl

@[simp] theorem breaksOn_withDependents :
    (machine.withDependents dependents).breaksOn = machine.breaksOn := rfl

@[simp] theorem now_withDependents :
    (machine.withDependents dependents).now = machine.now := rfl

@[simp] theorem signalled_withDependents :
    (machine.withDependents dependents).signalled = machine.signalled := rfl

@[simp] theorem connected_withDependents :
    (machine.withDependents dependents).connected = machine.connected := rfl

@[simp] theorem mailbox_withDependents :
    (machine.withDependents dependents).mailbox = machine.mailbox := rfl

@[simp] theorem phase_withDependents :
    (machine.withDependents dependents).phase = machine.phase := rfl

@[simp] theorem registry_withDependents :
    (machine.withDependents dependents).registry = machine.registry := rfl

@[simp] theorem current_withDependents :
    (machine.withDependents dependents).current = machine.current := rfl

@[simp] theorem pipeline_withDependents :
    (machine.withDependents dependents).pipeline = machine.pipeline := rfl

@[simp] theorem subscriptions_withDependents :
    (machine.withDependents dependents).subscriptions = machine.subscriptions := rfl

@[simp] theorem answer_withDependents :
    (machine.withDependents dependents).answer = machine.answer := rfl

@[simp] theorem emit_withDependents (effect : Effect) :
    (machine.withDependents dependents).emit effect =
      (machine.emit effect).withDependents dependents := rfl

@[simp] theorem changeSubscription_withDependents
    (f : ClientSubscription → ClientSubscription) (number : Nat) :
    (machine.withDependents dependents).changeSubscription f number =
      (machine.changeSubscription f number).withDependents dependents := rfl

@[simp] theorem appendStage_withDependents (source : LogSource) :
    (machine.withDependents dependents).appendStage source =
      (machine.appendStage source).withDependents dependents := rfl

/-! ## Notifications and subscriptions -/

@[simp] theorem notifyConnected_withDependents :
    (machine.withDependents dependents).notifyConnected =
      machine.notifyConnected.withDependents dependents := by
  rw [notifyConnected_eq, notifyConnected_eq]
  rfl

@[simp] theorem notifyDisconnected_withDependents :
    (machine.withDependents dependents).notifyDisconnected =
      machine.notifyDisconnected.withDependents dependents := by
  rw [notifyDisconnected_eq, notifyDisconnected_eq]
  rfl

@[simp] theorem unsubscribe_withDependents (number : Nat) :
    (machine.withDependents dependents).unsubscribe number =
      (machine.unsubscribe number).withDependents dependents := by
  simp only [unsubscribe, subscriptions_withDependents]
  cases machine.subscriptions[number]? with
  | none => rfl
  | some subscription =>
      dsimp only
      split <;> rfl

@[simp] theorem discard_withDependents (number? : Option Nat) :
    (machine.withDependents dependents).discard number? =
      (machine.discard number?).withDependents dependents := by
  cases number? <;> simp [discard]

@[simp] theorem discardUnused_withDependents (fresh : Option Nat) :
    (machine.withDependents dependents).discardUnused fresh =
      (machine.discardUnused fresh).withDependents dependents := by
  cases fresh <;> simp [discardUnused]

/-! ## Ends -/

@[simp] theorem closeMailbox_withDependents :
    (machine.withDependents dependents).closeMailbox =
      machine.closeMailbox.withDependents dependents := by
  have hfold : ∀ (requests : List (CallerId × Command)) (start : Machine),
      requests.foldl (fun machine request => machine.answerCaller none request.1)
          (start.withDependents dependents) =
        (requests.foldl (fun machine request => machine.answerCaller none request.1)
          start).withDependents dependents := by
    intro requests
    induction requests with
    | nil => exact fun _ => rfl
    | cons request rest ih => exact fun start => ih (start.answerCaller none request.1)
  exact hfold machine.mailbox.requests { machine with mailbox := machine.mailbox.close }

@[simp] theorem crash_withDependents (fresh : Option Nat) :
    (machine.withDependents dependents).crash fresh =
      (machine.crash fresh).withDependents dependents := by
  simp only [crash, discardUnused_withDependents, current_withDependents, discard_withDependents,
    pipeline_withDependents, subscriptions_withDependents]
  generalize (machine.discardUnused fresh).discard machine.current = rest
  obtain ⟨pipeline, subscriptions⟩ := rest.pipeline.abort rest.subscriptions
  exact closeMailbox_withDependents { rest with pipeline, subscriptions, phase := .crashed }
    dependents

@[simp] theorem leave_withDependents (fresh : Option Nat) :
    (machine.withDependents dependents).leave fresh =
      (machine.leave fresh).withDependents dependents := by
  simp only [leave, discardUnused_withDependents, notifyDisconnected_withDependents,
    connected_withDependents]
  split
  · rw [discard_withDependents]
    rfl
  · rw [discard_withDependents]
    rfl

/-! ## Passes -/

@[simp] theorem adopt_withDependents (fresh : Option Nat) (logs : List RawLog) :
    (machine.withDependents dependents).adopt fresh logs =
      (machine.adopt fresh logs).withDependents dependents := by
  simp only [adopt, appendStage_withDependents, current_withDependents, discard_withDependents]
  generalize ((machine.appendStage (.batch logs)).appendStage (sourceOf fresh)).discard _ = rest
  exact notifyConnected_withDependents { rest with current := fresh } dependents

@[simp] theorem completePass_withDependents (fresh : Option Nat) (logs : List RawLog) :
    (machine.withDependents dependents).completePass fresh logs =
      (machine.completePass fresh logs).withDependents dependents := by
  simp only [completePass, emit_withDependents, parameters_withDependents, adopt_withDependents,
    crash_withDependents]
  split
  · rfl
  · split <;> rfl

@[simp] theorem beginPass_withDependents :
    (machine.withDependents dependents).beginPass =
      machine.beginPass.withDependents dependents := by
  simp only [beginPass, emit_withDependents, registry_withDependents, completePass_withDependents]
  split <;> rfl

/-! ## Attempts -/

/-- What happens at a certain time happens at the same time with another number. -/
theorem dueAt_withDependents {condition : Prop} [Decidable condition] {first second : Machine}
    (h : first = second.withDependents dependents) :
    (if condition then some first else none) =
      (if condition then some second else none).map (·.withDependents dependents) := by
  by_cases hdue : condition
  · simp only [hdue, if_true, h, Option.map_some]
  · simp only [hdue, if_false, Option.map_none]

theorem stepSubscribing?_withDependents (addresses : List Address) (failures : Nat)
    (attempt : Attempt) :
    (machine.withDependents dependents).stepSubscribing? addresses failures attempt =
      (machine.stepSubscribing? addresses failures attempt).map
        (·.withDependents dependents) := by
  cases attempt with
  | due => rfl
  | resting wakeUp =>
      simp only [stepSubscribing?, now_withDependents]
      exact dueAt_withDependents dependents rfl
  | asking request number deadline =>
      simp only [stepSubscribing?, now_withDependents, answer_withDependents]
      cases machine.answer with
      | none => exact dueAt_withDependents dependents rfl
      | some answer => cases answer <;> rfl

theorem stepBackfilling?_withDependents (fresh : Option Nat) (addresses : List Address)
    (failures : Nat) (attempt : Attempt) :
    (machine.withDependents dependents).stepBackfilling? fresh addresses failures attempt =
      (machine.stepBackfilling? fresh addresses failures attempt).map
        (·.withDependents dependents) := by
  cases attempt with
  | due => rfl
  | resting wakeUp =>
      simp only [stepBackfilling?, now_withDependents]
      exact dueAt_withDependents dependents rfl
  | asking request number deadline =>
      simp only [stepBackfilling?, now_withDependents, answer_withDependents]
      cases machine.answer with
      | none => exact dueAt_withDependents dependents rfl
      | some answer =>
          simp only [emit_withDependents, parameters_withDependents, completePass_withDependents]
          split
          · rfl
          · rfl
          · rfl

/-! ## Requests and logs -/

theorem handle?_withDependents (caller : CallerId) (command : Command) :
    (machine.withDependents dependents).handle? caller command =
      (machine.handle? caller command).map fun (changed, after) =>
        (changed, after.withDependents dependents) := by
  cases command with
  | register address listener =>
      simp only [handle?, emit_withDependents, registry_withDependents]
      cases (machine.emit _).registry.add? address listener <;> rfl
  | unregister address listener => rfl

theorem stepMailbox?_withDependents {next : Bool → Machine → Machine}
    (hnext : ∀ changed (after : Machine),
      next changed (after.withDependents dependents) =
        (next changed after).withDependents dependents) :
    (machine.withDependents dependents).stepMailbox? next =
      (machine.stepMailbox? next).map (·.withDependents dependents) := by
  unfold stepMailbox?
  rw [mailbox_withDependents]
  cases machine.mailbox.take? with
  | none => rfl
  | some taken =>
      obtain ⟨⟨caller, command⟩, mailbox⟩ := taken
      have htaken : { machine.withDependents dependents with mailbox } =
          { machine with mailbox }.withDependents dependents := rfl
      simp only [Option.bind_eq_bind, Option.bind_some, htaken, handle?_withDependents]
      cases { machine with mailbox }.handle? caller command with
      | none =>
          generalize hgone : { machine with mailbox }.emit (.handled caller command) = gone
          have hanswered : (gone.withDependents dependents).answerCaller none caller =
              (gone.answerCaller none caller).withDependents dependents := rfl
          simp only [Option.map_none, Option.map_some, emit_withDependents, hgone, hanswered,
            crash_withDependents]
      | some handled => simp only [Option.map_some, hnext]

theorem deliverTo_withDependents (log : RawLog) (listeners : List ListenerId) :
    deliverTo log listeners (machine.withDependents dependents) =
      (deliverTo log listeners machine).withDependents dependents := by
  induction listeners generalizing machine with
  | nil => rfl
  | cons listener rest ih =>
      simp only [deliverTo, breaksOn_withDependents, crash_withDependents, emit_withDependents, ih]
      split <;> rfl

@[simp] theorem dispatch_withDependents (log : RawLog) :
    (machine.withDependents dependents).dispatch log =
      (machine.dispatch log).withDependents dependents := by
  simp only [dispatch, registry_withDependents, deliverTo_withDependents]
  split <;> rfl

theorem failure?_withDependents :
    (machine.withDependents dependents).failure? =
      machine.failure?.map fun (error, after) => (error, after.withDependents dependents) := by
  simp only [failure?, current_withDependents, subscriptions_withDependents]
  cases machine.current with
  | none => rfl
  | some number =>
      cases hfound : machine.subscriptions[number]? with
      | none => simp [hfound]
      | some subscription =>
          cases hfailure : subscription.failure? with
          | none => simp [hfound, hfailure]
          | some failure =>
              simp [hfound, hfailure]
              rfl

theorem stepLogs?_withDependents (nextTick : Nat) (stale : Bool) :
    (machine.withDependents dependents).stepLogs? nextTick stale =
      (machine.stepLogs? nextTick stale).map (·.withDependents dependents) := by
  simp only [stepLogs?, pipeline_withDependents]
  obtain ⟨received, pipeline⟩ := machine.pipeline.receive
  cases received with
  | log log =>
      have htook := dispatch_withDependents ({ machine with pipeline }.emit (.took log)) dependents
      exact congrArg some (htook log)
  | ended => rfl
  | nothing => rfl

/-! ## Steps -/

theorem stepProcessing?_withDependents (nextTick : Nat) (stale logsOpen : Bool) :
    (machine.withDependents dependents).stepProcessing? nextTick stale logsOpen =
      (machine.stepProcessing? nextTick stale logsOpen).map (·.withDependents dependents) := by
  unfold stepProcessing?
  rw [failure?_withDependents]
  cases machine.failure? with
  | some failure =>
      simp only [Option.map_some, emit_withDependents, notifyDisconnected_withDependents,
        beginPass_withDependents]
  | none =>
      by_cases htick : nextTick ≤ machine.now
      · cases stale with
        | true => simp [htick]
        | false =>
            simp [htick]
            rfl
      · simp only [Option.map_none, now_withDependents, htick, if_false]
        rw [stepMailbox?_withDependents machine dependents fun _ _ => rfl, Option.map_or]
        cases logsOpen
        · rfl
        · rw [if_pos rfl, if_pos rfl, stepLogs?_withDependents]

/-- Unless the control task waits for other services, its step is the same with any other number of
missing reports. -/
theorem stepControl?_withDependents (h : machine.phase ≠ .waiting) :
    (machine.withDependents dependents).stepControl? =
      machine.stepControl?.map (·.withDependents dependents) := by
  unfold stepControl?
  rw [phase_withDependents, signalled_withDependents]
  cases hphase : machine.phase with
  | waiting => exact absurd hphase h
  | idle | ended | crashed => rfl
  | subscribing addresses failures attempt =>
      cases machine.signalled
      · exact stepSubscribing?_withDependents machine dependents addresses failures attempt
      · exact congrArg some (leave_withDependents machine dependents none)
  | backfilling fresh addresses failures attempt =>
      cases machine.signalled
      · exact stepBackfilling?_withDependents machine dependents fresh addresses failures attempt
      · exact congrArg some (leave_withDependents machine dependents fresh)
  | processing nextTick stale logsOpen =>
      cases machine.signalled
      · exact stepProcessing?_withDependents machine dependents nextTick stale logsOpen
      · exact congrArg some (leave_withDependents machine dependents none)
  | joining =>
      rw [pipeline_withDependents, closeMailbox_withDependents]
      cases machine.pipeline.allFinished <;> rfl

end Machine

end LogRelay
