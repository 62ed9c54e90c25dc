import LogRelay.Proofs.Operations

/-!
# Subscriptions that the relay listens to

As long as a subscription is not torn down, the relay accepts its logs, unless the client has
given up sending them.  The client therefore finds nobody listening only where it was told
so before.  This holds of what the control task and the stages do, until one of them is
interrupted: by the shutdown signal, or because the control task breaks down.
-/

namespace LogRelay

/-- A subscription is closed only by tearing it down, and until then the relay accepts its logs if
there can be any. -/
structure ClientSubscription.IsAttended (subscription : ClientSubscription) : Prop where
  closed : subscription.closed = true → subscription.unsubscribed = true
  accepts : subscription.acceptsLogs = true ∨ subscription.unsubscribed = true ∨
    subscription.sendsLogs = false

namespace ClientSubscription

variable {subscription later : ClientSubscription}

theorem isAttended_close (subscription : ClientSubscription) : subscription.close.IsAttended :=
  ⟨fun _ => rfl, .inr (.inl rfl)⟩

theorem IsAttended.endLogs (h : subscription.IsAttended) : subscription.endLogs.IsAttended :=
  ⟨h.closed, .inr (.inr rfl)⟩

theorem IsAttended.endFailures (h : subscription.IsAttended) :
    subscription.endFailures.IsAttended :=
  ⟨h.closed, h.accepts⟩

theorem IsAttended.dropFailures (h : subscription.IsAttended) :
    subscription.dropFailures.IsAttended :=
  ⟨h.closed, h.accepts⟩

theorem IsAttended.fail (h : subscription.IsAttended) (error : ClientError) :
    (subscription.fail error).2.IsAttended := by
  rcases subscription.fail_eq error with heq | ⟨result, -, heq⟩
  · rw [heq]
    exact ⟨h.closed, h.accepts⟩
  · rw [heq]
    exact h

theorem IsAttended.of_failure? {error : ClientError} (h : subscription.IsAttended)
    (hfailure : subscription.failure? = some (error, later)) : later.IsAttended := by
  rcases failure?_eq_some hfailure with ⟨rest, -, rfl⟩ | ⟨-, rfl⟩
  · exact ⟨h.closed, h.accepts⟩
  · exact h

theorem IsAttended.of_receive_log {log : RawLog} (h : subscription.IsAttended)
    (hreceive : subscription.receive = (.log log, later)) : later.IsAttended := by
  obtain ⟨rest, -, rfl⟩ := receive_eq_log hreceive
  exact ⟨h.closed, h.accepts⟩

/-- The reader stops only if there will be no more logs or the subscription was torn down, and
then it may let go of it. -/
theorem IsAttended.of_receive_ended (h : subscription.IsAttended)
    (hreceive : subscription.receive = (.ended, later)) :
    later.IsAttended ∧ later.dropLogs.IsAttended := by
  unfold receive at hreceive
  split at hreceive
  next => cases hreceive
  next =>
    split at hreceive
    next hsends =>
      cases hreceive
      have hnone : subscription.sendsLogs = false := by simpa using hsends
      exact ⟨⟨h.closed, h.accepts⟩, ⟨h.closed, .inr (.inr hnone)⟩⟩
    next =>
      split at hreceive
      next hclosed =>
        cases hreceive
        have hdown := h.closed hclosed
        exact ⟨⟨h.closed, .inr (.inl hdown)⟩, ⟨h.closed, .inr (.inl hdown)⟩⟩
      next => cases hreceive

/-- The client never finds that nobody accepts its logs, unless the subscription was torn down. -/
theorem IsAttended.push_ne_closed (h : subscription.IsAttended)
    (hopen : subscription.unsubscribed = false) (log : RawLog) :
    (subscription.push log).1 ≠ .closed := by
  unfold push
  split
  next => simp
  next hsends =>
    have haccepts : subscription.acceptsLogs = true := by
      rcases h.accepts with haccepts | hdown | hnone
      · exact haccepts
      · rw [hopen] at hdown
        cases hdown
      · rw [hnone] at hsends
        exact absurd rfl hsends
    rw [haccepts]
    split
    next hnot => cases hnot
    next =>
      split
      next => simp
      next => simp

end ClientSubscription

namespace Subscriptions

/-- All subscriptions are attended. -/
def Attended (subscriptions : Subscriptions) : Prop :=
  ∀ subscription ∈ subscriptions, subscription.IsAttended

variable {subscriptions after : Subscriptions}

theorem Attended.change {f : ClientSubscription → ClientSubscription} {number : Nat}
    (h : subscriptions.Attended)
    (hf : ∀ subscription : ClientSubscription, subscriptions[number]? = some subscription →
      subscription.IsAttended → (f subscription).IsAttended) :
    (subscriptions.change f number).Attended := by
  intro found hfound
  obtain ⟨other, hother⟩ := List.mem_iff_getElem?.mp hfound
  rw [Subscriptions.change, List.getElem?_modify] at hother
  obtain ⟨subscription, hsubscription, rfl⟩ := Option.map_eq_some_iff.mp hother
  have hattended := h subscription (List.mem_of_getElem? hsubscription)
  split
  next heq =>
    subst heq
    exact hf subscription hsubscription hattended
  next => exact hattended

theorem Attended.set {later : ClientSubscription} (h : subscriptions.Attended)
    (hlater : later.IsAttended) (number : Nat) :
    Attended (subscriptions.set number later) := by
  intro found hfound
  rcases List.mem_or_eq_of_mem_set hfound with hold | rfl
  · exact h found hold
  · exact hlater

/-- The relay listens to a new subscription. -/
theorem Attended.concat (h : subscriptions.Attended) (room : ChannelRoom) :
    Attended (subscriptions ++ [({ room } : ClientSubscription)]) := by
  refine List.forall_mem_append.mpr ⟨h, List.forall_mem_singleton.mpr ⟨fun hclosed => ?_, .inl rfl⟩⟩
  cases hclosed

end Subscriptions

/-! ## Stages -/

theorem LogSource.attended_of_receive_log {log : RawLog} {source rest : LogSource}
    {subscriptions after : Subscriptions} (h : subscriptions.Attended)
    (hreceive : source.receive subscriptions = (.log log, rest, after)) : after.Attended := by
  cases source with
  | batch logs =>
      cases logs with
      | nil => cases hreceive
      | cons first logs =>
          cases hreceive
          exact h
  | live number =>
      cases hnumber : subscriptions[number]? with
      | none => simp [receive, hnumber] at hreceive
      | some subscription =>
          rcases hfound : subscription.receive with ⟨arrival, later⟩
          simp only [receive, hnumber, hfound] at hreceive
          cases hreceive
          exact h.set ((h subscription (List.mem_of_getElem? hnumber)).of_receive_log hfound) number

theorem LogSource.attended_of_receive_ended {source rest : LogSource}
    {subscriptions after : Subscriptions} (h : subscriptions.Attended)
    (hreceive : source.receive subscriptions = (.ended, rest, after)) :
    (rest.drop after).Attended := by
  cases source with
  | batch logs =>
      cases logs with
      | nil =>
          cases hreceive
          exact h
      | cons first logs => cases hreceive
  | live number =>
      cases hnumber : subscriptions[number]? with
      | none =>
          simp only [receive, hnumber] at hreceive
          cases hreceive
          refine h.change (f := ClientSubscription.dropLogs) fun subscription hfound => ?_
          rw [hnumber] at hfound
          cases hfound
      | some subscription =>
          rcases hfound : subscription.receive with ⟨arrival, later⟩
          simp only [receive, hnumber, hfound] at hreceive
          cases hreceive
          have hlength : number < subscriptions.length := (List.getElem?_eq_some_iff.mp hnumber).1
          obtain ⟨hlater, hdropped⟩ :=
            (h subscription (List.mem_of_getElem? hnumber)).of_receive_ended hfound
          refine (h.set hlater number).change (f := ClientSubscription.dropLogs)
            fun found hfound _ => ?_
          rw [List.getElem?_set_self hlength] at hfound
          cases hfound
          exact hdropped

namespace Pipeline

variable {room : Nat} {stage : Stage} {pipeline before later : Pipeline}
  {subscriptions after : Subscriptions}

theorem attended_of_stepNewest? (h : subscriptions.Attended)
    (hstep : stepNewest? false room stage before subscriptions = some (later, after)) :
    after.Attended := by
  unfold stepNewest? at hstep
  split at hstep
  next => cases hstep
  next =>
    rw [if_neg Bool.false_ne_true] at hstep
    split at hstep
    next =>
      split at hstep
      next =>
        cases hstep
        exact h
      next => cases hstep
    next =>
      split at hstep
      next =>
        split at hstep
        next hreceive =>
          cases hstep
          exact LogSource.attended_of_receive_log h hreceive
        next hreceive =>
          cases hstep
          exact LogSource.attended_of_receive_ended h hreceive
        next => cases hstep
      next =>
        split at hstep
        next =>
          cases hstep
          exact h
        next =>
          cases hstep
          exact h
        next => cases hstep

theorem attended_of_step? {id : Nat} (h : subscriptions.Attended)
    (hstep : step? false room id subscriptions pipeline = some (later, after)) :
    after.Attended := by
  induction pipeline generalizing later with
  | nil => cases hstep
  | cons stage before ih =>
      rw [step?] at hstep
      split at hstep
      next => exact attended_of_stepNewest? h hstep
      next =>
        obtain ⟨⟨before', found⟩, hbefore, heq⟩ := Option.map_eq_some_iff.mp hstep
        cases heq
        exact ih hbefore

end Pipeline

/-! ## Operations of the control task -/

namespace Machine

variable {machine : Machine}

theorem attended_unsubscribe (h : machine.subscriptions.Attended) (number : Nat) :
    (machine.unsubscribe number).subscriptions.Attended := by
  unfold unsubscribe
  split
  next => exact h
  next =>
    split
    next => exact h
    next =>
      exact h.change (f := ClientSubscription.close) fun _ _ _ =>
        ClientSubscription.isAttended_close _

theorem attended_discard (h : machine.subscriptions.Attended) (number? : Option Nat) :
    (machine.discard number?).subscriptions.Attended := by
  cases number? with
  | none => exact h
  | some number =>
      exact (attended_unsubscribe h number).change (f := ClientSubscription.dropFailures)
        fun _ _ hattended => hattended.dropFailures

theorem attended_adopt (h : machine.subscriptions.Attended) (fresh : Option Nat)
    (logs : List RawLog) : (machine.adopt fresh logs).subscriptions.Attended := by
  have hjoined : ((machine.appendStage (.batch logs)).appendStage
      (sourceOf fresh)).subscriptions.Attended := h
  rw [adopt, notifyConnected_eq]
  exact attended_discard hjoined machine.current

/-- Completing a pass leaves all subscriptions attended, unless the control task breaks down. -/
theorem attended_completePass (h : machine.subscriptions.Attended) (fresh : Option Nat)
    (logs : List RawLog) (hrunning : (machine.completePass fresh logs).phase ≠ .crashed) :
    (machine.completePass fresh logs).subscriptions.Attended := by
  have hcrashed : ∀ (relay : Machine) (unused : Option Nat),
      (relay.crash unused).phase = .crashed := by
    intro relay unused
    obtain ⟨quiet, hdown⟩ := relay.breaksDown_crash unused
    exact hdown.phase
  have hgathered : (machine.emit (.gathered logs fresh)).subscriptions.Attended := h
  have hadopted := attended_adopt hgathered fresh logs
  simp only [completePass] at hrunning ⊢
  split at hrunning
  next => exact absurd (hcrashed ..) hrunning
  next hroom =>
    rw [if_neg hroom]
    split at hrunning
    next => exact absurd (hcrashed ..) hrunning
    next hdebounce =>
      rw [if_neg hdebounce]
      exact hadopted

theorem attended_beginPass (h : machine.subscriptions.Attended)
    (hrunning : machine.beginPass.phase ≠ .crashed) :
    machine.beginPass.subscriptions.Attended := by
  rw [beginPass_eq] at hrunning ⊢
  split
  next hnone =>
    rw [if_pos hnone] at hrunning
    have hbegan : (machine.record [.began []]).subscriptions.Attended := h
    exact attended_completePass hbegan none [] hrunning
  next => exact h

theorem attended_dispatch (h : machine.subscriptions.Attended) (log : RawLog)
    (hrunning : (machine.dispatch log).phase ≠ .crashed) :
    (machine.dispatch log).subscriptions.Attended := by
  rcases machine.dispatch_cases log with ⟨-, heq⟩ | ⟨_, _, _, quiet, -, -, hdown⟩
  · rw [heq]
    exact h
  · exact absurd hdown.phase hrunning

end Machine

end LogRelay
