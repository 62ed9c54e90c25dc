import LogRelay.Proofs.Leases

/-!
# When a subscription counts as lost

A relay asks again and again what is wrong with its subscription.  Meanwhile the client sends logs
and failures or gives up either, a reader takes the logs, and the relay may unsubscribe; all this in
any order (`Touch`).  A `Watch` keeps beside the relay what an onlooker has seen: the logs and
failures that were accepted, how many of them have come through, and whether the reader has found
the end of the logs before the relay had unsubscribed.  That this is all the relay goes by, is the
invariant `Watch.Agrees`.
-/

namespace LogRelay

namespace ClientSubscription

variable {subscription : ClientSubscription}

theorem receive_of_cons {log : RawLog} {rest : List RawLog}
    (hlogs : subscription.logs = log :: rest) :
    subscription.receive = (.log log, { subscription with logs := rest }) := by
  simp only [receive, hlogs]

/-- The client has given up sending. -/
theorem receive_of_over (hlogs : subscription.logs = []) (hsends : subscription.sendsLogs = false) :
    subscription.receive =
      (.ended, { subscription with ended := subscription.ended || !subscription.closed }) := by
  simp only [receive, hlogs, hsends, Bool.not_false, if_true]

/-- The relay has closed the subscription. -/
theorem receive_of_closed (hlogs : subscription.logs = [])
    (hsends : subscription.sendsLogs = true) (hclosed : subscription.closed = true) :
    subscription.receive = (.ended, subscription.dropLogs) := by
  simp only [receive, hlogs, hsends, hclosed, Bool.not_true, Bool.false_eq_true,
    if_false, if_true]

theorem receive_of_open (hlogs : subscription.logs = [])
    (hsends : subscription.sendsLogs = true) (hclosed : subscription.closed = false) :
    subscription.receive = (.nothing, subscription) := by
  simp only [receive, hlogs, hsends, hclosed, Bool.not_true, Bool.false_eq_true,
    if_false]

/-- The subscription is as the client has made it, apart from what is on its way. -/
structure IsNew (subscription : ClientSubscription) : Prop where
  closed : subscription.closed = false
  ended : subscription.ended = false
  unsubscribed : subscription.unsubscribed = false

end ClientSubscription

/-- What can happen to a subscription that a relay uses. -/
inductive Touch where
  /-- The client sends a log. -/
  | push (log : RawLog)
  /-- The client reports a failure. -/
  | fail (error : ClientError)
  /-- The client gives up sending logs. -/
  | endLogs
  /-- The client gives up reporting failures. -/
  | endFailures
  /-- The reader of the logs looks for one. -/
  | read
  /-- The relay asks what is wrong. -/
  | ask
  /-- The relay unsubscribes. -/
  | unsubscribe
  /-- The relay drops the subscription. -/
  | drop

/-- Whether the relay lets go of the subscription. -/
def Touch.letsGo : Touch → Bool
  | unsubscribe | drop => true
  | _ => false

/-- A relay, and what an onlooker has seen of one of its subscriptions. -/
structure Watch where
  machine : Machine
  /-- The logs that were accepted, in order. -/
  sent : List RawLog
  /-- The logs that the reader has got, in order. -/
  got : List RawLog
  /-- The failures that were accepted, in order. -/
  reported : List ClientError
  /-- How many of them the relay has heard of. -/
  heard : Nat
  /-- The client has given up sending logs. -/
  logsOver : Bool
  /-- The client has given up reporting failures. -/
  failuresOver : Bool
  /-- The relay has let go of the subscription. -/
  letGo : Bool
  /-- The reader has found the end of the logs before that. -/
  cutOff : Bool

namespace Watch

/-- What is wrong, as far as the onlooker can tell. -/
def verdict? (watch : Watch) : Option ClientError :=
  match watch.reported[watch.heard]? with
  | some error => some error
  | none =>
      if watch.failuresOver then some (.subscriptionDropped "error channel closed")
      else if watch.cutOff then some (.subscriptionDropped "log stream ended")
      else none

/-- The onlooker begins to watch. -/
def begin (machine : Machine) (subscription : ClientSubscription) : Watch where
  machine
  sent := subscription.logs
  got := []
  reported := subscription.failures
  heard := 0
  logsOver := !subscription.sendsLogs
  failuresOver := !subscription.sendsFailures
  letGo := false
  cutOff := false

/-- What the onlooker sees when something happens to the subscription with this number. -/
def step (number : Nat) (watch : Watch) : Touch → Watch
  | .push log =>
      let (result, machine) := watch.machine.push number log
      if result = .taken then { watch with machine, sent := watch.sent ++ [log] }
      else { watch with machine }
  | .fail error =>
      let (result, machine) := watch.machine.fail number error
      if result = .taken then { watch with machine, reported := watch.reported ++ [error] }
      else { watch with machine }
  | .endLogs =>
      { watch with
        machine := watch.machine.changeSubscription ClientSubscription.endLogs number
        logsOver := true }
  | .endFailures =>
      { watch with
        machine := watch.machine.changeSubscription ClientSubscription.endFailures number
        failuresOver := true }
  | .read =>
      match (LogSource.live number).receive watch.machine.subscriptions with
      | (.log log, _, subscriptions) =>
          { watch with
            machine := { watch.machine with subscriptions }
            got := watch.got ++ [log] }
      | (.ended, _, subscriptions) =>
          { watch with
            machine := { watch.machine with subscriptions }
            cutOff := watch.cutOff || !watch.letGo }
      | (.nothing, _, subscriptions) =>
          { watch with machine := { watch.machine with subscriptions } }
  | .ask =>
      match watch.machine.failure? with
      | some (_, machine) =>
          { watch with machine, heard := min (watch.heard + 1) watch.reported.length }
      | none => watch
  | .unsubscribe => { watch with machine := watch.machine.unsubscribe number, letGo := true }
  | .drop => { watch with machine := watch.machine.discard (some number), letGo := true }

/-! ## What the relay goes by -/

/-- The subscription is as the onlooker has seen it. -/
structure Matches (watch : Watch) (subscription : ClientSubscription) : Prop where
  failures : subscription.failures = watch.reported.drop watch.heard
  heard : watch.heard ≤ watch.reported.length
  sendsFailures : subscription.sendsFailures = !watch.failuresOver
  sendsLogs : subscription.sendsLogs = !watch.logsOver
  logs : watch.sent = watch.got ++ subscription.logs
  ended : subscription.ended = watch.cutOff
  closed : subscription.closed = watch.letGo
  unsubscribed : subscription.unsubscribed = watch.letGo
  cutOff : watch.cutOff = true → watch.logsOver = true ∧ subscription.logs = []

/-- The relay is as the onlooker has seen it; before, the subscription was torn down so often. -/
structure Agrees (number before : Nat) (watch : Watch) : Prop where
  current : watch.machine.current = some number
  subscription : ∃ subscription, watch.machine.subscriptions[number]? = some subscription ∧
    watch.Matches subscription
  tornDown : watch.machine.history.tornDown.count number = before + watch.letGo.toNat

variable {watch : Watch} {number before : Nat} {subscription : ClientSubscription}
  {touch : Touch} {touches : List Touch}

theorem agrees_begin {machine : Machine} (hcurrent : machine.current = some number)
    (hnumber : machine.subscriptions[number]? = some subscription) (hnew : subscription.IsNew) :
    (Watch.begin machine subscription).Agrees number (machine.history.tornDown.count number) := by
  refine ⟨hcurrent, ⟨subscription, hnumber, ?_⟩, rfl⟩
  exact ⟨rfl, Nat.zero_le _, (Bool.not_not _).symm, (Bool.not_not _).symm, rfl, hnew.ended,
    hnew.closed, hnew.unsubscribed, nofun⟩

/-! ## One subscription among all -/

theorem getElem?_set_self {subscriptions : Subscriptions} {later : ClientSubscription}
    (hnumber : subscriptions[number]? = some subscription) :
    (subscriptions.set number later)[number]? = some later := by
  have hlength : number < subscriptions.length := (List.getElem?_eq_some_iff.mp hnumber).1
  rw [List.getElem?_set, if_pos rfl, if_pos hlength]

theorem getElem?_change_self {subscriptions : Subscriptions}
    {f : ClientSubscription → ClientSubscription}
    (hnumber : subscriptions[number]? = some subscription) :
    (subscriptions.change f number)[number]? = some (f subscription) := by
  rw [Subscriptions.change, List.getElem?_modify, hnumber]
  simp

theorem receive_live {subscriptions : Subscriptions}
    (hnumber : subscriptions[number]? = some subscription) :
    (LogSource.live number).receive subscriptions =
      (subscription.receive.1, .live number,
        subscriptions.set number subscription.receive.2) := by
  simp only [LogSource.receive, hnumber]

theorem failure?_eq {machine : Machine} (hcurrent : machine.current = some number)
    (hnumber : machine.subscriptions[number]? = some subscription) :
    machine.failure? = subscription.failure?.map fun (error, later) =>
      (error, { machine with subscriptions := machine.subscriptions.set number later }) := by
  simp only [Machine.failure?, hcurrent, hnumber, Option.bind_eq_bind, Option.bind_some]
  cases subscription.failure? with
  | none | some => rfl

/-! ## One touch -/

/-- Nothing has changed but the subscription, and the onlooker knows how. -/
theorem Agrees.of_matches {later : ClientSubscription} {after : Watch}
    (h : watch.Agrees number before)
    (hmachine : after.machine.current = watch.machine.current ∧
      after.machine.history = watch.machine.history)
    (hnumber : after.machine.subscriptions[number]? = some later)
    (hletGo : after.letGo = watch.letGo) (hmatches : after.Matches later) :
    after.Agrees number before := by
  refine ⟨hmachine.1.trans h.current, ⟨later, hnumber, hmatches⟩, ?_⟩
  rw [hmachine.2, hletGo]
  exact h.tornDown

theorem Agrees.push (h : watch.Agrees number before) (log : RawLog) :
    (watch.step number (.push log)).Agrees number before := by
  obtain ⟨subscription, hnumber, hmatches⟩ := h.subscription
  rcases subscription.push_eq log with ⟨htakes, hpush⟩ | ⟨result, hresult, hpush⟩
  · simp only [step, Machine.push, hnumber, hpush, if_true]
    refine ⟨h.current, ⟨_, getElem?_set_self hnumber, ?_⟩, h.tornDown⟩
    refine { hmatches with logs := ?_, cutOff := fun hcutOff => ?_ }
    · change watch.sent ++ [log] = watch.got ++ (subscription.logs ++ [log])
      rw [hmatches.logs, List.append_assoc]
    · -- The client would have given up sending.
      have hsends := hmatches.sendsLogs
      rw [(hmatches.cutOff hcutOff).1] at hsends
      rw [ClientSubscription.takesLogs, hsends] at htakes
      cases htakes
  · have hsame : watch.step number (.push log) = watch := by
      cases result with
      | taken => exact absurd rfl hresult
      | full | closed | missing => simp [step, Machine.push, hnumber, hpush]
    rw [hsame]
    exact h

theorem Agrees.fail (h : watch.Agrees number before) (error : ClientError) :
    (watch.step number (.fail error)).Agrees number before := by
  obtain ⟨subscription, hnumber, hmatches⟩ := h.subscription
  rcases subscription.fail_eq error with hfail | ⟨result, hresult, hfail⟩
  · simp only [step, Machine.fail, hnumber, hfail, if_true]
    refine h.of_matches ⟨rfl, rfl⟩ (getElem?_set_self hnumber) rfl ?_
    refine { hmatches with failures := ?_, heard := ?_ }
    · change subscription.failures ++ [error] = (watch.reported ++ [error]).drop watch.heard
      rw [List.drop_append_of_le_length hmatches.heard, hmatches.failures]
    · change watch.heard ≤ (watch.reported ++ [error]).length
      rw [List.length_append]
      exact Nat.le_add_right_of_le hmatches.heard
  · simp only [step, Machine.fail, hnumber, hfail, if_neg hresult]
    exact h.of_matches ⟨rfl, rfl⟩ (getElem?_set_self hnumber) rfl { hmatches with }

theorem Agrees.endLogs (h : watch.Agrees number before) :
    (watch.step number .endLogs).Agrees number before := by
  obtain ⟨subscription, hnumber, hmatches⟩ := h.subscription
  refine h.of_matches ⟨rfl, rfl⟩ (getElem?_change_self hnumber) rfl ?_
  exact { hmatches with
    sendsLogs := rfl
    cutOff := fun hcutOff => ⟨rfl, (hmatches.cutOff hcutOff).2⟩ }

theorem Agrees.endFailures (h : watch.Agrees number before) :
    (watch.step number .endFailures).Agrees number before := by
  obtain ⟨subscription, hnumber, hmatches⟩ := h.subscription
  refine h.of_matches ⟨rfl, rfl⟩ (getElem?_change_self hnumber) rfl ?_
  exact { hmatches with sendsFailures := rfl }

/-- The reader finds the end only where no log is left; it counts only if the relay has not let go
of the subscription, and then the client has given up sending. -/
theorem Agrees.read (h : watch.Agrees number before) :
    (watch.step number .read).Agrees number before := by
  obtain ⟨subscription, hnumber, hmatches⟩ := h.subscription
  cases hlogs : subscription.logs with
  | cons log rest =>
      simp only [step, receive_live hnumber, ClientSubscription.receive_of_cons hlogs]
      refine h.of_matches ⟨rfl, rfl⟩ (getElem?_set_self hnumber) rfl ?_
      refine { hmatches with logs := ?_, cutOff := fun hcutOff => ?_ }
      · change watch.sent = watch.got ++ [log] ++ rest
        rw [hmatches.logs, hlogs, List.append_assoc, List.singleton_append]
      · have hnone := (hmatches.cutOff hcutOff).2
        rw [hlogs] at hnone
        cases hnone
  | nil =>
      have hover := hmatches.sendsLogs
      have hclosed := hmatches.closed
      cases hsends : subscription.sendsLogs with
      | false =>
          simp only [step, receive_live hnumber, ClientSubscription.receive_of_over hlogs hsends]
          refine h.of_matches ⟨rfl, rfl⟩ (getElem?_set_self hnumber) rfl ?_
          have hlast : watch.logsOver = true := by simpa using hover.symm.trans hsends
          refine { hmatches with ended := ?_, cutOff := fun _ => ⟨hlast, hlogs⟩ }
          change (subscription.ended || !subscription.closed) = (watch.cutOff || !watch.letGo)
          rw [hmatches.ended, hclosed]
      | true =>
          cases hletGo : watch.letGo with
          | true =>
              simp only [step, receive_live hnumber,
                ClientSubscription.receive_of_closed hlogs hsends (hclosed.trans hletGo), hletGo,
                Bool.not_true, Bool.or_false]
              exact h.of_matches ⟨rfl, rfl⟩ (getElem?_set_self hnumber) hletGo.symm
                { hmatches with closed := hclosed.trans hletGo
                                unsubscribed := hmatches.unsubscribed.trans hletGo }
          | false =>
              simp only [step, receive_live hnumber,
                ClientSubscription.receive_of_open hlogs hsends (hclosed.trans hletGo)]
              exact h.of_matches ⟨rfl, rfl⟩ (getElem?_set_self hnumber) rfl { hmatches with }

/-- What is wrong is what the onlooker would say. -/
theorem Agrees.failure? (h : watch.Agrees number before) :
    watch.machine.failure?.map Prod.fst = watch.verdict? := by
  obtain ⟨subscription, hnumber, hmatches⟩ := h.subscription
  rw [failure?_eq h.current hnumber, Option.map_map]
  unfold ClientSubscription.failure? verdict?
  have hfirst : watch.reported[watch.heard]? = subscription.failures[0]? := by
    rw [hmatches.failures, List.getElem?_drop, Nat.add_zero]
  rw [hfirst, hmatches.sendsFailures, hmatches.ended, Bool.not_not]
  cases subscription.failures with
  | cons error rest => rfl
  | nil =>
      cases watch.failuresOver with
      | true => rfl
      | false =>
          cases watch.cutOff with
          | true | false => rfl

theorem Agrees.ask (h : watch.Agrees number before) :
    (watch.step number .ask).Agrees number before := by
  obtain ⟨subscription, hnumber, hmatches⟩ := h.subscription
  have hfailure := failure?_eq h.current hnumber
  cases hcase : subscription.failure? with
  | none =>
      rw [hcase] at hfailure
      simp only [step, hfailure, Option.map_none]
      exact h
  | some found =>
      obtain ⟨error, later⟩ := found
      rw [hcase] at hfailure
      simp only [step, hfailure, Option.map_some]
      refine h.of_matches ⟨rfl, rfl⟩ (getElem?_set_self hnumber) rfl ?_
      have hlength : subscription.failures.length = watch.reported.length - watch.heard := by
        rw [hmatches.failures, List.length_drop]
      rcases ClientSubscription.failure?_eq_some hcase with
        ⟨rest, hfailures, rfl⟩ | ⟨hfailures, rfl⟩
      · rw [hfailures, List.length_cons] at hlength
        refine { hmatches with failures := ?_, heard := Nat.min_le_right .. }
        change rest = watch.reported.drop (min (watch.heard + 1) watch.reported.length)
        rw [Nat.min_eq_left (by omega), ← List.drop_drop, ← hmatches.failures, hfailures]
        rfl
      · -- Nothing is used up, and everything was heard of.
        rw [hfailures, List.length_nil] at hlength
        have hheard := hmatches.heard
        have hall : min (watch.heard + 1) watch.reported.length = watch.heard := by omega
        refine { hmatches with failures := ?_, heard := Nat.min_le_right .. }
        change later.failures = watch.reported.drop (min (watch.heard + 1) watch.reported.length)
        rw [hall, hmatches.failures]

theorem Agrees.unsubscribe (h : watch.Agrees number before) :
    (watch.step number .unsubscribe).Agrees number before := by
  obtain ⟨subscription, hnumber, hmatches⟩ := h.subscription
  have hmark := hmatches.unsubscribed
  simp only [step, Machine.unsubscribe, hnumber]
  split
  next hdone =>
    have hletGo : watch.letGo = true := hmark.symm.trans hdone
    refine h.of_matches ⟨rfl, rfl⟩ hnumber hletGo.symm ?_
    exact { hmatches with
      closed := hmatches.closed.trans hletGo
      unsubscribed := hmark.trans hletGo }
  next hnot =>
    have hletGo : watch.letGo = false := hmark.symm.trans (Bool.eq_false_iff.mpr hnot)
    refine ⟨h.current, ⟨_, getElem?_change_self hnumber, ?_⟩, ?_⟩
    · exact { hmatches with closed := rfl, unsubscribed := rfl }
    · have htornDown := h.tornDown
      rw [hletGo] at htornDown
      change (number :: watch.machine.history.tornDown).count number = before + 1
      rw [List.count_cons_self, htornDown]
      rfl

theorem Agrees.drop (h : watch.Agrees number before) :
    (watch.step number .drop).Agrees number before := by
  obtain ⟨hcurrent, ⟨subscription, hnumber, hmatches⟩, htornDown⟩ := h.unsubscribe
  exact ⟨hcurrent, ⟨_, getElem?_change_self hnumber, { hmatches with }⟩, htornDown⟩

theorem Agrees.step (h : watch.Agrees number before) (touch : Touch) :
    (watch.step number touch).Agrees number before := by
  cases touch with
  | push log => exact h.push log
  | fail error => exact h.fail error
  | endLogs => exact h.endLogs
  | endFailures => exact h.endFailures
  | read => exact h.read
  | ask => exact h.ask
  | unsubscribe => exact h.unsubscribe
  | drop => exact h.drop

theorem Agrees.foldl_step (h : watch.Agrees number before) (touches : List Touch) :
    (touches.foldl (Watch.step number) watch).Agrees number before := by
  induction touches generalizing watch with
  | nil => exact h
  | cons touch touches ih => exact ih (h.step touch)

/-! ## What stays as it is -/

/-- What a touch leaves as it was, apart from the subscription. -/
structure Follows (touch : Touch) (watch after : Watch) : Prop where
  current : after.machine.current = watch.machine.current
  letGo : after.letGo = (watch.letGo || touch.letsGo)
  /-- Only before the relay lets go of the subscription, the end of its logs counts. -/
  cutOff : watch.letGo = true → after.cutOff = watch.cutOff

theorem follows_step (watch : Watch) (number : Nat) (touch : Touch) :
    Follows touch watch (watch.step number touch) := by
  have hnot : watch.letGo = (watch.letGo || false) := (Bool.or_false _).symm
  cases touch with
  | push log =>
      have hcurrent : (watch.machine.push number log).2.current = watch.machine.current := by
        unfold Machine.push
        split
        next => rfl
        next =>
          split
          all_goals rfl
      unfold step
      dsimp only
      split
      all_goals exact ⟨hcurrent, hnot, fun _ => rfl⟩
  | fail error =>
      have hcurrent : (watch.machine.fail number error).2.current = watch.machine.current := by
        unfold Machine.fail
        split
        all_goals rfl
      unfold step
      dsimp only
      split
      all_goals exact ⟨hcurrent, hnot, fun _ => rfl⟩
  | endLogs | endFailures => exact ⟨rfl, hnot, fun _ => rfl⟩
  | read =>
      unfold step
      dsimp only
      split
      next => exact ⟨rfl, hnot, fun _ => rfl⟩
      next =>
        refine ⟨rfl, hnot, fun hletGo => ?_⟩
        change (watch.cutOff || !watch.letGo) = watch.cutOff
        rw [hletGo]
        exact Bool.or_false _
      next => exact ⟨rfl, hnot, fun _ => rfl⟩
  | ask =>
      unfold step
      dsimp only
      split
      next error machine hfailure =>
        obtain ⟨_, _, _, -, -, -, rfl⟩ := Machine.failure?_eq_some hfailure
        exact ⟨rfl, hnot, fun _ => rfl⟩
      next => exact ⟨rfl, hnot, fun _ => rfl⟩
  | unsubscribe =>
      obtain ⟨quiet, subscriptions, hletsGo⟩ := watch.machine.letsGo_unsubscribe number
      refine ⟨?_, (Bool.or_true _).symm, fun _ => rfl⟩
      show (watch.machine.unsubscribe number).current = watch.machine.current
      rw [hletsGo.eq]
      rfl
  | drop =>
      obtain ⟨quiet, subscriptions, hletsGo⟩ := watch.machine.letsGo_discard (some number)
      refine ⟨?_, (Bool.or_true _).symm, fun _ => rfl⟩
      show (watch.machine.discard (some number)).current = watch.machine.current
      rw [hletsGo.eq]
      rfl

theorem letGo_foldl_step (watch : Watch) (number : Nat) (touches : List Touch) :
    (touches.foldl (Watch.step number) watch).letGo =
      (watch.letGo || touches.any Touch.letsGo) := by
  induction touches generalizing watch with
  | nil => exact (Bool.or_false _).symm
  | cons touch touches ih =>
      rw [List.foldl_cons, ih, (follows_step ..).letGo, List.any_cons, Bool.or_assoc]

theorem cutOff_foldl_step (hletGo : watch.letGo = true) (touches : List Touch) :
    (touches.foldl (Watch.step number) watch).cutOff = watch.cutOff := by
  induction touches generalizing watch with
  | nil => rfl
  | cons touch touches ih =>
      have hfollows := watch.follows_step number touch
      have hstill : (watch.step number touch).letGo = true := by
        rw [hfollows.letGo, hletGo, Bool.true_or]
      rw [List.foldl_cons, ih hstill, hfollows.cutOff hletGo]

theorem current_foldl_step (watch : Watch) (number : Nat) (touches : List Touch) :
    (touches.foldl (Watch.step number) watch).machine.current = watch.machine.current := by
  induction touches generalizing watch with
  | nil => rfl
  | cons touch touches ih => rw [List.foldl_cons, ih, (follows_step ..).current]

theorem isSome_verdict? (watch : Watch) :
    watch.verdict?.isSome = true ↔
      watch.heard < watch.reported.length ∨ watch.failuresOver = true ∨ watch.cutOff = true := by
  unfold verdict?
  cases hnext : watch.reported[watch.heard]? with
  | some error =>
      have hlength := (List.getElem?_eq_some_iff.mp hnext).1
      exact iff_of_true rfl (.inl hlength)
  | none =>
      have hlength : ¬ watch.heard < watch.reported.length :=
        Nat.not_lt.mpr (List.getElem?_eq_none_iff.mp hnext)
      cases watch.failuresOver with
      | true => simp
      | false =>
          cases watch.cutOff with
          | true => simp
          | false => simp [hlength]

end Watch

/-! ## What is wrong with a subscription -/

/-- Whatever happens to the subscription of a relay, and in whatever order: something is wrong with
it if and only if a failure was reported that the relay has not heard of, the client has given up
reporting failures, or the reader has found the end of the logs before the relay had let go of the
subscription; the failures come first and in order.  The reader gets all logs that were accepted
before it finds such an end, and an end that it finds later does not count.  However often the
relay lets go of the subscription, the client is told once to tear it down.  Without a subscription
nothing is ever wrong. -/
theorem detects_failures (machine : Machine) (number : Nat) (subscription : ClientSubscription)
    (touches : List Touch) :
    (machine.current = some number → machine.subscriptions[number]? = some subscription →
      subscription.IsNew →
        ∀ watch, touches.foldl (Watch.step number) (.begin machine subscription) = watch →
          watch.machine.failure?.map Prod.fst = watch.verdict? ∧
          (watch.machine.failure?.isSome = true ↔
            watch.heard < watch.reported.length ∨ watch.failuresOver = true ∨
              watch.cutOff = true) ∧
          (∃ buffered, watch.sent = watch.got ++ buffered) ∧
          (watch.cutOff = true → watch.logsOver = true ∧ watch.got = watch.sent) ∧
          (watch.letGo = true → ∀ more : List Touch,
            (more.foldl (Watch.step number) watch).cutOff = watch.cutOff) ∧
          watch.machine.history.tornDown.count number =
            machine.history.tornDown.count number + (touches.any Touch.letsGo).toNat) ∧
    (machine.current = none →
      (touches.foldl (Watch.step number) (.begin machine subscription)).machine.failure? = none) := by
  refine ⟨fun hcurrent hnumber hnew watch hwatch => ?_, fun hcurrent => ?_⟩
  · have hagrees : watch.Agrees number (machine.history.tornDown.count number) :=
      hwatch ▸ (Watch.agrees_begin hcurrent hnumber hnew).foldl_step touches
    obtain ⟨found, -, hmatches⟩ := hagrees.subscription
    have hverdict := hagrees.failure?
    refine ⟨hverdict, ?_, ⟨found.logs, hmatches.logs⟩, fun hcutOff => ?_,
      fun hletGo more => Watch.cutOff_foldl_step hletGo more, ?_⟩
    · rw [← watch.isSome_verdict?, ← hverdict, Option.isSome_map]
    · obtain ⟨hover, hnone⟩ := hmatches.cutOff hcutOff
      have hlogs := hmatches.logs
      rw [hnone, List.append_nil] at hlogs
      exact ⟨hover, hlogs.symm⟩
    · have hletGo : watch.letGo = touches.any Touch.letsGo := by
        rw [← hwatch, Watch.letGo_foldl_step]
        exact Bool.false_or _
      rw [hagrees.tornDown, hletGo]
  · unfold Machine.failure?
    rw [Watch.current_foldl_step]
    change machine.current >>= _ = none
    rw [hcurrent]
    rfl

/-! ## A stream that ends -/

namespace Sample

/-- A subscription as it is made. -/
def fresh : ClientSubscription := { room }

/-- The client sends a log and then gives up, and the reader finds first the one and then the
other. -/
def touches : List Touch := [.push log, .endLogs, .read, .ask, .read]

end Sample

/-- The end of the logs counts as a failure, but not without a subscription. -/
theorem sample_detects_failures :
    (Sample.touches.foldl (Watch.step 0)
        (.begin Sample.machine Sample.fresh)).machine.failure?.map Prod.fst =
        some (.subscriptionDropped "log stream ended") ∧
      (Sample.touches.foldl (Watch.step 0)
        (.begin Sample.start Sample.fresh)).machine.failure? = none := by
  obtain ⟨hlive, -⟩ := detects_failures Sample.machine 0 Sample.fresh Sample.touches
  obtain ⟨-, hnone⟩ := detects_failures Sample.start 0 Sample.fresh Sample.touches
  obtain ⟨hverdict, -⟩ := hlive rfl rfl ⟨rfl, rfl, rfl⟩ _ rfl
  exact ⟨hverdict.trans rfl, hnone rfl⟩

end LogRelay
