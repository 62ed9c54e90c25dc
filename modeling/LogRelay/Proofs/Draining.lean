import LogRelay.Proofs.Operations

/-!
# How a closed subscription runs dry

When the relay closes a subscription, the client may go on sending, and the reader of the logs goes
on reading.  The reader stops when it finds no log, not when it has taken the logs that were there
at closing: whatever the client has sent by then is handed out as well, and only then the client is
refused (`ClientSubscription.closed_stream_runs_dry`).  A client that sends a log for every log that
is taken therefore keeps the reader busy for ever.
-/

namespace LogRelay

/-- What client and reader do with the logs of a subscription. -/
inductive Turn where
  /-- The client sends a log. -/
  | push (log : RawLog)
  /-- The reader looks for a log. -/
  | receive

/-- A subscription, with what has become of its logs since some moment. -/
structure Drain where
  subscription : ClientSubscription
  /-- What the reader has found, in order. -/
  found : List ClientSubscription.Arrival := []
  /-- The logs that the client has sent and that were taken, in order. -/
  accepted : List RawLog := []

namespace Drain

/-- The client or the reader has its turn. -/
def step (drain : Drain) : Turn → Drain
  | .push log =>
      let sent := drain.subscription.push log
      { drain with
        subscription := sent.2
        accepted := if sent.1 = .taken then drain.accepted ++ [log] else drain.accepted }
  | .receive =>
      let looked := drain.subscription.receive
      { drain with subscription := looked.2, found := drain.found ++ [looked.1] }

/-- The subscription is closed, the client has not given up, and the reader has received these logs
and found the end so many times. -/
structure Reached (buffered received : List RawLog) (ends : Nat) (drain : Drain) : Prop where
  closed : drain.subscription.closed = true
  sendsLogs : drain.subscription.sendsLogs = true
  found : drain.found = received.map .log ++ List.replicate ends .ended
  balance : received ++ drain.subscription.logs = buffered ++ drain.accepted
  acceptsLogs : drain.subscription.acceptsLogs = true ↔ ends = 0
  dry : ends ≠ 0 → drain.subscription.logs = []

variable {subscription : ClientSubscription} {drain : Drain} {buffered received : List RawLog}
  {ends : Nat}

theorem reached_close (hsends : subscription.sendsLogs = true)
    (haccepts : subscription.acceptsLogs = true) :
    Reached subscription.logs [] 0 { subscription := subscription.close } where
  closed := rfl
  sendsLogs := hsends
  found := rfl
  balance := (List.append_nil _).symm
  acceptsLogs := ⟨fun _ => rfl, fun _ => haccepts⟩
  dry h := absurd rfl h

theorem step_receive_of_cons {log : RawLog} {rest : List RawLog}
    (hlogs : drain.subscription.logs = log :: rest) :
    drain.step .receive =
      { drain with
        subscription := { drain.subscription with logs := rest }
        found := drain.found ++ [.log log] } := by
  simp only [step, ClientSubscription.receive, hlogs]

theorem Reached.step_receive_of_nil (h : Reached buffered received ends drain)
    (hlogs : drain.subscription.logs = []) :
    drain.step .receive =
      { drain with
        subscription := drain.subscription.dropLogs
        found := drain.found ++ [.ended] } := by
  simp [step, ClientSubscription.receive, hlogs, h.sendsLogs, h.closed]

/-- A log that is there is received; it cannot be there after the end. -/
theorem Reached.receive_log (h : Reached buffered received ends drain) {log : RawLog}
    {rest : List RawLog} (hlogs : drain.subscription.logs = log :: rest) :
    Reached buffered (received ++ [log]) 0 (drain.step .receive) := by
  have hends : ends = 0 := by
    by_contra hne
    rw [h.dry hne] at hlogs
    cases hlogs
  subst hends
  rw [step_receive_of_cons hlogs]
  refine ⟨h.closed, h.sendsLogs, ?_, ?_, h.acceptsLogs, fun hne => absurd rfl hne⟩
  · simp [h.found]
  · rw [List.append_assoc, List.singleton_append, ← hlogs, h.balance]

/-- Where there is no log, the stream ends. -/
theorem Reached.receive_end (h : Reached buffered received ends drain)
    (hlogs : drain.subscription.logs = []) :
    Reached buffered received (ends + 1) (drain.step .receive) := by
  rw [h.step_receive_of_nil hlogs]
  refine ⟨h.closed, h.sendsLogs, ?_, h.balance, ?_, fun _ => hlogs⟩
  · rw [h.found, List.replicate_succ', List.append_assoc]
  · exact iff_of_false Bool.false_ne_true (Nat.succ_ne_zero ends)

theorem Reached.takesLogs_eq (h : Reached buffered received ends drain) :
    drain.subscription.takesLogs = true ↔ ends = 0 := by
  rw [ClientSubscription.takesLogs, h.sendsLogs, Bool.true_and, h.acceptsLogs]

/-- What the client sends is taken or leaves everything as it is. -/
theorem Reached.push (h : Reached buffered received ends drain) (log : RawLog) :
    Reached buffered received ends (drain.step (.push log)) := by
  rcases drain.subscription.push_eq log with ⟨htakes, hpush⟩ | ⟨result, hresult, hpush⟩
  · have hends : ends = 0 := h.takesLogs_eq.mp htakes
    simp only [step, hpush, if_true]
    refine ⟨h.closed, h.sendsLogs, h.found, ?_, h.acceptsLogs, fun hne => absurd hends hne⟩
    rw [← List.append_assoc, h.balance, List.append_assoc]
  · simp only [step, hpush, if_neg hresult]
    exact ⟨h.closed, h.sendsLogs, h.found, h.balance, h.acceptsLogs, h.dry⟩

theorem Reached.step (h : Reached buffered received ends drain) (turn : Turn) :
    ∃ received ends, Reached buffered received ends (drain.step turn) := by
  cases turn with
  | push log => exact ⟨received, ends, h.push log⟩
  | receive =>
      cases hlogs : drain.subscription.logs with
      | nil => exact ⟨received, ends + 1, h.receive_end hlogs⟩
      | cons log rest => exact ⟨received ++ [log], 0, h.receive_log hlogs⟩

theorem Reached.foldl_step (h : Reached buffered received ends drain) (turns : List Turn) :
    ∃ received ends, Reached buffered received ends (turns.foldl Drain.step drain) := by
  induction turns generalizing drain received ends with
  | nil => exact ⟨received, ends, h⟩
  | cons turn turns ih =>
      obtain ⟨received, ends, hnext⟩ := h.step turn
      exact ih hnext

/-- After the client has sent something, there is a log, be it another one: the channel was full. -/
theorem Reached.logs_push_ne_nil (h : Reached buffered received 0 drain) (log : RawLog) :
    (drain.step (.push log)).subscription.logs ≠ [] := by
  have haccepts : drain.subscription.acceptsLogs = true := h.acceptsLogs.mpr rfl
  simp only [Drain.step, ClientSubscription.push, h.sendsLogs, haccepts, Bool.not_true,
    Bool.false_eq_true, if_false]
  split
  next hfull =>
    exact List.ne_nil_of_length_pos
      (Nat.lt_of_lt_of_le drain.subscription.room.logs_pos hfull)
  next => exact List.append_ne_nil_of_right_ne_nil _ (List.cons_ne_nil log [])

/-- The client is refused once the reader has found the end. -/
theorem Reached.push_eq_closed_iff (h : Reached buffered received ends drain) (log : RawLog) :
    (drain.subscription.push log).1 = .closed ↔ ends ≠ 0 := by
  rw [ne_eq, ← h.acceptsLogs, ClientSubscription.push, h.sendsLogs]
  cases drain.subscription.acceptsLogs with
  | false => simp
  | true =>
      simp only [Bool.not_true, Bool.false_eq_true, if_false]
      split
      all_goals simp

theorem Reached.receive_eq_ended_iff (h : Reached buffered received ends drain) :
    drain.subscription.receive.1 = .ended ↔ drain.subscription.logs = [] := by
  cases hlogs : drain.subscription.logs with
  | nil => simp [ClientSubscription.receive, hlogs, h.sendsLogs, h.closed]
  | cons log rest => simp [ClientSubscription.receive, hlogs]

/-- A client that sends a log before each look keeps the stream from its end. -/
theorem Reached.foldl_rounds (h : Reached buffered received 0 drain) (supply : List RawLog) :
    ∃ more, more.length = supply.length ∧
      Reached buffered (received ++ more) 0
        ((supply.flatMap fun log => [.push log, .receive]).foldl Drain.step drain) := by
  induction supply generalizing drain received with
  | nil => exact ⟨[], rfl, (List.append_nil received).symm ▸ h⟩
  | cons log supply ih =>
      obtain ⟨first, rest, hlogs⟩ := List.exists_cons_of_ne_nil (h.logs_push_ne_nil log)
      obtain ⟨more, hlength, hreached⟩ := ih ((h.push log).receive_log hlogs)
      refine ⟨first :: more, congrArg (· + 1) hlength, ?_⟩
      rw [List.append_cons]
      exact hreached

/-- When the client sends nothing more, the reader finds what is there and then the end. -/
theorem Reached.foldl_receive (h : Reached buffered received ends drain) :
    ((List.replicate (drain.subscription.logs.length + 1) Turn.receive).foldl Drain.step
      drain).found = drain.found ++ drain.subscription.logs.map .log ++ [.ended] := by
  generalize hlogs : drain.subscription.logs = logs
  induction logs generalizing drain received ends with
  | nil =>
      rw [List.length_nil, List.replicate_one, List.foldl_cons, List.foldl_nil,
        h.step_receive_of_nil hlogs]
      simp
  | cons log rest ih =>
      have hnext := h.receive_log hlogs
      rw [step_receive_of_cons hlogs] at hnext
      rw [List.length_cons, List.replicate_succ, List.foldl_cons, step_receive_of_cons hlogs,
        ih hnext rfl]
      simp

end Drain

/-- After the relay has closed a live stream, whatever the client sends and whenever the reader
looks: the reader receives logs and then finds the end for good.  The logs that it has received or
will find are those which were there at closing, and then those which the client has sent and which
were taken; the client is refused only after the reader has found the end.  It finds the end
exactly where no log is left.  It gets there when the client pauses for long enough, but never if
the client sends a log before each look. -/
theorem ClientSubscription.closed_stream_runs_dry (subscription : ClientSubscription)
    (hsends : subscription.sendsLogs = true) (haccepts : subscription.acceptsLogs = true) :
    let start : Drain := { subscription := subscription.close }
    (∀ turns : List Turn,
      let drain := turns.foldl Drain.step start
      (∃ received ends, drain.found = received.map .log ++ List.replicate ends .ended ∧
        received ++ drain.subscription.logs = subscription.logs ++ drain.accepted ∧
        (ends ≠ 0 → received = subscription.logs ++ drain.accepted) ∧
        ∀ log, (drain.subscription.push log).1 = .closed ↔ ends ≠ 0) ∧
      (drain.subscription.receive.1 = .ended ↔ drain.subscription.logs = []) ∧
      ((List.replicate (drain.subscription.logs.length + 1) Turn.receive).foldl Drain.step
        drain).found = drain.found ++ drain.subscription.logs.map .log ++ [.ended]) ∧
    ∀ supply : List RawLog, ∃ received : List RawLog, received.length = supply.length ∧
      ((supply.flatMap fun log => [.push log, .receive]).foldl Drain.step start).found =
        received.map .log := by
  intro start
  have hstart := Drain.reached_close hsends haccepts
  refine ⟨fun turns => ?_, fun supply => ?_⟩
  · obtain ⟨received, ends, h⟩ := hstart.foldl_step turns
    refine ⟨⟨received, ends, h.found, h.balance, fun hends => ?_, fun log => ?_⟩,
      h.receive_eq_ended_iff, h.foldl_receive⟩
    · rw [← h.balance, h.dry hends, List.append_nil]
    · exact h.push_eq_closed_iff log
  · obtain ⟨more, hlength, h⟩ := hstart.foldl_rounds supply
    exact ⟨more, hlength, by simpa using h.found⟩

/-- Two logs are there at closing.  A third one is sent when the reader has taken the first: it is
handed out before the end. -/
theorem ClientSubscription.sample_closed_stream_runs_dry :
    let first : RawLog := { logIndex := 1 }
    let second : RawLog := { logIndex := 2 }
    let late : RawLog := { logIndex := 3 }
    let room : ChannelRoom := ⟨2, 1, Nat.two_pos, Nat.one_pos⟩
    let subscription : ClientSubscription := { room, logs := [first, second] }
    let drain := [Turn.receive, .push late].foldl Drain.step { subscription := subscription.close }
    ((List.replicate 3 Turn.receive).foldl Drain.step drain).found =
      [.log first, .log second, .log late, .ended] := by
  intro first second late room subscription drain
  obtain ⟨hturns, -⟩ := ClientSubscription.closed_stream_runs_dry subscription rfl rfl
  obtain ⟨-, -, hreceive⟩ := hturns [.receive, .push late]
  exact hreceive

end LogRelay
