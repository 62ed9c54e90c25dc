import LogRelay.Proofs.History
import LogRelay.Proofs.RegistryPairs

/-!
# What the operations of the control task change

Every operation of the control task is written here as an update of a few fields of the
relay, followed by the effects that it adds to the history (`Machine.record`).  What an
operation does to the subscriptions only matters in one respect: it may let go of
parts of them, but leaves the logs on their way alone (`Subscriptions.Shut`).  The
later files use these equations and unfold no operation again.
-/

namespace LogRelay

/-! ## Letting go of subscriptions -/

namespace ClientSubscription

/-- Whether a log that the client sends can still be accepted. -/
def takesLogs (subscription : ClientSubscription) : Bool :=
  subscription.sendsLogs && subscription.acceptsLogs

/-- The same logs are on their way, and no log can be accepted that could not be before. -/
structure Shut (before after : ClientSubscription) : Prop where
  logs : after.logs = before.logs
  takesLogs : after.takesLogs = true → before.takesLogs = true

theorem Shut.refl (subscription : ClientSubscription) : Shut subscription subscription :=
  ⟨rfl, id⟩

theorem Shut.trans {first second third : ClientSubscription} (h : Shut first second)
    (h' : Shut second third) : Shut first third :=
  ⟨h'.logs.trans h.logs, fun htakes => h.takesLogs (h'.takesLogs htakes)⟩

theorem shut_close (subscription : ClientSubscription) : Shut subscription subscription.close :=
  ⟨rfl, id⟩

theorem shut_endLogs (subscription : ClientSubscription) :
    Shut subscription subscription.endLogs :=
  ⟨rfl, by simp [takesLogs, endLogs]⟩

theorem shut_endFailures (subscription : ClientSubscription) :
    Shut subscription subscription.endFailures :=
  ⟨rfl, id⟩

theorem shut_dropFailures (subscription : ClientSubscription) :
    Shut subscription subscription.dropFailures :=
  ⟨rfl, id⟩

theorem shut_dropLogs (subscription : ClientSubscription) :
    Shut subscription subscription.dropLogs :=
  ⟨rfl, by simp [takesLogs, dropLogs]⟩

theorem push_eq (subscription : ClientSubscription) (log : RawLog) :
    (subscription.takesLogs = true ∧
        subscription.push log =
          (.taken, { subscription with logs := subscription.logs ++ [log] })) ∨
      ∃ result, result ≠ .taken ∧ subscription.push log = (result, subscription) := by
  unfold push
  cases hsends : subscription.sendsLogs with
  | false => exact .inr ⟨.missing, by simp, rfl⟩
  | true =>
      cases haccepts : subscription.acceptsLogs with
      | false => exact .inr ⟨.closed, by simp, rfl⟩
      | true =>
          by_cases hroom : subscription.room.logs ≤ subscription.logs.length
          · exact .inr ⟨.full, by simp, by simp [hroom]⟩
          · refine .inl ⟨by rw [takesLogs, hsends, haccepts, Bool.and_true], ?_⟩
            simp [hroom]

theorem fail_eq (subscription : ClientSubscription) (error : ClientError) :
    subscription.fail error =
        (.taken, { subscription with failures := subscription.failures ++ [error] }) ∨
      ∃ result, result ≠ .taken ∧ subscription.fail error = (result, subscription) := by
  unfold fail
  split
  next => exact .inr ⟨.missing, by simp, rfl⟩
  next =>
    split
    next => exact .inr ⟨.closed, by simp, rfl⟩
    next =>
      split
      next => exact .inr ⟨.full, by simp, rfl⟩
      next => exact .inl rfl

/-- A failure that is heard of is used up; what is wrong otherwise stays so. -/
theorem failure?_eq_some {subscription later : ClientSubscription} {error : ClientError}
    (h : subscription.failure? = some (error, later)) :
    (∃ rest, subscription.failures = error :: rest ∧ later = { subscription with failures := rest }) ∨
      subscription.failures = [] ∧ later = subscription := by
  unfold failure? at h
  split at h
  next first rest hfailures =>
    cases h
    exact .inl ⟨rest, hfailures, rfl⟩
  next hfailures =>
    refine .inr ⟨hfailures, ?_⟩
    split at h
    next => exact (congrArg Prod.snd (Option.some.inj h)).symm
    next =>
      split at h
      next => exact (congrArg Prod.snd (Option.some.inj h)).symm
      next => cases h

theorem shut_of_failure? {subscription later : ClientSubscription} {error : ClientError}
    (h : subscription.failure? = some (error, later)) : Shut subscription later := by
  rcases failure?_eq_some h with ⟨rest, -, rfl⟩ | ⟨-, rfl⟩
  · exact ⟨rfl, id⟩
  · exact .refl _

theorem unsubscribed_of_failure? {subscription later : ClientSubscription} {error : ClientError}
    (h : subscription.failure? = some (error, later)) :
    later.unsubscribed = subscription.unsubscribed := by
  rcases failure?_eq_some h with ⟨rest, -, rfl⟩ | ⟨-, rfl⟩
  · rfl
  · rfl

theorem unsubscribed_receive (subscription : ClientSubscription) :
    subscription.receive.2.unsubscribed = subscription.unsubscribed := by
  unfold receive
  split
  next => rfl
  next =>
    split
    next => rfl
    next =>
      split
      next => rfl
      next => rfl

theorem receive_eq_log {subscription later : ClientSubscription} {log : RawLog}
    (h : subscription.receive = (.log log, later)) :
    ∃ rest, subscription.logs = log :: rest ∧ later = { subscription with logs := rest } := by
  unfold receive at h
  split at h
  next first rest hlogs =>
    cases h
    exact ⟨rest, hlogs, rfl⟩
  next =>
    split at h
    next => cases h
    next =>
      split at h
      next => cases h
      next => cases h

theorem receive_eq_ended {subscription later : ClientSubscription}
    (h : subscription.receive = (.ended, later)) :
    subscription.logs = [] ∧ subscription.Shut later := by
  unfold receive at h
  split at h
  next => cases h
  next hlogs =>
    split at h
    next =>
      cases h
      exact ⟨hlogs, rfl, id⟩
    next =>
      split at h
      next =>
        cases h
        exact ⟨hlogs, shut_dropLogs subscription⟩
      next => cases h

end ClientSubscription

namespace Subscriptions

/-- No subscription comes or goes, and each of them is at most shut. -/
structure Shut (before after : Subscriptions) : Prop where
  length : after.length = before.length
  shut : ∀ (number : Nat) (subscription : ClientSubscription),
    before[number]? = some subscription →
      ∃ later, after[number]? = some later ∧ subscription.Shut later

theorem Shut.refl (subscriptions : Subscriptions) : Shut subscriptions subscriptions :=
  ⟨rfl, fun _ subscription h => ⟨subscription, h, .refl subscription⟩⟩

theorem Shut.trans {first second third : Subscriptions} (h : Shut first second)
    (h' : Shut second third) : Shut first third := by
  refine ⟨h'.length.trans h.length, fun number subscription hfirst => ?_⟩
  obtain ⟨middle, hsecond, hshut⟩ := h.shut number subscription hfirst
  obtain ⟨later, hthird, hshut'⟩ := h'.shut number middle hsecond
  exact ⟨later, hthird, hshut.trans hshut'⟩

theorem shut_change {f : ClientSubscription → ClientSubscription}
    (hf : ∀ subscription : ClientSubscription, subscription.Shut (f subscription)) (number : Nat)
    (subscriptions : Subscriptions) : Shut subscriptions (subscriptions.change f number) := by
  refine ⟨List.length_modify .., fun other subscription hother => ?_⟩
  rw [change, List.getElem?_modify, hother]
  by_cases h : number = other
  · exact ⟨f subscription, by simp [h], hf subscription⟩
  · exact ⟨subscription, by simp [h], .refl subscription⟩

theorem shut_set {subscriptions : Subscriptions} {number : Nat}
    {subscription later : ClientSubscription} (hnumber : subscriptions[number]? = some subscription)
    (hshut : subscription.Shut later) : Shut subscriptions (subscriptions.set number later) := by
  refine ⟨List.length_set, fun other found hother => ?_⟩
  rw [List.getElem?_set]
  by_cases h : number = other
  · subst h
    obtain rfl : subscription = found := Option.some.inj (hnumber.symm.trans hother)
    have hlength : number < subscriptions.length := (List.getElem?_eq_some_iff.mp hnumber).1
    exact ⟨later, by simp [hlength], hshut⟩
  · exact ⟨found, by simp [h, hother], .refl found⟩

theorem shut_drop (source : LogSource) (subscriptions : Subscriptions) :
    Shut subscriptions (source.drop subscriptions) := by
  cases source with
  | batch logs => exact .refl subscriptions
  | live number => exact shut_change ClientSubscription.shut_dropLogs number subscriptions

theorem shut_abort (pipeline : Pipeline) (subscriptions : Subscriptions) :
    Shut subscriptions (pipeline.abort subscriptions).2 := by
  simp only [Pipeline.abort]
  induction pipeline generalizing subscriptions with
  | nil => exact .refl subscriptions
  | cons stage before ih => exact (shut_drop stage.source subscriptions).trans (ih _)

/-- Which of the subscriptions the client was told to tear down. -/
def marks (subscriptions : Subscriptions) : List Bool := subscriptions.map (·.unsubscribed)

theorem marks_change {f : ClientSubscription → ClientSubscription}
    (hf : ∀ subscription : ClientSubscription,
      (f subscription).unsubscribed = subscription.unsubscribed)
    (number : Nat) (subscriptions : Subscriptions) :
    (subscriptions.change f number).marks = subscriptions.marks := by
  refine List.ext_getElem? fun other => ?_
  simp only [marks, change, List.getElem?_map, List.getElem?_modify]
  cases subscriptions[other]? with
  | none => rfl
  | some subscription => by_cases h : number = other <;> simp [h, hf]

theorem marks_set {subscriptions : Subscriptions} {number : Nat}
    {subscription later : ClientSubscription} (hnumber : subscriptions[number]? = some subscription)
    (hmark : later.unsubscribed = subscription.unsubscribed) :
    marks (subscriptions.set number later) = subscriptions.marks := by
  have hlength : number < subscriptions.length := (List.getElem?_eq_some_iff.mp hnumber).1
  refine List.ext_getElem? fun other => ?_
  rw [marks, marks, List.getElem?_map, List.getElem?_map]
  by_cases h : number = other
  · subst h
    rw [List.getElem?_set_self hlength, hnumber, Option.map_some, Option.map_some, hmark]
  · rw [List.getElem?_set_ne h]

theorem marks_drop (source : LogSource) (subscriptions : Subscriptions) :
    marks (source.drop subscriptions) = subscriptions.marks := by
  cases source with
  | batch logs => rfl
  | live number =>
      exact marks_change (f := ClientSubscription.dropLogs) (fun _ => rfl) number subscriptions

theorem marks_abort (pipeline : Pipeline) (subscriptions : Subscriptions) :
    marks (pipeline.abort subscriptions).2 = subscriptions.marks := by
  simp only [Pipeline.abort]
  induction pipeline generalizing subscriptions with
  | nil => rfl
  | cons stage before ih => exact (ih _).trans (marks_drop stage.source subscriptions)

end Subscriptions

/-- The call as if its request had not been answered yet. -/
def Caller.asPosted (caller : Caller) : Caller :=
  match caller.progress with
  | .answered _ => { caller with progress := .posted }
  | _ => caller

/-- The call after an answer; only a call whose request is in the mailbox takes it. -/
def Caller.answer (answer : Option Bool) (caller : Caller) : Caller :=
  match caller.progress with
  | .posted => { caller with progress := .answered answer }
  | _ => caller

theorem Caller.isDone_asPosted (caller : Caller) : caller.asPosted.isDone = caller.isDone := by
  cases hprogress : caller.progress <;> simp [asPosted, isDone, hprogress]

namespace Machine

/-! ## Recording effects -/

/-- Adds effects to the history, the latest first. -/
def record (machine : Machine) (effects : History) : Machine :=
  { machine with trace := effects.map (Prod.mk machine.now) ++ machine.trace }

@[simp] theorem history_record (machine : Machine) (effects : History) :
    (machine.record effects).history = effects ++ machine.history := by
  simp [record, history, Function.comp_def]

@[simp] theorem record_nil (machine : Machine) : machine.record [] = machine := rfl

theorem record_record (machine : Machine) (first second : History) :
    (machine.record first).record second = machine.record (second ++ first) := by
  simp [record]

theorem emit_eq (machine : Machine) (effect : Effect) :
    machine.emit effect = machine.record [effect] := rfl

theorem emitForAll_eq (machine : Machine) (effect : Address → ListenerId → Effect) :
    machine.emitForAll effect =
      machine.record (machine.registry.pairs.map fun pair => effect pair.1 pair.2).reverse := by
  unfold emitForAll
  generalize machine.registry.pairs = pairs
  induction pairs generalizing machine with
  | nil => rfl
  | cons pair rest ih =>
      rw [List.foldl_cons, ih, emit_eq, record_record, List.map_cons, List.reverse_cons]

theorem notifyConnected_eq (machine : Machine) :
    machine.notifyConnected =
      { machine with connected := true }.record (History.round true machine.registry) := by
  rw [notifyConnected, emitForAll_eq, switch, emit_eq, record_record]
  rfl

theorem notifyDisconnected_eq (machine : Machine) :
    machine.notifyDisconnected =
      { machine with connected := false }.record (History.round false machine.registry) := by
  rw [notifyDisconnected, emitForAll_eq, switch, emit_eq, record_record]
  rfl

/-! ## Letting go -/

/-- A subscription is let go of: nothing changes but the subscriptions, and nothing happens but
that one is torn down. -/
structure LetsGo (machine after : Machine) (quiet : History) (subscriptions : Subscriptions) :
    Prop where
  eq : after = { machine with subscriptions }.record quiet
  isQuiet : quiet.IsQuiet
  shut : machine.subscriptions.Shut subscriptions

theorem LetsGo.refl (machine : Machine) : LetsGo machine machine [] machine.subscriptions :=
  ⟨rfl, History.isQuiet_nil, .refl _⟩

theorem LetsGo.trans {first second third : Machine} {quiet quiet' : History}
    {subscriptions subscriptions' : Subscriptions} (h : LetsGo first second quiet subscriptions)
    (h' : LetsGo second third quiet' subscriptions') :
    LetsGo first third (quiet' ++ quiet) subscriptions' := by
  obtain ⟨rfl, hquiet, hshut⟩ := h
  obtain ⟨rfl, hquiet', hshut'⟩ := h'
  exact ⟨record_record { first with subscriptions := subscriptions' } quiet quiet',
    hquiet'.append hquiet, hshut.trans hshut'⟩

theorem letsGo_change {f : ClientSubscription → ClientSubscription}
    (hf : ∀ subscription : ClientSubscription, subscription.Shut (f subscription))
    (machine : Machine) (number : Nat) :
    LetsGo machine (machine.changeSubscription f number) []
      (machine.subscriptions.change f number) :=
  ⟨rfl, History.isQuiet_nil, Subscriptions.shut_change hf number _⟩

theorem letsGo_unsubscribe (machine : Machine) (number : Nat) :
    ∃ quiet subscriptions, LetsGo machine (machine.unsubscribe number) quiet subscriptions := by
  unfold unsubscribe
  split
  next => exact ⟨_, _, .refl machine⟩
  next subscription hnumber =>
    split
    next => exact ⟨_, _, .refl machine⟩
    next =>
      refine ⟨[.unsubscribed number], _, rfl, ?_,
        Subscriptions.shut_change ClientSubscription.shut_close number _⟩
      simp [History.IsQuiet, Effect.IsTearDown]

theorem letsGo_discard (machine : Machine) (number? : Option Nat) :
    ∃ quiet subscriptions, LetsGo machine (machine.discard number?) quiet subscriptions := by
  cases number? with
  | none => exact ⟨_, _, .refl machine⟩
  | some number =>
      obtain ⟨quiet, subscriptions, h⟩ := machine.letsGo_unsubscribe number
      exact ⟨_, _, h.trans (letsGo_change ClientSubscription.shut_dropFailures _ number)⟩

theorem letsGo_discardUnused (machine : Machine) (number? : Option Nat) :
    ∃ quiet subscriptions,
      LetsGo machine (machine.discardUnused number?) quiet subscriptions := by
  cases number? with
  | none => exact ⟨_, _, .refl machine⟩
  | some number =>
      obtain ⟨quiet, subscriptions, h⟩ := machine.letsGo_discard (some number)
      exact ⟨_, _, h.trans (letsGo_change ClientSubscription.shut_dropLogs _ number)⟩

/-! ## Ending -/

theorem map_asPosted_answerCaller (machine : Machine) (answer : Option Bool) (caller : CallerId) :
    (machine.answerCaller answer caller).callers.map Caller.asPosted =
      machine.callers.map Caller.asPosted := by
  refine List.ext_getElem? fun place => ?_
  simp only [answerCaller, changeCaller, List.getElem?_map, List.getElem?_modify]
  cases machine.callers[place]? with
  | none => rfl
  | some found =>
      by_cases h : caller = place
      · obtain ⟨request, progress⟩ := found
        cases progress <;> simp [h, Caller.asPosted]
      · simp [h]

theorem closeMailbox_eq (machine : Machine) :
    ∃ callers, machine.closeMailbox = { machine with mailbox := machine.mailbox.close, callers } ∧
      callers.map Caller.asPosted = machine.callers.map Caller.asPosted := by
  -- Only the callers change from one request to the next, and none of their calls returns.
  have hfold : ∀ (requests : List (CallerId × Command)) (start : Machine),
      ∃ callers,
        requests.foldl (fun machine request => machine.answerCaller none request.1) start =
          { start with callers } ∧
        callers.map Caller.asPosted = start.callers.map Caller.asPosted := by
    intro requests
    induction requests with
    | nil => exact fun start => ⟨start.callers, rfl, rfl⟩
    | cons request rest ih =>
        intro start
        obtain ⟨callers, heq, hposted⟩ := ih (start.answerCaller none request.1)
        exact ⟨callers, heq, hposted.trans (map_asPosted_answerCaller start none request.1)⟩
  obtain ⟨callers, heq, hposted⟩ :=
    hfold machine.mailbox.requests { machine with mailbox := machine.mailbox.close }
  exact ⟨callers, heq, hposted⟩

theorem callers_closeMailbox (machine : Machine) :
    machine.closeMailbox.callers =
      machine.mailbox.requests.foldl (fun callers request =>
        callers.modify request.1 (Caller.answer none)) machine.callers := by
  have hfold : ∀ (requests : List (CallerId × Command)) (start : Machine),
      (requests.foldl (fun machine request => machine.answerCaller none request.1)
        start).callers =
        requests.foldl (fun callers request =>
          callers.modify request.1 (Caller.answer none)) start.callers := by
    intro requests
    induction requests with
    | nil => exact fun _ => rfl
    | cons request rest ih => exact fun start => ih (start.answerCaller none request.1)
  exact hfold machine.mailbox.requests { machine with mailbox := machine.mailbox.close }

/-- The control task breaks down: it stops all stages and gives up all requests. -/
structure BreaksDown (machine after : Machine) (quiet : History) : Prop where
  eq : ∃ subscriptions callers, machine.subscriptions.Shut subscriptions ∧
    callers.map Caller.asPosted = machine.callers.map Caller.asPosted ∧
    after = { machine with
      subscriptions, callers
      pipeline := machine.pipeline.map Stage.stop
      mailbox := machine.mailbox.close
      phase := .crashed }.record quiet
  isQuiet : quiet.IsQuiet
  callers : after.callers = machine.closeMailbox.callers

theorem BreaksDown.history {machine after : Machine} {quiet : History}
    (h : BreaksDown machine after quiet) : after.history = quiet ++ machine.history := by
  obtain ⟨subscriptions, callers, -, -, rfl⟩ := h.eq
  exact history_record ..

theorem BreaksDown.phase {machine after : Machine} {quiet : History}
    (h : BreaksDown machine after quiet) : after.phase = .crashed := by
  obtain ⟨subscriptions, callers, -, -, rfl⟩ := h.eq
  rfl

theorem BreaksDown.current {machine after : Machine} {quiet : History}
    (h : BreaksDown machine after quiet) : after.current = machine.current := by
  obtain ⟨subscriptions, callers, -, -, rfl⟩ := h.eq
  rfl

theorem BreaksDown.connected {machine after : Machine} {quiet : History}
    (h : BreaksDown machine after quiet) : after.connected = machine.connected := by
  obtain ⟨subscriptions, callers, -, -, rfl⟩ := h.eq
  rfl

theorem breaksDown_crash (machine : Machine) (fresh : Option Nat) :
    ∃ quiet, BreaksDown machine (machine.crash fresh) quiet := by
  obtain ⟨quiet, subscriptions, h⟩ := machine.letsGo_discardUnused fresh
  obtain ⟨quiet', subscriptions', h'⟩ :=
    (machine.discardUnused fresh).letsGo_discard machine.current
  obtain ⟨heq, hquiet, hshut⟩ := h.trans h'
  obtain ⟨callers, hclose, hposted⟩ := closeMailbox_eq
    ({ machine with
      subscriptions := (machine.pipeline.abort subscriptions').2
      pipeline := machine.pipeline.map Stage.stop
      phase := .crashed }.record (quiet' ++ quiet))
  have hcrash : machine.crash fresh =
      { machine with
        subscriptions := (machine.pipeline.abort subscriptions').2
        callers
        pipeline := machine.pipeline.map Stage.stop
        mailbox := machine.mailbox.close
        phase := .crashed }.record (quiet' ++ quiet) := by
    unfold crash
    rw [heq]
    exact hclose
  have habort := Subscriptions.shut_abort machine.pipeline subscriptions'
  refine ⟨quiet' ++ quiet, ⟨_, callers, hshut.trans habort, hposted, hcrash⟩, hquiet, ?_⟩
  have hcallers := congrArg Machine.callers hclose
  rw [callers_closeMailbox] at hcallers
  rw [hcrash, callers_closeMailbox]
  exact hcallers.symm

/-- The effects of leaving, as far as they matter: the listeners are told if they were told
that the relay is connected. -/
theorem leave_eq (machine : Machine) (fresh : Option Nat) :
    ∃ quiet quiet' subscriptions, quiet.IsQuiet ∧ quiet'.IsQuiet ∧
      machine.subscriptions.Shut subscriptions ∧
      machine.leave fresh =
        { machine with subscriptions, connected := false, phase := .joining }.record
          (quiet' ++ (if machine.connected then History.round false machine.registry else []) ++
            quiet) := by
  obtain ⟨quiet, subscriptions, heq, hquiet, hshut⟩ := machine.letsGo_discardUnused fresh
  rw [leave, heq]
  -- Whether the listeners are told depends on what they were told before.
  cases hconnected : machine.connected with
  | false =>
      obtain ⟨quiet', subscriptions', heq', hquiet', hshut'⟩ :=
        ({ machine with subscriptions }.record quiet).letsGo_discard machine.current
      refine ⟨quiet, quiet', subscriptions', hquiet, hquiet', hshut.trans hshut', ?_⟩
      simp only [record, hconnected, Bool.false_eq_true, if_false] at heq' ⊢
      rw [heq']
      simp
  | true =>
      obtain ⟨quiet', subscriptions', heq', hquiet', hshut'⟩ :=
        ({ machine with subscriptions }.record quiet).notifyDisconnected.letsGo_discard
          machine.current
      rw [notifyDisconnected_eq] at heq' hshut'
      refine ⟨quiet, quiet', subscriptions', hquiet, hquiet', hshut.trans hshut', ?_⟩
      simp only [record, hconnected, if_true, notifyDisconnected_eq] at heq' ⊢
      rw [heq']
      simp

/-! ## Passes -/

/-- A new subscription and earlier logs are taken into use. -/
structure Adopts (machine adopted : Machine) (fresh : Option Nat) (logs : List RawLog) : Prop where
  eq : ∃ quiet subscriptions, quiet.IsQuiet ∧ machine.subscriptions.Shut subscriptions ∧
    adopted = { machine with
      subscriptions
      pipeline := { id := machine.stageCount + 1, source := sourceOf fresh } ::
        { id := machine.stageCount, source := .batch logs } :: machine.pipeline
      stageCount := machine.stageCount + 2
      current := fresh
      connected := true }.record (History.round true machine.registry ++ quiet)

theorem Adopts.parameters {machine adopted : Machine} {fresh : Option Nat} {logs : List RawLog}
    (h : Adopts machine adopted fresh logs) : adopted.parameters = machine.parameters := by
  obtain ⟨quiet, subscriptions, -, -, rfl⟩ := h.eq
  rfl

theorem Adopts.current {machine adopted : Machine} {fresh : Option Nat} {logs : List RawLog}
    (h : Adopts machine adopted fresh logs) : adopted.current = fresh := by
  obtain ⟨quiet, subscriptions, -, -, rfl⟩ := h.eq
  rfl

theorem Adopts.phase {machine adopted : Machine} {fresh : Option Nat} {logs : List RawLog}
    (h : Adopts machine adopted fresh logs) : adopted.phase = machine.phase := by
  obtain ⟨quiet, subscriptions, -, -, rfl⟩ := h.eq
  rfl

theorem Adopts.connected {machine adopted : Machine} {fresh : Option Nat} {logs : List RawLog}
    (h : Adopts machine adopted fresh logs) : adopted.connected = true := by
  obtain ⟨quiet, subscriptions, -, -, rfl⟩ := h.eq
  rfl

theorem Adopts.stages {machine adopted : Machine} {fresh : Option Nat} {logs : List RawLog}
    (h : Adopts machine adopted fresh logs) :
    machine.subscriptions.Shut adopted.subscriptions ∧
      adopted.pipeline =
        { id := machine.stageCount + 1, source := sourceOf fresh } ::
          { id := machine.stageCount, source := .batch logs } :: machine.pipeline := by
  obtain ⟨quiet, subscriptions, -, hshut, rfl⟩ := h.eq
  exact ⟨hshut, rfl⟩

theorem Adopts.history {machine adopted : Machine} {fresh : Option Nat} {logs : List RawLog}
    (h : Adopts machine adopted fresh logs) :
    ∃ quiet, quiet.IsQuiet ∧
      adopted.history = History.round true machine.registry ++ quiet ++ machine.history := by
  obtain ⟨quiet, subscriptions, hquiet, -, rfl⟩ := h.eq
  exact ⟨quiet, hquiet, history_record ..⟩

theorem adopts_adopt (machine : Machine) (fresh : Option Nat) (logs : List RawLog) :
    Adopts machine (machine.adopt fresh logs) fresh logs := by
  obtain ⟨quiet, subscriptions, heq, hquiet, hshut⟩ :=
    ((machine.appendStage (.batch logs)).appendStage (sourceOf fresh)).letsGo_discard
      machine.current
  refine ⟨quiet, subscriptions, hquiet, hshut, ?_⟩
  simp only [appendStage] at heq
  simp only [adopt, appendStage, heq, notifyConnected_eq]
  simp [record]

/-- What completing a pass can come to: the room for logs is too great for a channel, or the
subscription is taken into use, and then processing begins unless the debounce time is zero. -/
inductive PassEnds (machine : Machine) (fresh : Option Nat) (logs : List RawLog) :
    Machine → Prop
  | overcrowded {after : Machine} {quiet : History}
      (hroom : RelayParameters.greatestRoom < machine.parameters.logRoom)
      (hdown : BreaksDown (machine.record [.gathered logs fresh]) after quiet) :
      PassEnds machine fresh logs after
  | restless {after adopted : Machine} {quiet : History}
      (hadopts : Adopts (machine.record [.gathered logs fresh]) adopted fresh logs)
      (hdebounce : machine.parameters.debounce = 0) (hdown : BreaksDown adopted after quiet) :
      PassEnds machine fresh logs after
  | completed {adopted : Machine}
      (hadopts : Adopts (machine.record [.gathered logs fresh]) adopted fresh logs) :
      PassEnds machine fresh logs
        { adopted with
          phase := .processing (adopted.now + adopted.parameters.debounce) false true }

theorem passEnds_completePass (machine : Machine) (fresh : Option Nat) (logs : List RawLog) :
    PassEnds machine fresh logs (machine.completePass fresh logs) := by
  have hadopts := adopts_adopt (machine.emit (.gathered logs fresh)) fresh logs
  simp only [completePass]
  split
  next hroom =>
    obtain ⟨quiet, hdown⟩ := (machine.emit (.gathered logs fresh)).breaksDown_crash fresh
    exact .overcrowded hroom hdown
  next =>
    split
    next hdebounce =>
      obtain ⟨quiet, hdown⟩ :=
        ((machine.emit (.gathered logs fresh)).adopt fresh logs).breaksDown_crash none
      exact .restless hadopts (hadopts.parameters ▸ hdebounce) hdown
    next => exact .completed hadopts

theorem beginPass_eq (machine : Machine) :
    machine.beginPass =
      if machine.registry.addresses = [] then
        (machine.record [.began []]).completePass none []
      else
        { machine.record [.began machine.registry.addresses] with
          phase := .subscribing machine.registry.addresses 0 .due } := by
  simp only [beginPass, emit_eq, List.isEmpty_iff]
  split
  next hnone => rw [hnone]
  next => rfl

/-! ## Requests and logs -/

theorem handle?_eq_some {machine after : Machine} {caller : CallerId} {command : Command}
    {changed : Bool} (h : machine.handle? caller command = some (changed, after)) :
    ∃ callers, callers.map Caller.asPosted = machine.callers.map Caller.asPosted ∧
      callers = (machine.answerCaller (some machine.connected) caller).callers ∧
      changed = machine.registry.changes command ∧
      ¬ machine.registry.Repeats command ∧
      after = { machine with registry := machine.registry.apply command, callers }.record
        (History.handling caller command) := by
  cases command with
  | register address listener =>
      cases hadd : machine.registry.add? address listener with
      | none => simp [handle?, emit, hadd] at h
      | some result =>
          obtain ⟨added, registry⟩ := result
          simp only [handle?, emit, hadd, Option.bind_eq_bind, Option.bind_some, Option.pure_def,
            Option.some.injEq, Prod.mk.injEq] at h
          obtain ⟨rfl, rfl⟩ := h
          obtain ⟨habsent, hadded, -⟩ := Registry.add?_eq_some hadd
          refine ⟨_, map_asPosted_answerCaller machine (some machine.connected) caller, rfl, hadded,
            habsent, ?_⟩
          simp only [Registry.apply, hadd]
          rfl
  | unregister address listener =>
      simp only [handle?, Option.some.injEq, Prod.mk.injEq] at h
      obtain ⟨rfl, rfl⟩ := h
      exact ⟨_, map_asPosted_answerCaller machine (some machine.connected) caller, rfl, rfl, id,
        rfl⟩

theorem handle?_eq_none {machine : Machine} {caller : CallerId} {command : Command}
    (h : machine.handle? caller command = none) : machine.registry.Repeats command := by
  cases command with
  | register address listener =>
      cases hadd : machine.registry.add? address listener with
      | none => exact Registry.add?_eq_none_iff.mp hadd
      | some result => simp [handle?, emit, hadd] at h
  | unregister address listener => simp [handle?] at h

/-- A log is delivered to all listeners, or to those before one that breaks down. -/
theorem deliverTo_eq (log : RawLog) (listeners : List ListenerId) (machine : Machine) :
    ((∀ listener ∈ listeners, machine.breaksOn listener log = false) ∧
        deliverTo log listeners machine = machine.record (History.handOut log listeners)) ∨
      ∃ before listener after, listeners = before ++ listener :: after ∧
        machine.breaksOn listener log = true ∧
        deliverTo log listeners machine =
          (machine.record (History.handOut log before)).crash none := by
  induction listeners generalizing machine with
  | nil => exact .inl ⟨by simp, rfl⟩
  | cons listener rest ih =>
      cases hbreaks : machine.breaksOn listener log with
      | true =>
          refine .inr ⟨[], listener, rest, rfl, hbreaks, ?_⟩
          simp [deliverTo, hbreaks, History.handOut]
      | false =>
          have hdeliver : deliverTo log (listener :: rest) machine =
              deliverTo log rest (machine.emit (.delivered listener log)) := by
            simp [deliverTo, hbreaks]
          rcases ih (machine.emit (.delivered listener log)) with ⟨hall, heq⟩ |
            ⟨before, broken, after, rfl, hbroken, heq⟩
          · refine .inl ⟨List.forall_mem_cons.mpr ⟨hbreaks, hall⟩, ?_⟩
            rw [hdeliver, heq, emit_eq, record_record]
            simp [History.handOut]
          · refine .inr ⟨listener :: before, broken, after, rfl, hbroken, ?_⟩
            rw [hdeliver, heq, emit_eq, record_record]
            simp [History.handOut]

theorem dispatch_eq (machine : Machine) (log : RawLog) :
    machine.dispatch log = deliverTo log (History.receivers log machine.registry) machine := by
  unfold dispatch History.receivers
  split
  next => rfl
  next => rfl

/-- A log goes to all its receivers, or to those before one that breaks down. -/
theorem dispatch_cases (machine : Machine) (log : RawLog) :
    ((∀ listener ∈ History.receivers log machine.registry,
        machine.breaksOn listener log = false) ∧
      machine.dispatch log =
        machine.record (History.handOut log (History.receivers log machine.registry))) ∨
    ∃ before listener rest quiet,
      History.receivers log machine.registry = before ++ listener :: rest ∧
        machine.breaksOn listener log = true ∧
        BreaksDown (machine.record (History.handOut log before)) (machine.dispatch log) quiet := by
  rw [dispatch_eq]
  rcases deliverTo_eq log (History.receivers log machine.registry) machine with
    hall | ⟨before, listener, rest, hreceivers, hbreaks, heq⟩
  · exact .inl hall
  · obtain ⟨quiet, hdown⟩ := (machine.record (History.handOut log before)).breaksDown_crash none
    exact .inr ⟨before, listener, rest, quiet, hreceivers, hbreaks, heq ▸ hdown⟩

end Machine

end LogRelay
