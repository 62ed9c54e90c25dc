import LogRelay.Proofs.ControlStep
import LogRelay.Proofs.Moves

/-!
# Runs of a relay

A relay runs by moves, whose order is free.  What holds in every reachable state is proved
by induction on the run (`Reachable.always`), and so is what holds from some moment on
(`Reachable.along`).  The steps of the control task are those of `ControlStep`, and all
other moves are collected in `OutsideStep`; none of them changes the registry, the
subscription that is in use, or what the relay says about its connection.
-/

namespace LogRelay

namespace Machine

/-- A relay that was not started; the listeners may break down on any logs. -/
def initial (parameters : RelayParameters) (breaksOn : ListenerId → RawLog → Bool) : Machine :=
  { create parameters with breaksOn }

/-- What moves one after the other lead to; `none` if one of them is not possible. -/
def run? (machine : Machine) (moves : List Move) : Option Machine := moves.foldlM perform? machine

/-- The states that a relay can reach. -/
inductive Reachable : Machine → Prop
  | initial (parameters : RelayParameters) (breaksOn : ListenerId → RawLog → Bool) :
      Reachable (Machine.initial parameters breaksOn)
  | move {machine after : Machine} (move : Move) (hreach : Reachable machine)
      (hperform : machine.perform? move = some after) : Reachable after

theorem Reachable.run {machine after : Machine} {moves : List Move} (h : Reachable machine)
    (hrun : machine.run? moves = some after) : Reachable after := by
  induction moves generalizing machine with
  | nil =>
      cases hrun
      exact h
  | cons move moves ih =>
      obtain ⟨middle, hperform, hrest⟩ := Option.bind_eq_some_iff.mp hrun
      exact ih (h.move move hperform) hrest

theorem Reachable.getD_run? {machine : Machine} {moves : List Move} (h : Reachable machine)
    (hsome : (machine.run? moves).isSome = true) :
    Reachable ((machine.run? moves).getD default) := by
  obtain ⟨after, hafter⟩ := Option.isSome_iff_exists.mp hsome
  rw [hafter, Option.getD_some]
  exact h.run hafter

theorem run?_append {machine middle : Machine} {first rest : List Move}
    (hfirst : machine.run? first = some middle) :
    machine.run? (first ++ rest) = middle.run? rest := by
  rw [run?, List.foldlM_append]
  change machine.run? first >>= _ = _
  rw [hfirst]
  rfl

/-! ## The other moves -/

/-- A move that is not a step of the control task. -/
inductive OutsideStep (machine : Machine) : Machine → Prop
  /-- A stage of the log stream takes a step. -/
  | staged {id : Nat} {pipeline : Pipeline} {subscriptions : Subscriptions}
      (hstep : machine.pipeline.step? machine.signalled machine.parameters.logRoom id
        machine.subscriptions = some (pipeline, subscriptions)) :
      OutsideStep machine { machine with pipeline, subscriptions }
  /-- A log is accepted on a subscription. -/
  | accepted {number : Nat} {log : RawLog} {subscription : ClientSubscription}
      (hnumber : machine.subscriptions[number]? = some subscription)
      (htakes : subscription.takesLogs = true) :
      OutsideStep machine
        ({ machine with
          subscriptions := machine.subscriptions.set number
            { subscription with logs := subscription.logs ++ [log] } }.record
              [.accepted number log])
  /-- The client reports failures or gives up what it has to a subscription. -/
  | shut {subscriptions : Subscriptions} (hshut : machine.subscriptions.Shut subscriptions)
      (hmarks : subscriptions.marks = machine.subscriptions.marks)
      (hattended : machine.subscriptions.Attended → subscriptions.Attended) :
      OutsideStep machine { machine with subscriptions }
  /-- The client makes a subscription. -/
  | opened (room : ChannelRoom) :
      OutsideStep machine { machine with subscriptions := machine.subscriptions ++ [{ room }] }
  /-- The client gives a subscription away. -/
  | granted {number subscription : Nat} (hawaits : machine.awaits number = true)
      (hnew : subscription ∉ machine.history.obtained)
      (hmade : subscription < machine.subscriptions.length) :
      OutsideStep machine { machine with answer := some (.subscribed subscription) }
  /-- The client gives another answer. -/
  | replied {answer : ClientAnswer} (hanswer : answer.isSubscription = false) :
      OutsideStep machine { machine with answer := some answer }
  /-- The relay is started. -/
  | started (hphase : machine.phase = .idle) :
      OutsideStep machine { machine with lifecycle := .running, phase := .waiting }
  /-- Something else changes around the control task. -/
  | arranged {now : Nat} {raised held : Bool} {dependents : Dependents} {lifecycle : Lifecycle}
      {mailbox : Mailbox} {callers : List Caller}
      (hsignal : machine.signalled = true →
        (raised || (!held && callers.all Caller.isDone)) = true)
      (hlifecycle : lifecycle = .created → machine.lifecycle = .created)
      (hnow : machine.now ≤ now) :
      OutsideStep machine
        { machine with now, raised, held, dependents, lifecycle, mailbox, callers }

variable {machine after : Machine}

/-- What the moves that are not steps of the control task leave alone. -/
structure Aside (machine after : Machine) : Prop where
  parameters : after.parameters = machine.parameters
  breaksOn : after.breaksOn = machine.breaksOn
  registry : after.registry = machine.registry
  connected : after.connected = machine.connected
  current : after.current = machine.current
  phase : after.phase = machine.phase ∨ machine.phase = .idle ∧ after.phase = .waiting
  history : after.history = machine.history ∨
    ∃ number log, after.history = .accepted number log :: machine.history

theorem OutsideStep.aside (h : OutsideStep machine after) : Aside machine after := by
  cases h with
  | accepted => exact ⟨rfl, rfl, rfl, rfl, rfl, .inl rfl, .inr ⟨_, _, rfl⟩⟩
  | started hphase => exact ⟨rfl, rfl, rfl, rfl, rfl, .inr ⟨hphase, rfl⟩, .inl rfl⟩
  | _ => exact ⟨rfl, rfl, rfl, rfl, rfl, .inl rfl, .inl rfl⟩

theorem Aside.phase_eq (h : Aside machine after) (hphase : after.phase ≠ .waiting) :
    machine.phase = after.phase := by
  rcases h.phase with hsame | ⟨-, hwaiting⟩
  · exact hsame.symm
  · exact absurd hwaiting hphase

theorem Aside.alike (h : Aside machine after) : machine.history.Alike after.history := by
  rcases h.history with heq | ⟨number, log, heq⟩
  · rw [heq]
    exact .refl _
  · rw [heq]
    exact History.alike_accepted ..

/-! ## Calls -/

theorem signalled_eq (machine : Machine) :
    machine.signalled = (machine.raised || (!machine.held && machine.callers.all Caller.isDone)) :=
  rfl

/-- A call that moves on was not done, so that the shutdown signal had to be raised. -/
theorem raised_of_signalled {id : CallerId} {caller : Caller}
    (hcaller : machine.callers[id]? = some caller) (hdone : caller.isDone = false)
    (hsignal : machine.signalled = true) : machine.raised = true := by
  -- Otherwise all handles are gone and all calls have returned, and this one has not.
  rw [signalled_eq, Bool.or_eq_true, Bool.and_eq_true, List.all_eq_true] at hsignal
  rcases hsignal with hraised | ⟨-, hall⟩
  · exact hraised
  · rw [hall caller (List.mem_of_getElem? hcaller)] at hdone
    cases hdone

theorem outsideStep_of_callerStep {id : CallerId} {caller : Caller}
    (hcaller : machine.callers[id]? = some caller) (hstep : CallerStep machine id caller after) :
    OutsideStep machine after := by
  obtain ⟨mailbox, raised, lifecycle, callers, hkept, hlifecycle, rfl⟩ := hstep.eq
  refine .arranged (fun hsignal => ?_) hlifecycle (Nat.le_refl machine.now)
  have hraised := raised_of_signalled hcaller hstep.isDone_eq_false hsignal
  rw [hkept hraised, Bool.true_or]

theorem outsideStep_of_perform? {move : Move} (hmove : move ≠ .step .control)
    (hidle : machine.lifecycle = .created → machine.phase = .idle)
    (h : machine.perform? move = some after) : OutsideStep machine after := by
  cases moveStep_of_perform? h with
  | controlled => exact absurd rfl hmove
  | staged hstep => exact .staged hstep
  | advanced hcaller hstep => exact outsideStep_of_callerStep hcaller hstep
  | started hcreated => exact .started (hidle hcreated)
  | called hheld =>
      refine .arranged (fun hsignal => ?_) id (Nat.le_refl machine.now)
      rw [signalled_eq, hheld] at hsignal
      rw [hheld]
      simpa using hsignal
  | released =>
      refine .arranged (fun hsignal => ?_) id (Nat.le_refl machine.now)
      rw [signalled_eq, Bool.or_eq_true, Bool.and_eq_true] at hsignal
      rcases hsignal with hraised | ⟨-, hdone⟩
      · rw [hraised, Bool.true_or]
      · rw [hdone, Bool.not_false, Bool.true_and, Bool.or_true]
  | arranged hnow => exact .arranged id id hnow
  | replied _ hanswer => exact .replied hanswer
  | granted hawaits hnew hmade => exact .granted hawaits hnew hmade
  | opened room => exact .opened room
  | accepted hnumber htakes => exact .accepted hnumber htakes
  | shut hshut hmarks hattended => exact .shut hshut hmarks hattended

/-! ## What the control task leaves alone -/

/-- What no step of the control task changes. -/
structure Frame (machine after : Machine) : Prop where
  parameters : after.parameters = machine.parameters
  breaksOn : after.breaksOn = machine.breaksOn
  lifecycle : after.lifecycle = machine.lifecycle
  raised : after.raised = machine.raised
  held : after.held = machine.held
  callers : after.callers.map Caller.asPosted = machine.callers.map Caller.asPosted

theorem Frame.trans {first second third : Machine} (h : Frame first second)
    (h' : Frame second third) : Frame first third where
  parameters := h'.parameters.trans h.parameters
  breaksOn := h'.breaksOn.trans h.breaksOn
  lifecycle := h'.lifecycle.trans h.lifecycle
  raised := h'.raised.trans h.raised
  held := h'.held.trans h.held
  callers := h'.callers.trans h.callers

theorem frame_record (machine : Machine) (effects : History) :
    Frame machine (machine.record effects) :=
  ⟨rfl, rfl, rfl, rfl, rfl, rfl⟩

theorem Frame.signalled (h : Frame machine after) : after.signalled = machine.signalled := by
  have hall : ∀ relay : Machine,
      relay.callers.all Caller.isDone = (relay.callers.map Caller.asPosted).all Caller.isDone := by
    intro relay
    rw [List.all_map]
    exact congrArg _ (funext fun caller => caller.isDone_asPosted.symm)
  rw [signalled_eq, signalled_eq, h.raised, h.held, hall, hall, h.callers]

theorem BreaksDown.frame {quiet : History} (h : BreaksDown machine after quiet) :
    Frame machine after := by
  obtain ⟨subscriptions, callers, -, hdone, rfl⟩ := h.eq
  exact ⟨rfl, rfl, rfl, rfl, rfl, hdone⟩

theorem Adopts.frame {fresh : Option Nat} {logs : List RawLog}
    (h : Adopts machine after fresh logs) : Frame machine after := by
  obtain ⟨quiet, subscriptions, -, -, rfl⟩ := h.eq
  exact ⟨rfl, rfl, rfl, rfl, rfl, rfl⟩

theorem PassEnds.frame {fresh : Option Nat} {logs : List RawLog}
    (h : PassEnds machine fresh logs after) : Frame machine after := by
  have hrecord := machine.frame_record [.gathered logs fresh]
  cases h with
  | overcrowded hroom hdown => exact hrecord.trans hdown.frame
  | restless hadopts hdebounce hdown => exact (hrecord.trans hadopts.frame).trans hdown.frame
  | completed hadopts => exact (hrecord.trans hadopts.frame).trans ⟨rfl, rfl, rfl, rfl, rfl, rfl⟩

theorem frame_beginPass (machine : Machine) : Frame machine machine.beginPass := by
  rw [beginPass_eq]
  split
  next => exact (frame_record ..).trans (passEnds_completePass ..).frame
  next => exact ⟨rfl, rfl, rfl, rfl, rfl, rfl⟩

theorem frame_leave (machine : Machine) (fresh : Option Nat) :
    Frame machine (machine.leave fresh) := by
  obtain ⟨quiet, quiet', subscriptions, -, -, -, heq⟩ := machine.leave_eq fresh
  rw [heq]
  exact ⟨rfl, rfl, rfl, rfl, rfl, rfl⟩

theorem frame_crash (machine : Machine) (fresh : Option Nat) :
    Frame machine (machine.crash fresh) := by
  obtain ⟨quiet, hdown⟩ := machine.breaksDown_crash fresh
  exact hdown.frame

theorem frame_dispatch (machine : Machine) (log : RawLog) :
    Frame machine (machine.dispatch log) := by
  rcases machine.dispatch_cases log with ⟨-, heq⟩ | ⟨before, listener, rest, quiet, -, -, hdown⟩
  · rw [heq]
    exact frame_record ..
  · exact (frame_record ..).trans hdown.frame

theorem ControlStep.frame (h : ControlStep machine after) : Frame machine after := by
  cases h with
  | interrupted | ticked | streamEnded => exact ⟨rfl, rfl, rfl, rfl, rfl, rfl⟩
  | ready | resubscribed => exact frame_beginPass machine
  | handled _ _ _ hdone => exact ⟨rfl, rfl, rfl, rfl, rfl, hdone⟩
  | repeated =>
      refine Frame.trans ?_ (frame_crash ..)
      exact ⟨rfl, rfl, rfl, rfl, rfl, map_asPosted_answerCaller ..⟩
  | left => exact frame_leave ..
  | talked _ htalk =>
      obtain ⟨phase, requestCount, answer, talk, -, -, -, rfl⟩ := htalk.eq
      exact ⟨rfl, rfl, rfl, rfl, rfl, rfl⟩
  | fetched => exact (frame_record ..).trans (passEnds_completePass ..).frame
  | lost =>
      refine Frame.trans ?_ (frame_beginPass _)
      rw [notifyDisconnected_eq]
      exact ⟨rfl, rfl, rfl, rfl, rfl, rfl⟩
  | took =>
      refine Frame.trans ?_ (frame_dispatch ..)
      exact ⟨rfl, rfl, rfl, rfl, rfl, rfl⟩
  | ended =>
      obtain ⟨callers, heq, hdone⟩ := machine.closeMailbox_eq
      rw [heq]
      exact ⟨rfl, rfl, rfl, rfl, rfl, hdone⟩

/-! ## Induction on a run -/

/-- A relay that was never started does nothing. -/
theorem Reachable.idle_of_created (h : Reachable machine)
    (hcreated : machine.lifecycle = .created) : machine.phase = .idle := by
  induction h with
  | initial => rfl
  | @move machine after move hreach hperform ih =>
      by_cases hmove : move = .step .control
      · -- A control task that was not started takes no step at all.
        subst hmove
        have hstep := controlStep_of_stepControl? hperform
        have hidle : machine.phase = .idle := ih (hstep.frame.lifecycle ▸ hcreated)
        change machine.stepControl? = some after at hperform
        simp [stepControl?, hidle] at hperform
      · cases outsideStep_of_perform? hmove ih hperform with
        | started => cases hcreated
        | arranged _ hlifecycle => exact ih (hlifecycle hcreated)
        | _ => exact ih hcreated

/-- What holds at first and is preserved by every move holds in every state that is reached. -/
@[elab_as_elim]
theorem Reachable.always {motive : (machine : Machine) → Reachable machine → Prop}
    (initial : ∀ parameters breaksOn,
      motive (Machine.initial parameters breaksOn) (.initial parameters breaksOn))
    (control : ∀ {machine after} (hreach : Reachable machine) (hafter : Reachable after),
      ControlStep machine after → motive machine hreach → motive after hafter)
    (outside : ∀ {machine after} (hreach : Reachable machine) (hafter : Reachable after),
      OutsideStep machine after → motive machine hreach → motive after hafter)
    {machine : Machine} (h : Reachable machine) : motive machine h := by
  induction h with
  | initial parameters breaksOn => exact initial parameters breaksOn
  | move move hreach hperform ih =>
      have hafter := hreach.move move hperform
      by_cases hmove : move = .step .control
      · subst hmove
        exact control hreach hafter (controlStep_of_stepControl? hperform) ih
      · have hstep := outsideStep_of_perform? hmove hreach.idle_of_created hperform
        exact outside hreach hafter hstep ih

/-- What every move preserves is preserved as long as the relay runs. -/
theorem Reachable.along {P : Machine → Prop} {moves : List Move} (h : Reachable machine)
    (hmove : ∀ {first second : Machine} (move : Move), Reachable first →
      first.perform? move = some second → P first → P second)
    (hbefore : P machine) (hrun : machine.run? moves = some after) : P after := by
  induction moves generalizing machine with
  | nil =>
      cases hrun
      exact hbefore
  | cons move moves ih =>
      obtain ⟨middle, hperform, hrest⟩ := Option.bind_eq_some_iff.mp hrun
      exact ih (h.move move hperform) (hmove move h hperform hbefore) hrest

theorem Reachable.parameters_eq {moves : List Move} (h : Reachable machine)
    (hrun : machine.run? moves = some after) : after.parameters = machine.parameters := by
  refine h.along (P := fun later => later.parameters = machine.parameters) ?_ rfl hrun
  intro first second move hreach hperform hsame
  by_cases hmove : move = .step .control
  · subst hmove
    exact (controlStep_of_stepControl? hperform).frame.parameters.trans hsame
  · have hstep := outsideStep_of_perform? hmove hreach.idle_of_created hperform
    exact hstep.aside.parameters.trans hsame

end Machine

/-! ## A short run -/

namespace Sample

/-- The address of a contract. -/
def address : Address := Word.zero 20

/-- A log of the contract. -/
def log : RawLog := { address }

/-- Channels with room for one. -/
def room : ChannelRoom := ⟨1, 1, Nat.one_pos, Nat.one_pos⟩

/-- Channels with room for one here as well. -/
def parameters : RelayParameters where
  depth := 0
  requestTimeout := 1000
  createTimeout := 1000
  debounce := 50
  delay _ := 10
  commandRoom := 1
  logRoom := 1

/-- A listener is registered, and the first pass that has an address begins to fetch. -/
def movesToFetch : List Move :=
  [.call (.command (.register address 0)), .step (.caller 0), .start, .step .control,
    .step .control, .wait 50, .step .control, .step .control, .openSubscription room, .grant 0 0,
    .step .control, .step .control, .reply 1 (.header (some { number := 5 })), .step .control]

/-- One log is fetched, goes through all stages and is delivered. -/
def movesToDeliver : List Move :=
  movesToFetch ++ [.reply 2 (.logs [log]), .step .control, .step (.stage 0), .step (.stage 1),
    .step (.stage 1), .step (.stage 2), .step (.stage 2), .step (.stage 2), .step (.stage 3),
    .step (.stage 3), .step .control]

/-- The relay before the run. -/
def start : Machine := Machine.initial parameters fun _ _ => false

/-- The relay after the run. -/
def machine : Machine := (start.run? movesToDeliver).getD default

theorem reachable : machine.Reachable :=
  Machine.Reachable.getD_run? (.initial parameters fun _ _ => false) (by decide)

end Sample

end LogRelay
