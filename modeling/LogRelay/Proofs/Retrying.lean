import LogRelay.Proofs.Attempts
import LogRelay.Proofs.LateAnswers
import LogRelay.Proofs.Shutdown

/-!
# The relay tries again until it succeeds or has to stop

A loop of attempts that has begun stays under way (`UnderWay`) until an attempt succeeds
(`Succeeds`) or the shutdown signal is raised (`GivesUp`); no move of the relay or of the world
around it ends it otherwise.  This is proved for one step of the control task, for every other
move, and then for runs (`UnderWay.of_run`).  While it is under way, what was said in it is
`Loop.Talks`: an attempt begins only when the one before has failed and the delay after that
failure is over.

A relay that is in a loop has begun it with no failure counted (`Reachable.exists_begins`).
-/

namespace LogRelay

namespace Machine

variable {start machine after : Machine} {loop : Loop} {prompt : Prop} {failures : Nat}
  {standing : Standing} {attempt : Attempt} {moves : List Move}

/-! ## Prompt relays -/

/-- The time of an attempt that waits for an answer is not over. -/
def Punctual (machine : Machine) : Prop :=
  ∀ request number deadline, machine.phase.attempt? = some (.asking request number deadline) →
    machine.now ≤ deadline

/-- The clock never passes the end of an attempt: the relay looks as soon as its time is over. -/
def Prompt (machine : Machine) (moves : List Move) : Prop :=
  ∀ first rest middle, moves = first ++ rest → machine.run? first = some middle → middle.Punctual

/-! ## A loop under way -/

/-- A loop begins: nothing has failed yet. -/
structure Begins (loop : Loop) (machine : Machine) : Prop where
  phase : machine.phase = loop.phase 0 .due
  parameters : machine.parameters = loop.parameters

/-- The attempt of a relay is where the loop stands. -/
inductive Shows (loop : Loop) (now : Nat) : Attempt → Standing → Prop
  | due {ready : Nat} (hready : ready ≤ now) : Shows loop now .due (.free ready)
  | resting {ready : Nat} : Shows loop now (.resting ready) (.free ready)
  | asking {request : ClientRequest} {number begun : Nat} :
      Shows loop now (.asking request number (begun + loop.timeout)) (.waiting begun request)

/-- A loop that has begun at `start` is under way: so many attempts have failed, and it stands
there. -/
structure UnderWay (loop : Loop) (prompt : Prop) (start machine : Machine) (failures : Nat)
    (standing : Standing) : Prop where
  parameters : machine.parameters = loop.parameters
  phase : ∃ attempt, machine.phase = loop.phase (min failures greatestFailureCount) attempt ∧
    Shows loop machine.now attempt standing
  talk : ∃ newer : Trace, machine.trace = newer ++ start.trace ∧
    loop.Talks prompt start.now newer.talk failures standing

/-- An attempt succeeds, and the relay takes what it has got. -/
structure Succeeds (loop : Loop) (prompt : Prop) (machine after : Machine) (standing : Standing) :
    Prop where
  signalled : machine.signalled = false
  taken : ∃ begun request answer, standing = .waiting begun request ∧
    machine.answer = some answer ∧ loop.reaction request answer = .success ∧
    (prompt → machine.now ≤ begun + loop.timeout) ∧
    after = loop.conclude answer (machine.record [.answered request answer])

/-- The relay leaves because of the shutdown signal, and asks for nothing any more. -/
structure GivesUp (machine after : Machine) : Prop where
  signalled : machine.signalled = true
  left : after = machine.leave machine.phase.fresh?
  silent : ∀ moves later, after.run? moves = some later →
    ∃ newer, later.history = newer ++ machine.history ∧
      ∀ effect ∈ newer, effect.IsFarewell ∧ ¬ effect.IsTalk

/-- So many attempts have been made in a loop as have failed or are being made. -/
theorem UnderWay.countAsked (h : UnderWay loop prompt start machine failures standing) :
    Trace.countAsked loop.opening machine.trace =
      Trace.countAsked loop.opening start.trace + (failures + standing.attempts) := by
  obtain ⟨newer, htrace, htalks⟩ := h.talk
  calc Trace.countAsked loop.opening machine.trace
      = newer.countAsked loop.opening + Trace.countAsked loop.opening start.trace := by
        rw [htrace, Trace.countAsked_append]
    _ = newer.talk.countAsked loop.opening + Trace.countAsked loop.opening start.trace := by
        rw [Trace.countAsked_talk]
    _ = Trace.countAsked loop.opening start.trace + (failures + standing.attempts) := by
        rw [htalks.countAsked_opening]
        omega

theorem UnderWay.mono {prompt' : Prop} (h : UnderWay loop prompt start machine failures standing)
    (himp : prompt' → prompt) : UnderWay loop prompt' start machine failures standing := by
  obtain ⟨newer, htrace, htalks⟩ := h.talk
  exact ⟨h.parameters, h.phase, newer, htrace, htalks.mono himp⟩

theorem Begins.underWay (h : Begins loop start) :
    UnderWay loop prompt start start 0 (.free start.now) where
  parameters := h.parameters
  phase := ⟨.due, h.phase, .due (Nat.le_refl _)⟩
  talk := ⟨[], rfl, .begun⟩

/-- What is said next. -/
theorem UnderWay.talk_cons (h : UnderWay loop prompt start machine failures standing)
    (effect : Effect) (heffect : effect.IsTalk) :
    ∃ newer : Trace, (machine.record [effect]).trace = newer ++ start.trace ∧
      ∃ talk, newer.talk = (machine.now, effect) :: talk ∧
        loop.Talks prompt start.now talk failures standing := by
  obtain ⟨newer, htrace, htalks⟩ := h.talk
  refine ⟨(machine.now, effect) :: newer, ?_, newer.talk, ?_, htalks⟩
  · exact congrArg ((machine.now, effect) :: ·) htrace
  · exact List.filter_cons_of_pos (decide_eq_true heffect)

/-- The clock goes on, and the client may send logs on its subscriptions. -/
theorem UnderWay.of_outsideStep (h : UnderWay loop prompt start machine failures standing)
    (hstep : OutsideStep machine after) :
    UnderWay loop prompt start after failures standing := by
  have haside := hstep.aside
  obtain ⟨attempt, hphase, hshows⟩ := h.phase
  obtain ⟨newer, htrace, htalks⟩ := h.talk
  have hkept : after.phase = machine.phase := by
    rcases haside.phase with hsame | ⟨hidle, -⟩
    · exact hsame
    · cases Loop.isActive_of_eq (hidle.symm.trans hphase)
  have hnow : machine.now ≤ after.now := by
    cases hstep with
    | arranged _ _ hnow => exact hnow
    | _ => exact Nat.le_refl _
  refine ⟨haside.parameters.trans h.parameters, ⟨attempt, hkept.trans hphase, ?_⟩, ?_⟩
  · cases hshows with
    | due hready => exact .due (Nat.le_trans hready hnow)
    | resting => exact .resting
    | asking => exact .asking
  · cases hstep with
    | accepted => exact ⟨_ :: newer, congrArg (_ :: ·) htrace, htalks⟩
    | _ => exact ⟨newer, htrace, htalks⟩

/-! ## Steps of a loop -/

theorem oneMore_min (failures : Nat) :
    oneMore (min failures greatestFailureCount) = min (failures + 1) greatestFailureCount := by
  unfold oneMore
  omega

/-- An attempt has failed. -/
theorem UnderWay.retry {effect : Effect} {request : ClientRequest} {begun : Nat}
    (h : UnderWay loop prompt start machine failures (.waiting begun request))
    (heffect : effect.IsTalk)
    (htalks : ∀ talk, loop.Talks prompt start.now talk failures (.waiting begun request) →
      loop.Talks prompt start.now ((machine.now, effect) :: talk) (failures + 1)
        (.free (machine.now + loop.delay (failures + 1)))) :
    UnderWay loop prompt start
      (loop.retry (min failures greatestFailureCount) (machine.record [effect])) (failures + 1)
      (.free (machine.now + loop.delay (failures + 1))) := by
  obtain ⟨newer, htrace, talk, hnewer, hbefore⟩ := h.talk_cons _ heffect
  refine ⟨h.parameters, ⟨_, ?_, .resting⟩, newer, htrace, ?_⟩
  · unfold Loop.retry Loop.delay
    rw [oneMore_min]
    rfl
  · rw [hnewer]
    exact htalks talk hbefore

/-- The delay after a failure is over. -/
theorem UnderWay.due {ready : Nat}
    (h : UnderWay loop prompt start machine failures (.free ready)) (hready : ready ≤ machine.now) :
    UnderWay loop prompt start
      { machine with phase := loop.phase (min failures greatestFailureCount) .due } failures
      (.free ready) :=
  ⟨h.parameters, ⟨.due, rfl, .due hready⟩, h.talk⟩

/-- An attempt begins. -/
theorem UnderWay.ask {ready : Nat}
    (h : UnderWay loop prompt start machine failures (.free ready)) (hready : ready ≤ machine.now) :
    UnderWay loop prompt start
      (machine.ask loop.opening (machine.now + loop.timeout)
        (loop.phase (min failures greatestFailureCount))) failures
      (.waiting machine.now loop.opening) := by
  obtain ⟨newer, htrace, talk, hnewer, hbefore⟩ :=
    h.talk_cons (.asked loop.opening) trivial
  refine ⟨h.parameters, ⟨_, rfl, .asking⟩, newer, htrace, ?_⟩
  rw [hnewer]
  exact .called hbefore hready

/-- An attempt goes on with another request. -/
theorem UnderWay.askFurther {request next : ClientRequest} {begun : Nat} {answer : ClientAnswer}
    (h : UnderWay loop prompt start machine failures (.waiting begun request))
    (hreaction : loop.reaction request answer = .further next)
    (hprompt : prompt → machine.now ≤ begun + loop.timeout) :
    UnderWay loop prompt start
      ((machine.record [.answered request answer]).ask next (begun + loop.timeout)
        (loop.phase (min failures greatestFailureCount))) failures (.waiting begun next) := by
  obtain ⟨newer, htrace, talk, hnewer, hbefore⟩ :=
    h.talk_cons (.answered request answer) trivial
  refine ⟨h.parameters, ⟨_, rfl, .asking⟩, (machine.now, .asked next) :: newer,
    congrArg (_ :: ·) htrace, ?_⟩
  have htalk : Trace.talk ((machine.now, .asked next) :: newer) =
      (machine.now, .asked next) :: newer.talk := List.filter_cons_of_pos (decide_eq_true trivial)
  rw [htalk, hnewer]
  exact .wentOn hbefore hreaction hprompt

/-- What the control task does in a loop: it goes on with it, or it has got what it wanted. -/
theorem UnderWay.of_step? (h : UnderWay loop prompt start machine failures standing)
    (hphase : machine.phase = loop.phase (min failures greatestFailureCount) attempt)
    (hshows : Shows loop machine.now attempt standing) (hprompt : prompt → machine.Punctual)
    (hsignal : machine.signalled = false)
    (hstep : loop.step? (min failures greatestFailureCount) machine attempt = some after) :
    (∃ failures standing, UnderWay loop prompt start after failures standing) ∨
      Succeeds loop prompt machine after standing := by
  have hintime : ∀ {request number deadline}, attempt = .asking request number deadline →
      prompt → machine.now ≤ deadline := by
    intro request number deadline heq hp
    refine hprompt hp request number deadline ?_
    rw [hphase, heq]
    exact Loop.attempt?_phase _ _
  cases hshows with
  | due hready =>
      cases hstep
      exact .inl ⟨failures, _, h.ask hready⟩
  | @resting ready =>
      simp only [Loop.step?] at hstep
      split at hstep
      next hready =>
        cases hstep
        exact .inl ⟨failures, _, h.due hready⟩
      next => cases hstep
  | @asking request number begun =>
      simp only [Loop.step?] at hstep
      split at hstep
      next answer hanswer =>
        have htime := hintime rfl
        split at hstep
        next hreaction =>
          cases hstep
          exact .inr ⟨hsignal, begun, request, answer, rfl, hanswer, hreaction, htime, rfl⟩
        next next hreaction =>
          cases hstep
          exact .inl ⟨failures, _, h.askFurther hreaction htime⟩
        next hreaction =>
          cases hstep
          exact .inl ⟨failures + 1, _,
            h.retry trivial fun talk hbefore => .refused hbefore hreaction htime⟩
      next hanswer =>
        split at hstep
        next hlate =>
          cases hstep
          exact .inl ⟨failures + 1, _,
            h.retry trivial fun talk hbefore => .gaveUp hbefore hlate⟩
        next => cases hstep

/-- Nothing that follows the shutdown signal is talk. -/
theorem not_isTalk_of_isFarewell {effect : Effect} (h : effect.IsFarewell) : ¬ effect.IsTalk := by
  intro htalk
  cases effect with
  | asked | answered | gaveUp => exact h
  | _ => exact htalk

theorem givesUp_leave (hreach : machine.Reachable) (hsignal : machine.signalled = true)
    (hstep : machine.stepControl? = some (machine.leave machine.phase.fresh?)) :
    GivesUp machine (machine.leave machine.phase.fresh?) := by
  refine ⟨hsignal, rfl, fun moves later hlater => ?_⟩
  have hrun : machine.run? (.step .control :: moves) = some later :=
    Option.bind_eq_some_iff.mpr ⟨_, hstep, hlater⟩
  obtain ⟨newer, hhistory, hkinds, -⟩ := ((Farewell.refl hsignal).of_run hreach hrun).history
  exact ⟨newer, hhistory, fun effect hmem =>
    ⟨hkinds effect hmem, not_isTalk_of_isFarewell (hkinds effect hmem)⟩⟩

/-- A step of the control task goes on with the loop, succeeds or gives up. -/
theorem UnderWay.of_stepControl? (h : UnderWay loop prompt start machine failures standing)
    (hreach : machine.Reachable) (hprompt : prompt → machine.Punctual)
    (hstep : machine.stepControl? = some after) :
    (∃ failures standing, UnderWay loop prompt start after failures standing) ∨
      Succeeds loop prompt machine after standing ∨ GivesUp machine after := by
  obtain ⟨attempt, hphase, hshows⟩ := h.phase
  have heq := stepControl?_eq hphase h.parameters
  cases hsignal : machine.signalled with
  | true =>
      rw [hsignal, if_pos rfl] at heq
      cases heq.symm.trans hstep
      exact .inr (.inr (givesUp_leave hreach hsignal heq))
  | false =>
      rw [hsignal, if_neg Bool.false_ne_true] at heq
      rcases h.of_step? hphase hshows hprompt hsignal (heq.symm.trans hstep) with hgoes | hsucceeds
      · exact .inl hgoes
      · exact .inr (.inl hsucceeds)

/-! ## Runs -/

/-- A run has come to the end of a loop that had begun with it: after so many failures an attempt
has succeeded, or the relay has given up. -/
def HasLeft (loop : Loop) (prompt : Prop) (start : Machine) (moves : List Move)
    (after : Machine) : Prop :=
  ∃ first rest middle ended failures standing,
    moves = first ++ .step .control :: rest ∧ start.run? first = some middle ∧
      UnderWay loop prompt start middle failures standing ∧
      Trace.countAsked loop.opening middle.trace =
        Trace.countAsked loop.opening start.trace + (failures + standing.attempts) ∧
      middle.stepControl? = some ended ∧ ended.run? rest = some after ∧
      (Succeeds loop prompt middle ended standing ∨ GivesUp middle ended)

theorem Prompt.punctual (h : machine.Prompt moves) : machine.Punctual :=
  h [] moves machine rfl rfl

theorem Prompt.tail {move : Move} (h : machine.Prompt (move :: moves))
    (hperform : machine.perform? move = some after) : after.Prompt moves := by
  intro first rest middle hmoves hfirst
  refine h (move :: first) rest middle (congrArg (move :: ·) hmoves) ?_
  exact Option.bind_eq_some_iff.mpr ⟨after, hperform, hfirst⟩

theorem Prompt.of_append {rest : List Move} (h : machine.Prompt (moves ++ rest)) :
    machine.Prompt moves := by
  intro first second middle hmoves hfirst
  refine h first (second ++ rest) middle ?_ hfirst
  rw [hmoves, List.append_assoc]

/-- A move goes on with a loop, or it is a step of the control task that ends it. -/
theorem UnderWay.of_perform? {move : Move}
    (h : UnderWay loop prompt start machine failures standing) (hreach : machine.Reachable)
    (hprompt : prompt → machine.Punctual) (hperform : machine.perform? move = some after) :
    (∃ failures standing, UnderWay loop prompt start after failures standing) ∨
      move = .step .control ∧
        (Succeeds loop prompt machine after standing ∨ GivesUp machine after) := by
  by_cases hmove : move = .step .control
  · subst hmove
    rcases h.of_stepControl? hreach hprompt hperform with hgoes | hends
    · exact .inl hgoes
    · exact .inr ⟨rfl, hends⟩
  · have hstep := outsideStep_of_perform? hmove hreach.idle_of_created hperform
    exact .inl ⟨failures, standing, h.of_outsideStep hstep⟩

/-- As the relay runs on, the loop stays under way or comes to its end. -/
theorem UnderWay.of_run (h : UnderWay loop prompt start machine failures standing)
    (hreach : machine.Reachable) (hprompt : prompt → machine.Prompt moves)
    (hrun : machine.run? moves = some after) (before : List Move)
    (hbefore : start.run? before = some machine) :
    (∃ failures standing, UnderWay loop prompt start after failures standing) ∨
      HasLeft loop prompt start (before ++ moves) after := by
  induction moves generalizing machine failures standing before with
  | nil =>
      cases hrun
      exact .inl ⟨failures, standing, h⟩
  | cons move moves ih =>
      obtain ⟨middle, hperform, hrest⟩ := Option.bind_eq_some_iff.mp hrun
      have hpunctual : prompt → machine.Punctual := fun hp => (hprompt hp).punctual
      rcases h.of_perform? hreach hpunctual hperform with
        ⟨failures', standing', hnext⟩ | ⟨rfl, hends⟩
      · have hmiddle : start.run? (before ++ [move]) = some middle := by
          rw [run?_append hbefore]
          exact Option.bind_eq_some_iff.mpr ⟨middle, hperform, rfl⟩
        have hlater := ih hnext (hreach.move move hperform)
          (fun hp => (hprompt hp).tail hperform) hrest _ hmiddle
        rwa [List.append_assoc, List.singleton_append] at hlater
      · exact .inr ⟨before, moves, machine, middle, failures, standing, rfl, hbefore, h,
          h.countAsked, hperform, hrest, hends⟩

/-- A step that leads to an attempt goes on with its loop, or begins it. -/
theorem ControlStep.begins {count : Nat} (hstep : ControlStep machine after)
    (hphase : after.phase = loop.phase count attempt) :
    (∃ others other, machine.phase = loop.phase others other) ∨ after.phase = loop.phase 0 .due := by
  have hattempt : after.phase.attempt? = some attempt := by
    rw [hphase]
    exact Loop.attempt?_phase ..
  obtain ⟨goal, addresses, parameters⟩ := loop
  cases goal with
  | subscription =>
      rcases hstep.clientStep_of_attempt hattempt with htalk | ⟨others, hdue⟩
      · cases htalk with
        | askedToSubscribe hbefore | restedToSubscribe hbefore | refusedToSubscribe hbefore
        | gaveUpToSubscribe hbefore =>
            cases hphase
            exact .inl ⟨_, _, hbefore⟩
        | _ => cases hphase
      · rw [hdue] at hphase
        cases hphase
        exact .inr hdue
  | logs fresh =>
      rcases hstep.clientStep_of_attempt hattempt with htalk | ⟨others, hdue⟩
      · cases htalk with
        | askedForHeader hbefore | restedToFetch hbefore | refusedToFetch hbefore
        | gaveUpToFetch hbefore | askedForLogs hbefore =>
            cases hphase
            exact .inl ⟨_, _, hbefore⟩
        | subscribed =>
            cases hphase
            exact .inr rfl
        | _ => cases hphase
      · rw [hdue] at hphase
        cases hphase

/-- The relay is not in the loop any more after an attempt has succeeded. -/
theorem Succeeds.phase_ne {count : Nat} (h : Succeeds loop prompt machine after standing) :
    after.phase ≠ loop.phase count attempt := by
  obtain ⟨begun, request, answer, -, -, hreaction, -, rfl⟩ := h.taken
  intro hphase
  unfold Loop.conclude Loop.phase at hphase
  rcases Loop.eq_of_success hreaction with ⟨hgoal, number, rfl⟩ | ⟨fresh, query, logs, hgoal, rfl, rfl⟩
  · rw [hgoal] at hphase
    cases hphase
  · rw [hgoal] at hphase
    have hends := passEnds_completePass
      (machine.record [.answered (.filter query) (.logs logs)]) fresh logs
    cases hends.attempt?.symm.trans (congrArg Phase.attempt? hphase)

theorem GivesUp.phase_ne {count : Nat} (h : GivesUp machine after) :
    after.phase ≠ loop.phase count attempt := by
  intro hphase
  obtain ⟨quiet, quiet', subscriptions, -, -, -, heq⟩ := machine.leave_eq machine.phase.fresh?
  rw [h.left, heq] at hphase
  cases Loop.isActive_of_eq hphase

/-- A relay that is in a loop has begun it, and with no failure counted. -/
theorem Reachable.exists_begins {count : Nat} (h : machine.Reachable)
    (hphase : machine.phase = loop.phase count attempt)
    (hparameters : machine.parameters = loop.parameters) :
    ∃ start moves, start.Reachable ∧ Begins loop start ∧ start.run? moves = some machine ∧
      ∃ failures standing,
        UnderWay loop (start.Prompt moves) start machine failures standing := by
  induction h generalizing count attempt with
  | initial breaksOn => cases Loop.isActive_of_eq hphase
  | @move machine after move hreach hperform ih =>
      have hafter := hreach.move move hperform
      have hsame : machine.parameters = loop.parameters := by
        have hrun : machine.run? [move] = some after :=
          Option.bind_eq_some_iff.mpr ⟨after, hperform, rfl⟩
        exact (hreach.parameters_eq hrun).symm.trans hparameters
      -- Either the loop was under way before the move, or it has begun with it.
      have hbefore : (∃ others other, machine.phase = loop.phase others other) ∨
          Begins loop after := by
        by_cases hmove : move = .step .control
        · subst hmove
          rcases (controlStep_of_stepControl? hperform).begins hphase with hbefore | hbegun
          · exact .inl hbefore
          · exact .inr ⟨hbegun, hparameters⟩
        · have hstep := outsideStep_of_perform? hmove hreach.idle_of_created hperform
          refine .inl ⟨count, attempt, (hstep.aside.phase_eq ?_).trans hphase⟩
          intro hwaiting
          cases Loop.isActive_of_eq (hwaiting.symm.trans hphase)
      rcases hbefore with ⟨others, other, hother⟩ | hbegins
      · obtain ⟨start, moves, hstart, hbegins, hrun, failures, standing, hway⟩ :=
          ih hother hsame
        have hmoves : start.run? (moves ++ [move]) = some after := by
          rw [run?_append hrun]
          exact Option.bind_eq_some_iff.mpr ⟨after, hperform, rfl⟩
        have hprompt : start.Prompt (moves ++ [move]) → machine.Punctual :=
          fun hp => hp moves [move] machine rfl hrun
        refine ⟨start, moves ++ [move], hstart, hbegins, hmoves, ?_⟩
        rcases (hway.mono Prompt.of_append).of_perform? hreach hprompt hperform with
          hgoes | ⟨-, hends⟩
        · exact hgoes
        · rcases hends with hsucceeds | hgivesUp
          · exact absurd hphase hsucceeds.phase_ne
          · exact absurd hphase hgivesUp.phase_ne
      · exact ⟨after, [], hafter, hbegins, rfl, 0, _, hbegins.underWay⟩

/-! ## What the relay does at once -/

/-- What the control task does in a loop without waiting for anything else. -/
structure Responsive (loop : Loop) (prompt : Prop) (start machine : Machine) (failures : Nat)
    (standing : Standing) : Prop where
  /-- It gives up as soon as the shutdown signal is raised, within an attempt or between two. -/
  stops : machine.signalled = true →
    ∃ after, machine.stepControl? = some after ∧ GivesUp machine after
  /-- It begins an attempt as soon as the delay is over. -/
  calls : machine.signalled = false → ∀ ready, standing = .free ready → ready ≤ machine.now →
    ∃ moves after, (∀ move ∈ moves, move = .step .control) ∧ machine.run? moves = some after ∧
      UnderWay loop prompt start after failures (.waiting machine.now loop.opening)
  /-- It takes what an attempt succeeds with. -/
  takes : machine.signalled = false → ∀ begun request answer, standing = .waiting begun request →
    machine.answer = some answer → loop.reaction request answer = .success →
      ∃ after, machine.stepControl? = some after ∧ Succeeds loop prompt machine after standing
  /-- It counts one failure for an answer that it cannot use, and for no answer in time. -/
  fails : machine.signalled = false → ∀ begun request, standing = .waiting begun request →
    ((∃ answer, machine.answer = some answer ∧ loop.reaction request answer = .failure) ∨
      (machine.answer = none ∧ begun + loop.timeout ≤ machine.now)) →
      ∃ after, machine.stepControl? = some after ∧
        UnderWay loop prompt start after (failures + 1)
          (.free (machine.now + loop.delay (failures + 1)))

theorem UnderWay.stepControl?_eq (h : UnderWay loop prompt start machine failures standing)
    (hsignal : machine.signalled = false) :
    ∃ attempt, Shows loop machine.now attempt standing ∧
      machine.phase = loop.phase (min failures greatestFailureCount) attempt ∧
      machine.stepControl? = loop.step? (min failures greatestFailureCount) machine attempt := by
  obtain ⟨attempt, hphase, hshows⟩ := h.phase
  refine ⟨attempt, hshows, hphase, ?_⟩
  rw [Machine.stepControl?_eq hphase h.parameters, hsignal]
  rfl

/-- An attempt that may begin does so after at most two steps of the control task. -/
theorem UnderWay.calls {ready : Nat}
    (h : UnderWay loop prompt start machine failures (.free ready)) (hready : ready ≤ machine.now)
    (hsignal : machine.signalled = false) :
    ∃ moves after, (∀ move ∈ moves, move = .step .control) ∧ machine.run? moves = some after ∧
      UnderWay loop prompt start after failures (.waiting machine.now loop.opening) := by
  obtain ⟨attempt, hshows, hphase, hstep⟩ := h.stepControl?_eq hsignal
  cases hshows with
  | due =>
      refine ⟨[.step .control], _, ?_, Option.bind_eq_some_iff.mpr ⟨_, hstep, rfl⟩, h.ask hready⟩
      exact List.forall_mem_singleton.mpr rfl
  | resting =>
      have hdue := h.due hready
      obtain ⟨next, hnext, hnextPhase, hask⟩ := hdue.stepControl?_eq hsignal
      obtain rfl := (Loop.phase_inj hnextPhase).2
      rw [Loop.step?, if_pos hready] at hstep
      refine ⟨[.step .control, .step .control], _, ?_,
        Option.bind_eq_some_iff.mpr ⟨_, hstep, Option.bind_eq_some_iff.mpr ⟨_, hask, rfl⟩⟩,
        hdue.ask hready⟩
      exact List.forall_mem_cons.mpr ⟨rfl, List.forall_mem_singleton.mpr rfl⟩

theorem UnderWay.responsive (h : UnderWay loop prompt start machine failures standing)
    (hreach : machine.Reachable) (hprompt : prompt → machine.Punctual) :
    Responsive loop prompt start machine failures standing := by
  refine ⟨fun hsignal => ?_, fun hsignal ready hstanding hready => ?_,
    fun hsignal begun request answer hstanding hanswer hreaction => ?_,
    fun hsignal begun request hstanding hfails => ?_⟩
  · obtain ⟨attempt, hphase, -⟩ := h.phase
    have hstep := Machine.stepControl?_eq hphase h.parameters
    rw [hsignal, if_pos rfl] at hstep
    exact ⟨_, hstep, givesUp_leave hreach hsignal hstep⟩
  · subst hstanding
    exact h.calls hready hsignal
  · obtain ⟨attempt, hshows, hphase, hstep⟩ := h.stepControl?_eq hsignal
    subst hstanding
    cases hshows with
    | @asking request number begun =>
        simp only [Loop.step?, hanswer, hreaction] at hstep
        refine ⟨_, hstep, hsignal, begun, request, answer, rfl, hanswer, hreaction, ?_, rfl⟩
        intro hp
        exact hprompt hp request number _ (hphase ▸ Loop.attempt?_phase ..)
  · obtain ⟨attempt, hshows, hphase, hstep⟩ := h.stepControl?_eq hsignal
    subst hstanding
    cases hshows with
    | @asking request number begun =>
        rcases hfails with ⟨answer, hanswer, hreaction⟩ | ⟨hanswer, hlate⟩
        · simp only [Loop.step?, hanswer, hreaction] at hstep
          have htime : prompt → machine.now ≤ begun + loop.timeout := fun hp =>
            hprompt hp request number _ (hphase ▸ Loop.attempt?_phase ..)
          exact ⟨_, hstep, h.retry trivial fun talk hbefore => .refused hbefore hreaction htime⟩
        · simp only [Loop.step?, hanswer, if_pos hlate] at hstep
          exact ⟨_, hstep, h.retry trivial fun talk hbefore => .gaveUp hbefore hlate⟩

/-! ## The loop -/

/-- Whatever the client answers and whenever the shutdown signal is raised: a relay that is in a
loop has begun it with no failure counted, and stays in it until an attempt succeeds or the signal
makes it give up, without another attempt.  An attempt only begins when the one before has failed
and the delay that belongs to this failure is over, so that after so many failures there were so
many attempts and the one that is being made.  Nothing else than the signal, the delays and the
client keeps the relay from going on, and an answer that comes after its attempt has failed has no
effect, now or later. -/
theorem retry_loop (hreach : machine.Reachable) (hparameters : machine.parameters = loop.parameters) :
    (∀ count attempt, machine.phase = loop.phase count attempt →
      ∃ start moves, start.Reachable ∧ Begins loop start ∧ start.run? moves = some machine ∧
        ∃ failures standing,
          UnderWay loop (start.Prompt moves) start machine failures standing) ∧
    (Begins loop machine → ∀ moves after, machine.run? moves = some after →
      (∃ failures standing,
        UnderWay loop (machine.Prompt moves) machine after failures standing) ∨
      HasLeft loop (machine.Prompt moves) machine moves after) ∧
    (∀ prompt start failures standing, (prompt → machine.Punctual) →
      UnderWay loop prompt start machine failures standing →
        Trace.countAsked loop.opening machine.trace =
          Trace.countAsked loop.opening start.trace + (failures + standing.attempts) ∧
        Responsive loop prompt start machine failures standing) ∧
    (∀ request number deadline,
      machine.phase.attempt? = some (.asking request number deadline) →
        ∀ next, machine.stepControl? = some next → ∀ moves later, next.run? moves = some later →
          ∀ answer, later.reply number answer = later) := by
  refine ⟨fun count attempt hphase => hreach.exists_begins hphase hparameters,
    fun hbegins moves after hrun => ?_,
    fun prompt start failures standing hprompt hway => ⟨hway.countAsked, ?_⟩,
    fun request number deadline hasking next hstep moves later hlater answer => ?_⟩
  · exact hbegins.underWay.of_run hreach id hrun [] rfl
  · exact hway.responsive hreach hprompt
  · exact hreach.reply_eq hasking hstep hlater answer

end Machine

/-! ## An attempt that fails, and one that succeeds -/

namespace Sample

/-- The relay has got a subscription and begins to fetch. -/
def fetching : Machine := (start.run? (movesToFetch.take 11)).getD default

/-- The client does not answer in time, and then it does. -/
def movesToRetry : List Move :=
  [.step .control, .wait 1050, .step .control, .reply 1 (.header none), .wait 1060, .step .control,
    .step .control, .reply 2 (.header (some { number := 5 })), .step .control,
    .reply 3 (.logs [log]), .step .control]

/-- The loop that fetches earlier logs. -/
def loop : Loop := { goal := .logs (some 0), addresses := [address], parameters }

theorem reachable_fetching : fetching.Reachable :=
  (Machine.Reachable.initial parameters fun _ _ => false).getD_run? (by decide)

/-- Then it fetches no more, and it was not told to stop. -/
theorem exists_retried : ∃ after, fetching.run? movesToRetry = some after ∧
    after.phase.attempt? = none ∧ after.signalled = false :=
  ⟨_, rfl, rfl, rfl⟩

end Sample

namespace Machine

/-- The second attempt to fetch succeeds. -/
theorem sample_retry_loop :
    Begins Sample.loop Sample.fetching ∧ ∃ after,
      Sample.fetching.run? Sample.movesToRetry = some after ∧
        HasLeft Sample.loop (Sample.fetching.Prompt Sample.movesToRetry) Sample.fetching
          Sample.movesToRetry after := by
  have hbegins : Begins Sample.loop Sample.fetching := ⟨rfl, rfl⟩
  obtain ⟨after, hafter, hover, -⟩ := Sample.exists_retried
  obtain ⟨-, hloop, -, -⟩ := retry_loop Sample.reachable_fetching hbegins.parameters
  refine ⟨hbegins, after, hafter, ?_⟩
  rcases hloop hbegins _ _ hafter with ⟨failures, standing, hway⟩ | hends
  · obtain ⟨attempt, hphase, -⟩ := hway.phase
    rw [hphase, Loop.attempt?_phase] at hover
    cases hover
  · exact hends

end Machine

end LogRelay
