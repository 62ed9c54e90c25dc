import LogRelay.Proofs.Coalescing
import LogRelay.Proofs.Requests

/-!
# Loops of attempts

The relay asks the client for a subscription, and for earlier logs, until it gets what it
wants: it makes one attempt after the other, and rests after each that fails.  Both loops are
the same one, with a goal of its own each (`Loop`); `stepControl?_eq` says so, and no proof about
attempts unfolds the two again.

An attempt consists of the requests that it makes and of the answers to them, all of them within
one time limit.  `Loop.Talks` says what the relay and the client may have said to each other since
a loop began, and `UnderWay` that they have said no more than that.
-/

namespace LogRelay

/-! ## Talk -/

namespace Effect

instance : DecidablePred IsTalk
  | .asked _ | .answered .. | .gaveUp _ => .isTrue trivial
  | .began _ | .gathered .. | .accepted .. | .unsubscribed _ | .lost _ | .switched _
  | .connected .. | .disconnected .. | .took _ | .delivered .. | .handled .. => .isFalse id

/-- Whether the effect is that this request is made. -/
def asks (request : ClientRequest) : Effect → Bool
  | .asked other => decide (other = request)
  | _ => false

theorem isTalk_of_asks {request : ClientRequest} {effect : Effect}
    (h : effect.asks request = true) : effect.IsTalk := by
  cases effect
  case asked other => exact trivial
  all_goals cases h

end Effect

namespace Trace

/-- What the relay and the client have said to each other. -/
def talk (trace : Trace) : Trace := trace.filter fun entry => entry.2.IsTalk

/-- How often this request was made. -/
def countAsked (request : ClientRequest) (trace : Trace) : Nat :=
  trace.countP fun entry => entry.2.asks request

theorem countAsked_cons (request : ClientRequest) (time : Nat) (effect : Effect) (older : Trace) :
    countAsked request ((time, effect) :: older) =
      older.countAsked request + if effect.asks request then 1 else 0 :=
  List.countP_cons

theorem countAsked_append (request : ClientRequest) (newer older : Trace) :
    (newer ++ older).countAsked request =
      newer.countAsked request + older.countAsked request :=
  List.countP_append

theorem countAsked_talk (request : ClientRequest) (trace : Trace) :
    trace.talk.countAsked request = trace.countAsked request := by
  unfold countAsked talk
  rw [List.countP_filter]
  refine List.countP_congr fun entry _ => ?_
  simp only [Bool.and_eq_true, decide_eq_true_eq]
  exact ⟨And.left, fun hasks => ⟨hasks, Effect.isTalk_of_asks hasks⟩⟩

end Trace

/-! ## Loops -/

/-- What the relay wants from the client. -/
inductive Goal where
  | subscription
  /-- Earlier logs, while the subscription with this number is new. -/
  | logs (fresh : Option Nat)

/-- What an answer means for the attempt that waits for it. -/
inductive Reaction where
  | success
  /-- The attempt goes on with another request. -/
  | further (request : ClientRequest)
  | failure

/-- A loop of attempts to get something for these addresses. -/
structure Loop where
  goal : Goal
  addresses : List Address
  parameters : RelayParameters

namespace Loop

/-- The phase of a relay that has failed so many times and is at this attempt. -/
def phase (loop : Loop) (failures : Nat) (attempt : Attempt) : Phase :=
  match loop.goal with
  | .subscription => .subscribing loop.addresses failures attempt
  | .logs fresh => .backfilling fresh loop.addresses failures attempt

/-- How long an attempt may take. -/
def timeout (loop : Loop) : Nat :=
  match loop.goal with
  | .subscription => loop.parameters.createTimeout
  | .logs _ => loop.parameters.requestTimeout

/-- The delay after a failure, counted from one; from some number on failures are not told
apart. -/
def delay (loop : Loop) (failures : Nat) : Nat :=
  loop.parameters.delay (min failures Machine.greatestFailureCount)

/-- The request that every attempt begins with. -/
def opening (loop : Loop) : ClientRequest :=
  match loop.goal with
  | .subscription => .subscribe (.ofAddresses loop.addresses)
  | .logs _ => .header

/-- What an answer means. -/
def reaction (loop : Loop) (request : ClientRequest) (answer : ClientAnswer) : Reaction :=
  match loop.goal, request, answer with
  | .subscription, _, .subscribed _ => .success
  | .logs _, .header, .header (some header) =>
      .further (.filter (.below header loop.parameters.depth loop.addresses))
  | .logs _, .filter _, .logs _ => .success
  | _, _, _ => .failure

/-- What the relay does with the answer with which an attempt succeeds. -/
def conclude (loop : Loop) (answer : ClientAnswer) (machine : Machine) : Machine :=
  match loop.goal, answer with
  | .subscription, .subscribed number =>
      { machine with phase := .backfilling (some number) machine.registry.addresses 0 .due }
  | .logs fresh, .logs logs => machine.completePass fresh logs
  | _, _ => machine

/-- The relay rests after one more failure. -/
def retry (loop : Loop) (failures : Nat) (machine : Machine) : Machine :=
  { machine with
    phase := loop.phase (Machine.oneMore failures)
      (.resting (machine.now + loop.parameters.delay (Machine.oneMore failures))) }

/-- One step of a loop. -/
def step? (loop : Loop) (failures : Nat) (machine : Machine) : Attempt → Option Machine
  | .due => some (machine.ask loop.opening (machine.now + loop.timeout) (loop.phase failures))
  | .resting wakeUp =>
      if wakeUp ≤ machine.now then some { machine with phase := loop.phase failures .due }
      else none
  | .asking request _ deadline =>
      match machine.answer with
      | some answer =>
          let heard := machine.record [.answered request answer]
          match loop.reaction request answer with
          | .success => some (loop.conclude answer heard)
          | .further next => some (heard.ask next deadline (loop.phase failures))
          | .failure => some (loop.retry failures heard)
      | none =>
          if deadline ≤ machine.now then
            some (loop.retry failures (machine.record [.gaveUp request]))
          else none

variable {loop : Loop}

/-- An attempt succeeds with a subscription, or with the logs that it has asked for. -/
theorem eq_of_success {request : ClientRequest} {answer : ClientAnswer}
    (h : loop.reaction request answer = .success) :
    (loop.goal = .subscription ∧ ∃ number, answer = .subscribed number) ∨
      ∃ fresh query logs, loop.goal = .logs fresh ∧ request = .filter query ∧
        answer = .logs logs := by
  unfold reaction at h
  split at h
  next number hgoal => exact .inl ⟨hgoal, number, rfl⟩
  next => cases h
  next fresh query logs hgoal => exact .inr ⟨fresh, query, logs, hgoal, rfl, rfl⟩
  next => cases h

/-- An attempt goes on only with a query for logs, once it has got a header. -/
theorem eq_of_further {request next : ClientRequest} {answer : ClientAnswer}
    (h : loop.reaction request answer = .further next) :
    ∃ fresh header, loop.goal = .logs fresh ∧ request = .header ∧ answer = .header (some header) ∧
      next = .filter (.below header loop.parameters.depth loop.addresses) := by
  unfold reaction at h
  split at h
  next => cases h
  next fresh header hgoal =>
    cases h
    exact ⟨fresh, header, hgoal, rfl, rfl, rfl⟩
  next => cases h
  next => cases h

/-- A request that an attempt goes on with is not the one that it began with. -/
theorem further_ne_opening {request next : ClientRequest} {answer : ClientAnswer}
    (h : loop.reaction request answer = .further next) : next ≠ loop.opening := by
  obtain ⟨fresh, header, hgoal, -, -, rfl⟩ := eq_of_further h
  unfold opening
  rw [hgoal]
  exact nofun

@[simp] theorem attempt?_phase (failures : Nat) (attempt : Attempt) :
    (loop.phase failures attempt).attempt? = some attempt := by
  unfold phase
  cases loop.goal with
  | subscription | logs => rfl

theorem isActive_of_eq {reached : Phase} {failures : Nat} {attempt : Attempt}
    (h : reached = loop.phase failures attempt) : reached.isActive = true := by
  rw [h]
  unfold phase
  cases loop.goal with
  | subscription | logs => rfl

theorem phase_inj {failures others : Nat} {attempt other : Attempt}
    (h : loop.phase failures attempt = loop.phase others other) :
    failures = others ∧ attempt = other := by
  unfold phase at h
  split at h
  all_goals
    cases h
    exact ⟨rfl, rfl⟩

end Loop

namespace Machine

variable {machine after : Machine} {loop : Loop} {failures : Nat} {attempt : Attempt}

theorem stepSubscribing?_eq (hgoal : loop.goal = .subscription)
    (hparameters : machine.parameters = loop.parameters) :
    machine.stepSubscribing? loop.addresses failures attempt =
      loop.step? failures machine attempt := by
  obtain ⟨goal, addresses, parameters⟩ := loop
  cases hgoal
  cases hparameters
  cases attempt with
  | due | resting => rfl
  | asking request number deadline =>
      unfold stepSubscribing? Loop.step?
      cases machine.answer with
      | none => rfl
      | some answer =>
          cases answer with
          | subscribed | failed | header | logs => rfl

theorem stepBackfilling?_eq {fresh : Option Nat} (hgoal : loop.goal = .logs fresh)
    (hparameters : machine.parameters = loop.parameters) :
    machine.stepBackfilling? fresh loop.addresses failures attempt =
      loop.step? failures machine attempt := by
  obtain ⟨goal, addresses, parameters⟩ := loop
  cases hgoal
  cases hparameters
  cases attempt with
  | due | resting => rfl
  | asking request number deadline =>
      unfold stepBackfilling? Loop.step?
      cases machine.answer with
      | none => rfl
      | some answer =>
          cases request with
          | subscribe query => rfl
          | header =>
              cases answer with
              | header header => cases header with
                | none | some => rfl
              | subscribed | failed | logs => rfl
          | filter query =>
              cases answer with
              | subscribed | failed | header | logs => rfl

/-- In a loop the control task looks at the shutdown signal first, and then takes a step of the
loop. -/
theorem stepControl?_eq (hphase : machine.phase = loop.phase failures attempt)
    (hparameters : machine.parameters = loop.parameters) :
    machine.stepControl? =
      if machine.signalled then some (machine.leave machine.phase.fresh?)
      else loop.step? failures machine attempt := by
  unfold stepControl?
  unfold Loop.phase at hphase
  split at hphase
  next hgoal =>
    rw [hphase, ← stepSubscribing?_eq hgoal hparameters]
    rfl
  next fresh hgoal =>
    rw [hphase, ← stepBackfilling?_eq hgoal hparameters]
    rfl

end Machine

/-! ## What may be said in a loop -/

/-- Where a loop of attempts stands. -/
inductive Standing where
  /-- No attempt is being made, and the next one may begin at the given time. -/
  | free (ready : Nat)
  /-- An attempt that began at the given time waits for the answer to a request. -/
  | waiting (begun : Nat) (request : ClientRequest)

/-- The number of attempts that are being made. -/
def Standing.attempts : Standing → Nat
  | .free _ => 0
  | .waiting .. => 1

namespace Loop

/-- What the relay and the client may have said to each other since a loop began, with the number
of attempts that have failed.  If the relay was prompt, then no answer was used that came after the
attempt's time was over. -/
inductive Talks (loop : Loop) (prompt : Prop) (since : Nat) : Trace → Nat → Standing → Prop
  | begun : Talks loop prompt since [] 0 (.free since)
  /-- An attempt begins. -/
  | called {talk : Trace} {failures ready time : Nat}
      (h : Talks loop prompt since talk failures (.free ready)) (hready : ready ≤ time) :
      Talks loop prompt since ((time, .asked loop.opening) :: talk) failures
        (.waiting time loop.opening)
  /-- An attempt goes on with another request. -/
  | wentOn {talk : Trace} {failures begun time : Nat} {request next : ClientRequest}
      {answer : ClientAnswer}
      (h : Talks loop prompt since talk failures (.waiting begun request))
      (hreaction : loop.reaction request answer = .further next)
      (hprompt : prompt → time ≤ begun + loop.timeout) :
      Talks loop prompt since
        ((time, .asked next) :: (time, .answered request answer) :: talk) failures
        (.waiting begun next)
  /-- An attempt fails by the answer to a request. -/
  | refused {talk : Trace} {failures begun time : Nat} {request : ClientRequest}
      {answer : ClientAnswer}
      (h : Talks loop prompt since talk failures (.waiting begun request))
      (hreaction : loop.reaction request answer = .failure)
      (hprompt : prompt → time ≤ begun + loop.timeout) :
      Talks loop prompt since ((time, .answered request answer) :: talk) (failures + 1)
        (.free (time + loop.delay (failures + 1)))
  /-- An attempt fails as its time is over. -/
  | gaveUp {talk : Trace} {failures begun time : Nat} {request : ClientRequest}
      (h : Talks loop prompt since talk failures (.waiting begun request))
      (hlate : begun + loop.timeout ≤ time) :
      Talks loop prompt since ((time, .gaveUp request) :: talk) (failures + 1)
        (.free (time + loop.delay (failures + 1)))

variable {loop : Loop} {prompt : Prop} {since failures : Nat} {talk : Trace}
  {standing : Standing}

/-- So many attempts have begun as have failed or are being made. -/
theorem Talks.countAsked_opening (h : loop.Talks prompt since talk failures standing) :
    talk.countAsked loop.opening = failures + standing.attempts := by
  induction h with
  | begun => rfl
  | called _ _ ih =>
      have hone : Effect.asks loop.opening (.asked loop.opening) = true := decide_eq_true rfl
      rw [Trace.countAsked_cons, if_pos hone]
      exact congrArg (· + 1) ih
  | @wentOn talk failures begun time request next answer _ hreaction _ ih =>
      have hnone : ¬ Effect.asks loop.opening (.asked next) = true :=
        fun hasks => further_ne_opening hreaction (of_decide_eq_true hasks)
      rw [Trace.countAsked_cons, if_neg hnone]
      exact ih
  | refused _ _ _ ih => exact ih
  | gaveUp _ _ ih => exact ih

theorem Talks.mono {prompt' : Prop} (h : loop.Talks prompt since talk failures standing)
    (himp : prompt' → prompt) : loop.Talks prompt' since talk failures standing := by
  induction h with
  | begun => exact .begun
  | called _ hready ih => exact .called ih hready
  | wentOn _ hreaction hprompt ih => exact .wentOn ih hreaction (hprompt ∘ himp)
  | refused _ hreaction hprompt ih => exact .refused ih hreaction (hprompt ∘ himp)
  | gaveUp _ hlate ih => exact .gaveUp ih hlate

end Loop

end LogRelay
