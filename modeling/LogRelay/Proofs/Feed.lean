import LogRelay.Proofs.Leases
import LogRelay.Proofs.Course

/-!
# A relay and its chain

The chain emits logs while the relay runs, and the client is a faithful witness of both: what it
gives as earlier logs contains all that were emitted before it was asked, and from the moment
at which the relay obtains a subscription it sends every log of its addresses at once, until
the subscription fails or is torn down.  A log that finds no room, or that nobody accepts,
makes the subscription fail.

Nothing else is asked of the client: it may answer late, refuse, give any header, and send
other logs than it has to.  The order in which logs are emitted and the tasks of the relay
take their steps is free.  What has occurred is kept in a chronicle, in which the history of
the relay is embedded.
-/

namespace LogRelay

/-- Something that occurs on the chain, at the client or in the relay. -/
inductive Occurrence where
  | emitted (log : RawLog)
  /-- The subscription with this number fails. -/
  | failed (number : Nat)
  | relay (effect : Effect)

/-- What has occurred, the latest first. -/
abbrev Chronicle := List Occurrence

namespace Chronicle

/-- The history of the relay. -/
@[simp] def history : Chronicle → History
  | [] => []
  | .relay effect :: older => effect :: history older
  | .emitted _ :: older | .failed _ :: older => history older

/-- The logs that were emitted. -/
@[simp] def emitted : Chronicle → List RawLog
  | [] => []
  | .emitted log :: older => log :: emitted older
  | .failed _ :: older | .relay _ :: older => emitted older

/-- The numbers of the subscriptions that have failed. -/
@[simp] def failed : Chronicle → List Nat
  | [] => []
  | .failed number :: older => number :: failed older
  | .emitted _ :: older | .relay _ :: older => failed older

/-- What had occurred when the relay made its latest request to the client. -/
@[simp] def beforeRequest : Chronicle → Chronicle
  | [] => []
  | .relay (.asked _) :: older => older
  | _ :: older => beforeRequest older

end Chronicle

/-- The subscriptions that the relay has obtained, with their queries. -/
@[simp] def History.leases : History → List (Nat × FilterQuery)
  | [] => []
  | .answered (.subscribe query) (.subscribed number) :: older => (number, query) :: leases older
  | _ :: older => leases older

/-- A relay, and what has occurred. -/
structure Feed where
  relay : Machine
  chronicle : Chronicle := []
deriving Inhabited

/-- Something that can happen next. -/
inductive FeedMove where
  | emit (log : RawLog)
  | relay (move : Move)

/-- The subscriptions whose failure the move is. -/
def Move.failures : Move → List Nat
  | .fail number _ | .endLogs number | .endFailures number => [number]
  | _ => []

namespace Feed

/-- The subscriptions on which the client has to send a log. -/
def receivers (feed : Feed) (log : RawLog) : List Nat :=
  (feed.chronicle.history.leases.filter fun lease =>
    lease.2.selects log && !feed.chronicle.failed.contains lease.1 &&
      !feed.chronicle.history.tornDown.contains lease.1).map (·.1)

/-- The client sends a log. -/
def send (log : RawLog) (feed : Feed) (number : Nat) : Feed :=
  match feed.relay.push number log with
  | (.taken, relay) =>
      { relay, chronicle := .relay (.accepted number log) :: feed.chronicle }
  | _ => { feed with chronicle := .failed number :: feed.chronicle }

/-- The chain emits a log, and the client sends it to whom it has to. -/
def emit (feed : Feed) (log : RawLog) : Feed :=
  let sent := (feed.receivers log).foldl (send log) feed
  { sent with chronicle := .emitted log :: sent.chronicle }

/-- Whether the client may make this move: the logs that it gives have to contain all that are asked
for and were emitted before. -/
def permits (feed : Feed) : Move → Bool
  | .reply number (.logs logs) =>
      match feed.relay.phase.attempt? with
      | some (.asking (.filter query) asked _) =>
          asked != number ||
            feed.chronicle.beforeRequest.emitted.all fun log =>
              !query.selects log || logs.contains log
      | _ => true
  | _ => true

/-- The effects that the relay has had since another state. -/
def effectsSince (before after : Machine) : History :=
  after.history.take (after.history.length - before.history.length)

/-- What a move leads to; `none` if it is not possible. -/
def perform? (feed : Feed) : FeedMove → Option Feed
  | .emit log => some (feed.emit log)
  | .relay move =>
      if feed.permits move then do
        let relay ← feed.relay.perform? move
        return {
          relay
          chronicle := (effectsSince feed.relay relay).map .relay ++
            (move.failures.map .failed ++ feed.chronicle) }
      else none

/-- A relay that was not started, before anything has occurred. -/
def initial (parameters : RelayParameters) (breaksOn : ListenerId → RawLog → Bool) : Feed :=
  { relay := Machine.initial parameters breaksOn }

/-- What moves one after the other lead to; `none` if one of them is not possible. -/
def run? (feed : Feed) (moves : List FeedMove) : Option Feed := moves.foldlM perform? feed

/-- The states that a relay and its chain can reach. -/
inductive Reachable : Feed → Prop
  | initial (parameters : RelayParameters) (breaksOn : ListenerId → RawLog → Bool) :
      Reachable (Feed.initial parameters breaksOn)
  | move {feed after : Feed} (move : FeedMove) (hreach : Reachable feed)
      (hperform : feed.perform? move = some after) : Reachable after

theorem Reachable.run {feed after : Feed} {moves : List FeedMove} (h : Reachable feed)
    (hrun : feed.run? moves = some after) : Reachable after := by
  induction moves generalizing feed with
  | nil =>
      cases hrun
      exact h
  | cons move moves ih =>
      obtain ⟨middle, hperform, hrest⟩ := Option.bind_eq_some_iff.mp hrun
      exact ih (h.move move hperform) hrest

theorem Reachable.getD_run? {feed : Feed} {moves : List FeedMove} (h : Reachable feed)
    (hsome : (feed.run? moves).isSome = true) : Reachable ((feed.run? moves).getD default) := by
  obtain ⟨after, hafter⟩ := Option.isSome_iff_exists.mp hsome
  rw [hafter, Option.getD_some]
  exact h.run hafter

/-! ## What a move adds to the chronicle -/

variable {feed after : Feed}

theorem history_append (newer older : Chronicle) :
    (newer ++ older).history = newer.history ++ older.history := by
  induction newer with
  | nil => rfl
  | cons occurrence newer ih =>
      cases occurrence with
      | relay effect => exact congrArg (List.cons effect) ih
      | emitted log | failed number => exact ih

theorem history_map_relay (effects : History) (older : Chronicle) :
    Chronicle.history (effects.map .relay ++ older) = effects ++ older.history := by
  induction effects with
  | nil => rfl
  | cons effect effects ih => exact congrArg (List.cons effect) ih

theorem history_map_failed (numbers : List Nat) (older : Chronicle) :
    Chronicle.history (numbers.map .failed ++ older) = older.history := by
  induction numbers with
  | nil => rfl
  | cons number numbers ih => exact ih

/-- Sending a log is accepting it on the subscription, or the subscription fails. -/
theorem send_cases (log : RawLog) (feed : Feed) (number : Nat) :
    (∃ subscriptions, feed.relay.perform? (.push number log) =
          some ({ feed.relay with subscriptions }.record [.accepted number log]) ∧
        send log feed number =
          { relay := { feed.relay with subscriptions }.record [.accepted number log]
            chronicle := .relay (.accepted number log) :: feed.chronicle }) ∨
      send log feed number = { feed with chronicle := .failed number :: feed.chronicle } := by
  cases hnumber : feed.relay.subscriptions[number]? with
  | none => exact .inr (by simp only [send, Machine.push, hnumber])
  | some subscription =>
      rcases subscription.push_eq log with ⟨-, hpush⟩ | ⟨result, hresult, hpush⟩
      · have hrelay : feed.relay.push number log = (.taken,
            { feed.relay with
              subscriptions := feed.relay.subscriptions.set number
                { subscription with logs := subscription.logs ++ [log] } }.record
                  [.accepted number log]) := by
          simp only [Machine.push, hnumber, hpush]
          rfl
        refine .inl ⟨feed.relay.subscriptions.set number
          { subscription with logs := subscription.logs ++ [log] }, ?_, ?_⟩
        · rw [Machine.perform?, hrelay]
        · rw [send, hrelay]
      · refine .inr ?_
        cases result with
        | taken => exact absurd rfl hresult
        | full | closed | missing => simp only [send, Machine.push, hnumber, hpush]

/-- What holds at first and is kept by each of the logs that are sent holds after all of them. -/
theorem foldl_send {P : Feed → Prop} (log : RawLog)
    (hsend : ∀ feed number, P feed → P (send log feed number)) {feed : Feed} (h : P feed)
    (numbers : List Nat) : P (numbers.foldl (send log) feed) := by
  induction numbers generalizing feed with
  | nil => exact h
  | cons number numbers ih => exact ih (hsend feed number h)

/-- The relay of a feed runs as a relay does, and its history is embedded in the chronicle. -/
structure Linked (feed : Feed) : Prop where
  reachable : feed.relay.Reachable
  history : feed.chronicle.history = feed.relay.history

theorem Linked.send (h : Linked feed) (log : RawLog) (number : Nat) :
    Linked (send log feed number) := by
  rcases send_cases log feed number with ⟨subscriptions, hperform, heq⟩ | heq
  · rw [heq]
    exact ⟨h.reachable.move _ hperform, congrArg (List.cons _) h.history⟩
  · rw [heq]
    exact ⟨h.reachable, h.history⟩

/-- A move of the relay adds to the chronicle its effects and the failures of subscriptions. -/
theorem Linked.perform?_relay (h : Linked feed) {move : Move}
    (hperform : feed.perform? (.relay move) = some after) :
    feed.permits move = true ∧ feed.relay.perform? move = some after.relay ∧
      ∃ burst, after.relay.history = burst ++ feed.relay.history ∧
        after.chronicle = burst.map .relay ++ (move.failures.map .failed ++ feed.chronicle) := by
  simp only [perform?] at hperform
  split at hperform
  next hpermits =>
    obtain ⟨relay, hrelay, heq⟩ := Option.bind_eq_some_iff.mp hperform
    cases heq
    obtain ⟨burst, hburst⟩ := h.reachable.grows_of_perform? hrelay
    refine ⟨hpermits, hrelay, burst, hburst, ?_⟩
    have heffects : effectsSince feed.relay relay = burst := by
      simp [effectsSince, hburst]
    rw [heffects]
  next => cases hperform

theorem Linked.of_relay (h : Linked feed) {move : Move}
    (hperform : feed.perform? (.relay move) = some after) : Linked after := by
  obtain ⟨-, hrelay, burst, hburst, hchronicle⟩ := h.perform?_relay hperform
  refine ⟨h.reachable.move move hrelay, ?_⟩
  rw [hchronicle, history_map_relay, history_map_failed, h.history, hburst]

theorem Linked.emit (h : Linked feed) (log : RawLog) : Linked (feed.emit log) := by
  have hsent := foldl_send (P := Linked) log (fun _ number hfeed => hfeed.send log number) h
    (feed.receivers log)
  exact ⟨hsent.reachable, hsent.history⟩

theorem Reachable.linked (h : Reachable feed) : Linked feed := by
  induction h with
  | initial parameters breaksOn => exact ⟨.initial parameters breaksOn, rfl⟩
  | @move feed after move hreach hperform ih =>
      cases move with
      | emit log =>
          cases hperform
          exact ih.emit log
      | relay move => exact ih.of_relay hperform

end Feed

end LogRelay
