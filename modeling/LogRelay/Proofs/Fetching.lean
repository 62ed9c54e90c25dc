import LogRelay.Proofs.Retrying

/-!
# Fetching earlier logs

While the relay fetches, it makes one attempt after the other, each of which asks for the latest
header and, once there is one, for the logs of the addresses from a block on that lies `depth`
blocks below this header, or from the first block of all.  Here the loop of attempts
(`Loop.Talks`) is read as a list of attempts that have failed (`FailedFetch`), followed by what the
attempt that is being made has asked so far (`Opened`).

The relay takes the logs of the first attempt that is answered in full, and asks nothing more.
-/

namespace LogRelay

/-- The query asks for the logs of exactly these addresses, `depth` blocks below the header or from
the first block of all. -/
structure FilterQuery.Trails (query : FilterQuery) (header : Header) (depth : Nat)
    (addresses : List Address) : Prop where
  addresses : query.addresses = addresses
  fromBlock : ∃ block, query.fromBlock = some block ∧
    (block.toNat : Int) = max 0 ((header.number.toNat : Int) - depth)

theorem FilterQuery.trails_below (header : Header) (depth : Nat) (addresses : List Address) :
    (below header depth addresses).Trails header depth addresses := by
  refine ⟨rfl, _, rfl, ?_⟩
  have hlt : Machine.startBlock header.number.toNat depth < 2 ^ 64 :=
    Nat.lt_of_le_of_lt (Nat.sub_le ..) header.number.toNat_lt
  have hblock : (UInt64.ofNat (Machine.startBlock header.number.toNat depth)).toNat =
      header.number.toNat - depth := by
    rw [UInt64.toNat_ofNat']
    exact Nat.mod_eq_of_lt hlt
  rw [hblock]
  omega

/-- The answer is of the kind that was asked for. -/
def ClientRequest.IsMetBy : ClientRequest → ClientAnswer → Prop
  | .header, .header (some _) => True
  | .filter _, .logs _ => True
  | _, _ => False

/-! ## Attempts to fetch -/

/-- What an attempt to fetch has asked for so far, the latest first. -/
inductive Opened (depth : Nat) (addresses : List Address) : Standing → Trace → Prop
  | free {ready : Nat} : Opened depth addresses (.free ready) []
  /-- It has asked for the latest header. -/
  | header {begun : Nat} :
      Opened depth addresses (.waiting begun .header) [(begun, .asked .header)]
  /-- It has got a header and has asked for the logs that go with it. -/
  | logs {begun time : Nat} {header : Header} {query : FilterQuery}
      (hquery : query.Trails header depth addresses) :
      Opened depth addresses (.waiting begun (.filter query))
        [(time, .asked (.filter query)), (time, .answered .header (.header (some header))),
          (begun, .asked .header)]

/-- What was said in an attempt to fetch that has failed, the latest first. -/
inductive FailedFetch (parameters : RelayParameters) (addresses : List Address) : Trace → Prop
  /-- It has got another answer than it has asked for. -/
  | refused {begun time : Nat} {request : ClientRequest} {answer : ClientAnswer} {opened : Trace}
      (hopened : Opened parameters.depth addresses (.waiting begun request) opened)
      (hanswer : ¬ request.IsMetBy answer) :
      FailedFetch parameters addresses ((time, .answered request answer) :: opened)
  /-- It has got no answer in time. -/
  | gaveUp {begun time : Nat} {request : ClientRequest} {opened : Trace}
      (hopened : Opened parameters.depth addresses (.waiting begun request) opened)
      (hlate : begun + parameters.requestTimeout ≤ time) :
      FailedFetch parameters addresses ((time, .gaveUp request) :: opened)

namespace Loop

variable {loop : Loop} {prompt : Prop} {since failures : Nat} {talk : Trace}
  {standing : Standing} {fresh : Option Nat}

theorem not_isMetBy_of_failure {request : ClientRequest} {answer : ClientAnswer}
    (hgoal : loop.goal = .logs fresh) (h : loop.reaction request answer = .failure) :
    ¬ request.IsMetBy answer := by
  obtain ⟨goal, addresses, parameters⟩ := loop
  cases hgoal
  intro hmet
  unfold ClientRequest.IsMetBy at hmet
  split at hmet
  next => cases h
  next => cases h
  next => exact hmet

/-- What is said in a loop that fetches consists of attempts. -/
theorem Talks.exists_failed (hgoal : loop.goal = .logs fresh)
    (h : loop.Talks prompt since talk failures standing) :
    ∃ (failed : List Trace) (opened : Trace), failed.length = failures ∧
      (∀ attempt ∈ failed, FailedFetch loop.parameters loop.addresses attempt) ∧
      talk = opened ++ failed.flatten ∧
      Opened loop.parameters.depth loop.addresses standing opened := by
  have hopening : loop.opening = .header := by
    unfold opening
    rw [hgoal]
  have htimeout : loop.timeout = loop.parameters.requestTimeout := by
    unfold timeout
    rw [hgoal]
  induction h with
  | begun => exact ⟨[], [], rfl, nofun, rfl, .free⟩
  | called _ _ ih =>
      obtain ⟨failed, opened, hlength, hfailed, rfl, hopened⟩ := ih
      cases hopened
      rw [hopening]
      exact ⟨failed, [_], hlength, hfailed, rfl, .header⟩
  | wentOn _ hreaction _ ih =>
      obtain ⟨failed, opened, hlength, hfailed, rfl, hopened⟩ := ih
      obtain ⟨-, header, -, rfl, rfl, rfl⟩ := eq_of_further hreaction
      cases hopened
      exact ⟨failed, [_, _, _], hlength, hfailed, rfl, .logs (FilterQuery.trails_below ..)⟩
  | @refused talk failures begun time request answer _ hreaction _ ih =>
      obtain ⟨failed, opened, hlength, hfailed, rfl, hopened⟩ := ih
      have hrefused : FailedFetch loop.parameters loop.addresses
          ((time, .answered request answer) :: opened) :=
        .refused hopened (not_isMetBy_of_failure hgoal hreaction)
      exact ⟨_ :: failed, [], congrArg (· + 1) hlength, List.forall_mem_cons.mpr ⟨hrefused, hfailed⟩,
        rfl, .free⟩
  | @gaveUp talk failures begun time request _ hlate ih =>
      obtain ⟨failed, opened, hlength, hfailed, rfl, hopened⟩ := ih
      have hgaveUp : FailedFetch loop.parameters loop.addresses
          ((time, .gaveUp request) :: opened) := .gaveUp hopened (htimeout ▸ hlate)
      exact ⟨_ :: failed, [], congrArg (· + 1) hlength, List.forall_mem_cons.mpr ⟨hgaveUp, hfailed⟩,
        rfl, .free⟩

end Loop

namespace Machine

variable {start machine after : Machine} {fresh : Option Nat} {addresses : List Address}
  {failures : Nat} {standing : Standing} {prompt : Prop} {moves : List Move}

/-- A relay has begun to fetch at `start`, and after these attempts that have failed it makes
another one or is about to. -/
structure Fetching (fresh : Option Nat) (addresses : List Address) (start machine : Machine)
    (failed : List Trace) (standing : Standing) : Prop where
  phase : ∃ attempt, machine.phase =
    .backfilling fresh addresses (min failed.length greatestFailureCount) attempt
  failures : ∀ attempt ∈ failed, FailedFetch start.parameters addresses attempt
  talk : ∃ newer opened, machine.trace = newer ++ start.trace ∧
    Trace.talk newer = opened ++ failed.flatten ∧
      Opened start.parameters.depth addresses standing opened

/-- The relay takes these logs as what it has fetched, and asks for nothing more. -/
structure Fetched (fresh : Option Nat) (query : FilterQuery) (logs : List RawLog)
    (machine after : Machine) : Prop where
  eq : after = (machine.record [.answered (.filter query) (.logs logs)]).completePass fresh logs
  attempt? : after.phase.attempt? = none
  history : ∃ burst, after.history =
      burst ++ .gathered logs fresh :: .answered (.filter query) (.logs logs) :: machine.history ∧
    ∀ request, .asked request ∉ burst

theorem Adopts.offPace {logs : List RawLog} (h : Adopts machine after fresh logs) :
    ∃ burst : History, burst.IsOffPace ∧ after.history = burst ++ machine.history := by
  obtain ⟨quiet, hquiet, heq⟩ := h.history
  exact ⟨_, (History.isOffPace_round true machine.registry).append hquiet.isOffPace, heq⟩

/-- A pass that ends asks for nothing, and begins no other pass. -/
theorem PassEnds.offPace {logs : List RawLog} (h : PassEnds machine fresh logs after) :
    ∃ burst : History, burst.IsOffPace ∧
      after.history = burst ++ .gathered logs fresh :: machine.history := by
  cases h with
  | overcrowded _ hdown => exact ⟨_, hdown.isQuiet.isOffPace, hdown.history⟩
  | restless hadopts _ hdown =>
      obtain ⟨burst, hoff, heq⟩ := hadopts.offPace
      refine ⟨_, hdown.isQuiet.isOffPace.append hoff, ?_⟩
      rw [hdown.history, heq, List.append_assoc]
      rfl
  | completed hadopts => exact hadopts.offPace

theorem fetched_completePass (machine : Machine) (fresh : Option Nat) (query : FilterQuery)
    (logs : List RawLog) :
    Fetched fresh query logs machine
      ((machine.record [.answered (.filter query) (.logs logs)]).completePass fresh logs) := by
  have hends := passEnds_completePass
    (machine.record [.answered (.filter query) (.logs logs)]) fresh logs
  obtain ⟨burst, hoff, hhistory⟩ := hends.offPace
  exact ⟨rfl, hends.attempt?, burst, hhistory, fun request hmem => hoff _ hmem⟩

/-- The loop of a relay that fetches. -/
def fetchLoop (start : Machine) (fresh : Option Nat) (addresses : List Address) : Loop where
  goal := .logs fresh
  addresses
  parameters := start.parameters

theorem UnderWay.fetching
    (h : UnderWay (start.fetchLoop fresh addresses) prompt start machine failures standing) :
    ∃ failed, Fetching fresh addresses start machine failed standing := by
  obtain ⟨attempt, hphase, -⟩ := h.phase
  obtain ⟨newer, htrace, htalks⟩ := h.talk
  obtain ⟨failed, opened, rfl, hfailed, htalk, hopened⟩ := htalks.exists_failed rfl
  exact ⟨failed, ⟨attempt, hphase⟩, hfailed, newer, opened, htrace, htalk, hopened⟩

/-- Logs that are there are taken. -/
theorem Succeeds.fetched
    (h : Succeeds (start.fetchLoop fresh addresses) prompt machine after standing) :
    ∃ begun query logs, standing = .waiting begun (.filter query) ∧
      machine.answer = some (.logs logs) ∧
      (prompt → machine.now ≤ begun + start.parameters.requestTimeout) ∧
      Fetched fresh query logs machine after := by
  obtain ⟨begun, request, answer, hstanding, hanswer, hreaction, htime, rfl⟩ := h.taken
  rcases Loop.eq_of_success hreaction with ⟨hgoal, -⟩ | ⟨_, query, logs, -, rfl, rfl⟩
  · cases hgoal
  · exact ⟨begun, query, logs, hstanding, hanswer, htime, fetched_completePass ..⟩

/-- Whatever the client answers, a relay that fetches takes the logs of the first attempt that gets
a header and then logs.  Every attempt before has failed; each has made at most one query, for
exactly the given addresses and from `depth` blocks below the header of the same attempt on, or
from the first block.  Nothing is asked after the attempt that succeeds, and without one the relay
only ends to fetch because of the shutdown signal. -/
theorem fetch_earlier_logs (hreach : start.Reachable)
    (hphase : start.phase = .backfilling fresh addresses 0 .due)
    (hrun : start.run? moves = some after) :
    addresses ≠ [] ∧
    ((∃ failed standing, Fetching fresh addresses start after failed standing ∧
        ∀ begun query logs, standing = .waiting begun (.filter query) →
          after.answer = some (.logs logs) → after.signalled = false →
            ∃ ended, after.stepControl? = some ended ∧ Fetched fresh query logs after ended) ∨
      ∃ first rest middle ended failed standing,
        moves = first ++ .step .control :: rest ∧ start.run? first = some middle ∧
          Fetching fresh addresses start middle failed standing ∧
          middle.stepControl? = some ended ∧ ended.run? rest = some after ∧
          ((middle.signalled = false ∧ ∃ begun query logs,
              standing = .waiting begun (.filter query) ∧ middle.answer = some (.logs logs) ∧
              (start.Prompt moves → middle.now ≤ begun + start.parameters.requestTimeout) ∧
              Fetched fresh query logs middle ended) ∨
            GivesUp middle ended)) := by
  have hbegins : Begins (start.fetchLoop fresh addresses) start := ⟨hphase, rfl⟩
  have hnonempty : addresses ≠ [] := by
    have hcovers := hreach.covered.phase
    rw [hphase] at hcovers
    exact hcovers.1.nonempty
  refine ⟨hnonempty, ?_⟩
  rcases hbegins.underWay.of_run hreach id hrun [] rfl with
    ⟨failures, standing, hway⟩ |
    ⟨first, rest, middle, ended, failures, standing, hmoves, hfirst, hway, -, hstep, hrest, hends⟩
  · obtain ⟨failed, hfetching⟩ := hway.fetching
    refine .inl ⟨failed, standing, hfetching, fun begun query logs hstanding hanswer hsignal => ?_⟩
    have hresponsive := (hway.mono False.elim).responsive (hreach.run hrun) False.elim
    obtain ⟨ended, hstep, hsucceeds⟩ :=
      hresponsive.takes hsignal begun _ _ hstanding hanswer rfl
    obtain ⟨_, query', logs', hstanding', hanswer', -, hfetched⟩ := hsucceeds.fetched
    cases hstanding.symm.trans hstanding'
    cases hanswer.symm.trans hanswer'
    exact ⟨ended, hstep, hfetched⟩
  · obtain ⟨failed, hfetching⟩ := hway.fetching
    refine .inr ⟨first, rest, middle, ended, failed, standing, hmoves, hfirst, hfetching, hstep,
      hrest, ?_⟩
    rcases hends with hsucceeds | hgivesUp
    · exact .inl ⟨hsucceeds.signalled, hsucceeds.fetched⟩
    · exact .inr hgivesUp

/-- The second attempt gets a header and a log, which the relay takes. -/
theorem sample_fetch_earlier_logs :
    Sample.fetching.phase = .backfilling (some 0) [Sample.address] 0 .due ∧
      ∃ after, Sample.fetching.run? Sample.movesToRetry = some after ∧
        ∃ middle ended query logs, middle.Reachable ∧
          Fetched (some 0) query logs middle ended := by
  have hphase : Sample.fetching.phase = .backfilling (some 0) [Sample.address] 0 .due := rfl
  obtain ⟨after, hafter, hover, hquiet⟩ := Sample.exists_retried
  refine ⟨hphase, after, hafter, ?_⟩
  rcases (fetch_earlier_logs Sample.reachable_fetching hphase hafter).2 with
    ⟨failed, standing, ⟨⟨attempt, hfetching⟩, -, -⟩, -⟩ |
    ⟨first, rest, middle, ended, failed, standing, hmoves, hfirst, -, hstep, hrest, hends⟩
  · rw [hfetching] at hover
    cases hover
  · have hmiddle := Sample.reachable_fetching.run hfirst
    rcases hends with ⟨-, begun, query, logs, -, -, -, hfetched⟩ | hgivesUp
    · exact ⟨middle, ended, query, logs, hmiddle, hfetched⟩
    · -- The signal is not raised at the end, so it never was.
      have hrun : middle.run? (.step .control :: rest) = some after :=
        Option.bind_eq_some_iff.mpr ⟨ended, hstep, hrest⟩
      have hsignal := ((Farewell.refl hgivesUp.signalled).of_run hmiddle hrun).signalled
      cases hquiet.symm.trans hsignal

end Machine

end LogRelay
