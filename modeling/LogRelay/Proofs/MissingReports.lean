import LogRelay.Relay.Dependents
import Mathlib.Algebra.Order.Ring.Int
import Mathlib.Data.List.Infix
import Mathlib.Logic.Function.Basic
import Mathlib.Order.Bounds.Defs

/-!
# The number of missing reports

A report that comes while nothing is missing is ignored, so the number of missing reports is not
what was declared less what was reported.  It is the greatest such difference over all ends of the
sequence of calls (`isGreatest_pending`), and it exceeds the difference over the whole sequence by
the number of reports that came too early (`pending_eq`).

Any number of handles share a count, and any number of parties wait for it.  A party looks at the
count only when it is polled, so it may miss that nothing was missing for a while; what it found
once it keeps (`isDone_iff`).
-/

namespace LogRelay

namespace Dependents

/-! ## One count -/

/-- What is told to a count. -/
inductive Call where
  /-- So many more services are declared. -/
  | add (count : Nat)
  /-- A service reports. -/
  | ready
deriving DecidableEq

/-- The count once it was told something; what cannot be counted leaves it as it was. -/
def undergo (dependents : Dependents) : Call → Dependents
  | .add count => (dependents.add? count).getD dependents
  | .ready => dependents.ready

/-- The count that was told these calls from the start. -/
def told (calls : List Call) : Dependents := calls.foldl undergo empty

/-- Whether the services are too many to be counted. -/
def refuses (dependents : Dependents) : Call → Bool
  | .add count => (dependents.add? count).isNone
  | .ready => false

/-- The calls that are not refused, one after the other. -/
def accepted (dependents : Dependents) : List Call → List Call
  | [] => []
  | call :: rest =>
      if dependents.refuses call then dependents.accepted rest
      else call :: (dependents.undergo call).accepted rest

/-- The number of reports that come while nothing is missing. -/
def early (dependents : Dependents) : List Call → Nat
  | [] => 0
  | call :: rest =>
      (if call = .ready ∧ dependents.pending = 0 then 1 else 0) +
        (dependents.undergo call).early rest

namespace Call

/-- By how much the services that are declared are more than the reports. -/
def net : List Call → Int
  | [] => 0
  | .add count :: rest => count + net rest
  | .ready :: rest => net rest - 1

/-- The differences between what is declared and what is reported over all ends of a sequence, the
empty one included. -/
def balances (calls : List Call) : Set Int :=
  {missing | ∃ final, final <:+ calls ∧ net final = missing}

theorem net_append (first second : List Call) : net (first ++ second) = net first + net second := by
  induction first with
  | nil => simp [net]
  | cons call rest ih =>
      cases call <;> simp only [List.cons_append, net, ih] <;> omega

end Call

variable (dependents : Dependents)

theorem add?_eq_none_iff {count : Nat} :
    dependents.add? count = none ↔ Decimal.greatestUInt64 < dependents.pending + count := by
  unfold add?
  split
  next h => simpa using h
  next h => simpa using h

theorem undergo_of_refuses {call : Call} (h : dependents.refuses call = true) :
    dependents.undergo call = dependents := by
  cases call with
  | add count => rw [undergo, Option.isNone_iff_eq_none.mp h, Option.getD_none]
  | ready => cases h

/-- What is declared is added, unless it is refused. -/
theorem pending_undergo_add {count : Nat} (h : dependents.refuses (.add count) = false) :
    (dependents.undergo (.add count)).pending = dependents.pending + count := by
  have hle : dependents.pending + count ≤ Decimal.greatestUInt64 := by
    refine Nat.not_lt.mp fun hlt => ?_
    rw [refuses, dependents.add?_eq_none_iff.mpr hlt] at h
    cases h
  rw [undergo, add?, dif_pos hle, Option.getD_some]

theorem pending_undergo_ready :
    (dependents.undergo .ready).pending = dependents.pending - 1 := rfl

theorem accepted_concat (calls : List Call) (call : Call) :
    dependents.accepted (calls ++ [call]) = dependents.accepted calls ++
      if (calls.foldl undergo dependents).refuses call then [] else [call] := by
  induction calls generalizing dependents with
  | nil =>
      rw [List.nil_append, accepted, accepted, List.nil_append]
      rfl
  | cons first rest ih =>
      rw [List.cons_append, accepted, accepted, List.foldl_cons]
      cases hrefuses : dependents.refuses first
      · exact congrArg (first :: ·) (ih (dependents.undergo first))
      · rw [undergo_of_refuses dependents hrefuses]
        exact ih dependents

/-- The count is what was missing at the start, what was declared less what was reported, and the
reports that came too early. -/
theorem pending_eq (calls : List Call) :
    ((calls.foldl undergo dependents).pending : Int) =
      dependents.pending + Call.net (dependents.accepted calls) + dependents.early calls := by
  induction calls generalizing dependents with
  | nil => simp [accepted, early, Call.net]
  | cons call rest ih =>
      rw [List.foldl_cons, ih, accepted, early]
      cases hrefuses : dependents.refuses call with
      | true =>
          have hadd : call ≠ .ready := by
            rintro rfl
            cases hrefuses
          simp [undergo_of_refuses dependents hrefuses, hadd]
      | false =>
          cases call with
          | add count =>
              simp only [pending_undergo_add dependents hrefuses, Call.net, reduceCtorEq, false_and,
                if_false, Bool.false_eq_true]
              omega
          | ready =>
              simp only [pending_undergo_ready, Call.net, true_and, Bool.false_eq_true, if_false]
              split <;> omega

/-- No report comes too early exactly if something is missing whenever one comes. -/
theorem early_eq_zero_iff (calls : List Call) :
    dependents.early calls = 0 ↔ ∀ before later, calls = before ++ .ready :: later →
      0 < (before.foldl undergo dependents).pending := by
  induction calls generalizing dependents with
  | nil => simp [early]
  | cons call rest ih =>
      rw [early, Nat.add_eq_zero_iff, ih]
      constructor
      · rintro ⟨hfirst, hrest⟩ before later heq
        cases before with
        | nil =>
            obtain ⟨rfl, -⟩ := List.cons.inj heq
            simpa [Nat.pos_iff_ne_zero] using hfirst
        | cons first before =>
            obtain ⟨rfl, rfl⟩ := List.cons.inj heq
            exact hrest before later rfl
      · intro h
        refine ⟨?_, fun before later heq => h (call :: before) later (by rw [heq]; rfl)⟩
        have hfirst : ¬(call = .ready ∧ dependents.pending = 0) := by
          rintro ⟨rfl, hzero⟩
          have hpositive : 0 < dependents.pending := h [] rest rfl
          omega
        rw [if_neg hfirst]

variable {dependents}

/-- A call that is not refused keeps the count the greatest difference over all ends: an end of the
longer sequence is empty, or it is an end of the shorter one and the call. -/
theorem isGreatest_undergo {calls : List Call} {call : Call}
    (h : IsGreatest (Call.balances calls) dependents.pending)
    (hrefuses : dependents.refuses call = false) :
    IsGreatest (Call.balances (calls ++ [call])) (dependents.undergo call).pending := by
  obtain ⟨⟨greatest, hgreatest, hmissing⟩, hbound⟩ := h
  have hextend : greatest ++ [call] <:+ calls ++ [call] :=
    List.suffix_concat_iff.mpr (.inr ⟨greatest, rfl, hgreatest⟩)
  have hends {final : List Call} (hfinal : final <:+ calls ++ [call]) :
      Call.net final = 0 ∨ Call.net final ≤ dependents.pending + Call.net [call] := by
    rcases List.suffix_concat_iff.mp hfinal with rfl | ⟨shorter, rfl, hshorter⟩
    · exact .inl rfl
    · have hle := hbound ⟨shorter, hshorter, rfl⟩
      rw [Call.net_append]
      exact .inr (by omega)
  cases call with
  | add count =>
      rw [pending_undergo_add dependents hrefuses]
      refine ⟨⟨_, hextend, ?_⟩, ?_⟩
      · simp only [Call.net_append, hmissing, Call.net]
        omega
      · rintro _ ⟨final, hfinal, rfl⟩
        have hle := hends hfinal
        simp only [Call.net] at hle
        omega
  | ready =>
      rw [pending_undergo_ready]
      refine ⟨?_, ?_⟩
      · by_cases hzero : dependents.pending = 0
        · exact ⟨[], List.nil_suffix, by simp [hzero, Call.net]⟩
        · refine ⟨_, hextend, ?_⟩
          simp only [Call.net_append, hmissing, Call.net]
          omega
      · rintro _ ⟨final, hfinal, rfl⟩
        have hle := hends hfinal
        simp only [Call.net] at hle
        omega

/-- The count is the greatest difference between what was declared and what was reported over all
ends of the sequence of accepted calls. -/
theorem isGreatest_pending (calls : List Call) :
    IsGreatest (Call.balances (empty.accepted calls)) (told calls).pending := by
  induction calls using List.reverseRecOn with
  | nil =>
      refine ⟨⟨[], List.suffix_rfl, rfl⟩, ?_⟩
      rintro _ ⟨final, hfinal, rfl⟩
      rw [List.suffix_nil.mp hfinal]
      exact le_rfl
  | append_singleton calls call ih =>
      have hlast : told (calls ++ [call]) = (told calls).undergo call := List.foldl_concat ..
      rw [accepted_concat, ← told, hlast]
      cases hrefuses : (told calls).refuses call with
      | true =>
          rw [undergo_of_refuses _ hrefuses]
          simpa using ih
      | false => exact isGreatest_undergo ih hrefuses

end Dependents

/-! ## Handles and waiting parties -/

/-- A handle of a count.  Its clones share the count. -/
structure Handle where
  count : Nat
  clone : Nat
deriving DecidableEq

/-- A party that waits for a count. -/
structure WaitingParty where
  count : Nat
  number : Nat
deriving DecidableEq

/-- Counts that do not depend on each other, and parties that wait for them. -/
structure Lobby where
  counts : Nat → Dependents := fun _ => .empty
  waits : WaitingParty → Wait := fun _ => {}

/-- What happens in a lobby. -/
inductive LobbyEvent where
  /-- A count is told something through a handle. -/
  | call (handle : Handle) (call : Dependents.Call)
  /-- A party is polled. -/
  | poll (party : WaitingParty)

namespace Lobby

/-- The lobby after an event. -/
def perform (lobby : Lobby) : LobbyEvent → Lobby
  | .call handle call =>
      { lobby with
        counts := Function.update lobby.counts handle.count
          ((lobby.counts handle.count).undergo call) }
  | .poll party =>
      { lobby with
        waits := Function.update lobby.waits party
          ((lobby.waits party).poll (lobby.counts party.count)) }

/-- The lobby after events one after the other. -/
def after (events : List LobbyEvent) : Lobby := events.foldl perform {}

/-- How many reports a handle sees missing. -/
def pending (lobby : Lobby) (handle : Handle) : Nat := (lobby.counts handle.count).pending

/-- Whether the wait of a party is over. -/
def isDone (lobby : Lobby) (party : WaitingParty) : Bool := (lobby.waits party).done

/-- What a count was told, through whatever handle. -/
def callsOn (count : Nat) (events : List LobbyEvent) : List Dependents.Call :=
  events.filterMap fun
    | .call handle call => if handle.count = count then some call else none
    | .poll _ => none

variable (lobby : Lobby)

theorem after_concat (events : List LobbyEvent) (event : LobbyEvent) :
    after (events ++ [event]) = (after events).perform event := by
  simp [after]

theorem callsOn_concat (count : Nat) (events : List LobbyEvent) (event : LobbyEvent) :
    callsOn count (events ++ [event]) = callsOn count events ++ callsOn count [event] :=
  List.filterMap_append

/-- A count is what it was told makes of it. -/
theorem counts_after (events : List LobbyEvent) (count : Nat) :
    (after events).counts count = .told (callsOn count events) := by
  induction events using List.reverseRecOn with
  | nil => rfl
  | append_singleton events event ih =>
      rw [after_concat, callsOn_concat, Dependents.told, List.foldl_append, ← Dependents.told, ← ih]
      cases event with
      | poll party => rfl
      | call handle call =>
          by_cases h : handle.count = count
          · subst h
            simp [perform, callsOn]
          · simp [perform, callsOn, h, Function.update_of_ne (Ne.symm h)]

/-- What is told to a count does not change another one. -/
theorem pending_perform_of_ne {handle other : Handle} (h : other.count ≠ handle.count)
    (call : Dependents.Call) : (lobby.perform (.call handle call)).pending other =
      lobby.pending other := by
  simp [pending, perform, Function.update_of_ne h]

theorem isDone_perform_poll (party : WaitingParty) :
    (lobby.perform (.poll party)).isDone party =
      (lobby.isDone party || (lobby.counts party.count).areReady) := by
  simp [isDone, perform, Wait.poll]

theorem isDone_perform_of_ne {party : WaitingParty} {event : LobbyEvent}
    (h : event ≠ .poll party) : (lobby.perform event).isDone party = lobby.isDone party := by
  cases event with
  | call handle call => rfl
  | poll other =>
      have hne : party ≠ other := fun heq => h (heq ▸ rfl)
      simp [isDone, perform, Function.update_of_ne hne]

/-- The wait of a party is over exactly if it was polled at a moment at which no report was
missing. -/
theorem isDone_iff (events : List LobbyEvent) (party : WaitingParty) :
    (after events).isDone party = true ↔ ∃ before later,
      events = before ++ .poll party :: later ∧
        ((after before).counts party.count).pending = 0 := by
  induction events using List.reverseRecOn with
  | nil => simp [after, isDone]
  | append_singleton events event ih =>
      have hlast : (∃ before later, events ++ [event] = before ++ .poll party :: later ∧
          ((after before).counts party.count).pending = 0) ↔
          (∃ before later, events = before ++ .poll party :: later ∧
            ((after before).counts party.count).pending = 0) ∨
          event = .poll party ∧ ((after events).counts party.count).pending = 0 := by
        constructor
        · rintro ⟨before, later, heq, hzero⟩
          cases later using List.reverseRecOn with
          | nil =>
              obtain ⟨rfl, hevent⟩ := List.append_inj' heq rfl
              exact .inr ⟨List.head_eq_of_cons_eq hevent, hzero⟩
          | append_singleton later last =>
              rw [← List.cons_append, ← List.append_assoc] at heq
              exact .inl ⟨before, later, (List.append_inj' heq rfl).1, hzero⟩
        · rintro (⟨before, later, rfl, hzero⟩ | ⟨rfl, hzero⟩)
          · exact ⟨before, later ++ [event], by simp, hzero⟩
          · exact ⟨events, [], rfl, hzero⟩
      rw [hlast, ← ih, after_concat]
      by_cases h : event = .poll party
      · subst h
        rw [isDone_perform_poll]
        simp [Dependents.areReady]
      · rw [isDone_perform_of_ne _ h]
        simp [h]

open Dependents (Call told)

/-- **The number of missing reports.**  What any handle sees is the greatest difference between
declared services and reports over all ends of the sequence of calls on its count, refused ones
left out; it is the difference over the whole sequence exactly if no report came while nothing was
missing.  Services that are too many to be counted are refused and change nothing, and a call
changes no other count.  The wait of a party is over exactly if it was polled at a moment at which
no report was missing, and it stays over. -/
theorem counts_missing_reports (events : List LobbyEvent) :
    let lobby := after events
    (∀ handle : Handle,
      let calls := callsOn handle.count events
      let accepted := Dependents.empty.accepted calls
      IsGreatest (Call.balances accepted) (lobby.pending handle) ∧
        ((lobby.pending handle : Int) = Call.net accepted ↔
          ∀ before later, calls = before ++ .ready :: later → 0 < (told before).pending) ∧
        lobby.pending handle ≤ Decimal.greatestUInt64) ∧
    (∀ (handle : Handle) (count : Nat),
      ((lobby.counts handle.count).add? count = none ↔
        Decimal.greatestUInt64 < lobby.pending handle + count) ∧
      (Decimal.greatestUInt64 < lobby.pending handle + count →
        lobby.perform (.call handle (.add count)) = lobby)) ∧
    (∀ (handle other : Handle) (call : Call), other.count ≠ handle.count →
      (lobby.perform (.call handle call)).pending other = lobby.pending other) ∧
    ∀ party : WaitingParty,
      (lobby.isDone party = true ↔ ∃ before later, events = before ++ .poll party :: later ∧
        ((after before).counts party.count).pending = 0) ∧
      (lobby.isDone party = false → ((lobby.perform (.poll party)).isDone party = true ↔
        (lobby.counts party.count).pending = 0)) ∧
      (lobby.isDone party = true → ∀ later, (after (events ++ later)).isDone party = true) := by
  refine ⟨fun handle => ?_, fun handle count => ⟨?_, fun hmany => ?_⟩,
    fun handle other call hne => pending_perform_of_ne _ hne call, fun party =>
      ⟨isDone_iff events party, fun hwaits => ?_, fun hdone later => ?_⟩⟩
  · have hpending := Dependents.empty.pending_eq (callsOn handle.count events)
    rw [pending, counts_after]
    refine ⟨Dependents.isGreatest_pending _, ?_, Dependents.pending_le _⟩
    rw [told, hpending]
    refine Iff.trans ?_ (Dependents.empty.early_eq_zero_iff _)
    simp [Dependents.empty]
  · exact Dependents.add?_eq_none_iff _
  · have hrefuses : ((after events).counts handle.count).refuses (.add count) = true := by
      rw [Dependents.refuses, (Dependents.add?_eq_none_iff _).mpr hmany]
      rfl
    rw [perform, Dependents.undergo_of_refuses _ hrefuses, Function.update_eq_self]
  · rw [isDone_perform_poll, hwaits, Bool.false_or, Dependents.areReady, beq_iff_eq]
  · obtain ⟨before, between, rfl, hzero⟩ := (isDone_iff events party).mp hdone
    exact (isDone_iff _ party).mpr ⟨before, between ++ later, by simp, hzero⟩

/-! ### A moment that one party misses -/

namespace Sample

/-- One service is declared, which reports, once too often; then two more are declared.  Another
count has a service of its own, and more services than can be counted are refused. -/
def events : List LobbyEvent :=
  [.call ⟨0, 0⟩ (.add 1), .poll ⟨0, 0⟩, .call ⟨0, 1⟩ .ready, .poll ⟨0, 1⟩, .call ⟨0, 0⟩ .ready,
    .call ⟨0, 2⟩ (.add 2), .call ⟨1, 0⟩ (.add 5), .call ⟨0, 1⟩ (.add Decimal.greatestUInt64),
    .poll ⟨0, 0⟩]

end Sample

/-- The report that came too early does not count, only one of the parties finds that nothing is
missing, and the other one still waits. -/
theorem sample_counts_missing_reports :
    let lobby := after Sample.events
    lobby.pending ⟨0, 0⟩ = 2 ∧
      (∃ final, final <:+ Dependents.empty.accepted (callsOn 0 Sample.events) ∧
        Call.net final = 2) ∧
      Call.net (Dependents.empty.accepted (callsOn 0 Sample.events)) = 1 ∧
      ¬(∀ before later, callsOn 0 Sample.events = before ++ .ready :: later →
        0 < (told before).pending) ∧
      lobby.perform (.call ⟨0, 1⟩ (.add Decimal.greatestUInt64)) = lobby ∧
      (lobby.perform (.call ⟨1, 0⟩ .ready)).pending ⟨0, 0⟩ = 2 ∧
      (lobby.isDone ⟨0, 1⟩ = true ∧
        ∀ later, (after (Sample.events ++ later)).isDone ⟨0, 1⟩ = true) ∧
      lobby.isDone ⟨0, 0⟩ = false ∧ (lobby.perform (.poll ⟨0, 0⟩)).isDone ⟨0, 0⟩ ≠ true := by
  obtain ⟨hpending, hadd, hother, hparty⟩ := counts_missing_reports Sample.events
  have htwo : (after Sample.events).pending ⟨0, 0⟩ = 2 := by decide
  have hnet : Call.net (Dependents.empty.accepted (callsOn 0 Sample.events)) = 1 := by decide
  have hdone : (after Sample.events).isDone ⟨0, 1⟩ = true := by decide
  have hwaits : (after Sample.events).isDone ⟨0, 0⟩ = false := by decide
  obtain ⟨⟨hgreatest, -⟩, hwhole, -⟩ := hpending ⟨0, 0⟩
  rw [htwo] at hgreatest hwhole
  refine ⟨htwo, hgreatest, hnet, fun htime => ?_, (hadd ⟨0, 1⟩ _).2 (by decide),
    (hother ⟨1, 0⟩ ⟨0, 0⟩ .ready (by decide)).trans htwo,
    ⟨hdone, (hparty ⟨0, 1⟩).2.2 hdone⟩, hwaits, fun hover => ?_⟩
  · have hsame := hwhole.mpr htime
    rw [hnet] at hsame
    exact absurd hsame (by decide)
  · have hzero := ((hparty ⟨0, 0⟩).2.1 hwaits).mp hover
    exact absurd hzero (by decide)

end Lobby

end LogRelay
