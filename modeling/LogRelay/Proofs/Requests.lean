import LogRelay.Proofs.Coverage

/-!
# What is asked while earlier logs are fetched

An attempt to fetch asks twice: for the latest header, and then for the logs of the
addresses from a block on that lies at most `depth` blocks below the header.  Nothing
but a step in which the relay talks to the client leads to a request that waits for its
answer (`ControlStep.clientStep_of_asking`), so that only three steps have to be looked
at: those that ask.
-/

namespace LogRelay

/-- The latest header, as far as the client has said. -/
@[simp] def History.seenHeader? : History → Option Header
  | [] => none
  | .answered .header (.header (some header)) :: _ => some header
  | _ :: older => seenHeader? older

/-- The query for the logs of these addresses, beginning `depth` blocks below the header. -/
def FilterQuery.below (header : Header) (depth : Nat) (addresses : List Address) : FilterQuery :=
  (FilterQuery.ofAddresses addresses).startingAt
    (UInt64.ofNat (Machine.startBlock header.number.toNat depth))

theorem FilterQuery.selects_below {header : Header} {depth : Nat} {addresses : List Address}
    {log : RawLog} : (below header depth addresses).selects log = true ↔
      log.address ∈ addresses ∧
        Machine.startBlock header.number.toNat depth ≤ log.blockNumber.toNat := by
  have hlt : Machine.startBlock header.number.toNat depth < 2 ^ 64 :=
    Nat.lt_of_le_of_lt (Nat.sub_le ..) header.number.toNat_lt
  have hblock : (UInt64.ofNat (Machine.startBlock header.number.toNat depth)).toNat =
      Machine.startBlock header.number.toNat depth := by
    rw [UInt64.toNat_ofNat']
    exact Nat.mod_eq_of_lt hlt
  simp [selects, below, startingAt, ofAddresses, UInt64.le_iff_toNat_le, hblock]

namespace Machine

variable {machine after : Machine} {request : ClientRequest} {number deadline : Nat}

/-- A pass that begins either is at its first attempt to subscribe or is complete. -/
theorem attempt?_beginPass (machine : Machine) :
    machine.beginPass.phase.attempt? = none ∨
      ∃ addresses, machine.beginPass.phase = .subscribing addresses 0 .due := by
  rw [beginPass_eq]
  split
  next => exact .inl (passEnds_completePass ..).attempt?
  next => exact .inr ⟨_, rfl⟩

/-- Nothing but a pass that begins or talking to the client leads to an attempt. -/
theorem ControlStep.clientStep_of_attempt {attempt : Attempt} (h : ControlStep machine after)
    (hattempt : after.phase.attempt? = some attempt) :
    ClientStep machine after ∨ ∃ addresses, after.phase = .subscribing addresses 0 .due := by
  have hbegins : ∀ start : Machine, start.beginPass.phase.attempt? = some attempt →
      ∃ addresses, start.beginPass.phase = .subscribing addresses 0 .due := by
    intro start hbegin
    rcases start.attempt?_beginPass with hnone | hdue
    · rw [hnone] at hbegin
      cases hbegin
    · exact hdue
  cases h with
  | talked _ htalk => exact .inl htalk
  | interrupted | ticked | streamEnded => cases hattempt
  | ready | resubscribed | lost => exact .inr (hbegins _ hattempt)
  | @handled caller command mailbox callers hphase =>
      have hnone := Phase.attempt?_afterHandling hphase (machine.registry.changes command)
      cases hnone.symm.trans hattempt
  | @repeated caller command mailbox =>
      obtain ⟨quiet, hdown⟩ := machine.breaksDown_repeated caller command mailbox
      rw [hdown.phase] at hattempt
      cases hattempt
  | left =>
      obtain ⟨quiet, quiet', subscriptions, -, -, -, heq⟩ := machine.leave_eq machine.phase.fresh?
      rw [heq] at hattempt
      cases hattempt
  | fetched =>
      rw [(passEnds_completePass ..).attempt?] at hattempt
      cases hattempt
  | @took _ _ log pipeline hphase =>
      have hnone := attempt?_dispatch ({ machine with pipeline }.record [.took log]) log
        (congrArg Phase.attempt? hphase)
      rw [hnone.1] at hattempt
      cases hattempt
  | ended =>
      obtain ⟨callers, heq, -⟩ := machine.closeMailbox_eq
      rw [heq] at hattempt
      cases hattempt

/-- Nothing but talking to the client leads to a request that waits for its answer. -/
theorem ControlStep.clientStep_of_asking (h : ControlStep machine after)
    (hasking : after.phase.attempt? = some (.asking request number deadline)) :
    ClientStep machine after := by
  rcases h.clientStep_of_attempt hasking with htalk | ⟨addresses, hdue⟩
  · exact htalk
  · rw [hdue] at hasking
    cases hasking

/-- While the relay fetches, it asks for the latest header, or for the logs of the addresses from
the first block of interest on. -/
def Fetches (machine : Machine) : Prop :=
  ∀ fresh addresses failures request number deadline,
    machine.phase = .backfilling fresh addresses failures (.asking request number deadline) →
      request = .header ∨ ∃ header, machine.history.seenHeader? = some header ∧
        request = .filter (.below header machine.parameters.depth addresses)

theorem fetches_of_controlStep (h : ControlStep machine after) : Fetches after := by
  intro fresh addresses failures request number deadline hphase
  have htalk := h.clientStep_of_asking (congrArg Phase.attempt? hphase)
  cases htalk with
  | askedForHeader =>
      cases hphase
      exact .inl rfl
  | @askedForLogs _ _ _ _ _ header =>
      cases hphase
      exact .inr ⟨header, rfl, rfl⟩
  | _ => cases hphase

theorem Reachable.fetches (h : Reachable machine) : Fetches machine := by
  induction h using Reachable.always with
  | initial =>
      intro fresh addresses failures request number deadline hphase
      cases hphase
  | control _ _ hstep _ => exact fetches_of_controlStep hstep
  | outside _ _ hstep ih =>
      intro fresh addresses failures request number deadline hphase
      have haside := hstep.aside
      have hbefore := haside.phase_eq (by simp [hphase])
      rw [haside.parameters]
      rcases haside.history with heq | ⟨sender, log, heq⟩
      all_goals
        rw [heq]
        exact ih _ _ _ _ _ _ (hbefore.trans hphase)

end Machine

end LogRelay
