import LogRelay.Proofs.Harvests
import LogRelay.Proofs.Listening

/-!
# No log falls between the earlier logs and the live ones

A pass subscribes first, then asks for the latest header, and then for the logs from a block on that
lies `depth` blocks below it.  A log of its addresses from that block on was emitted before
the last of these requests, and then it is among the earlier logs; or it was emitted after
the subscription was obtained, and then the client has sent it.  Since the subscription
comes first, there is no third case.

```text
      lease            request for logs              answer
  ------|---------------------|------------------------|------
  <---- among the earlier logs ---->
        <-------- sent on the subscription ------------------>
```
-/

namespace LogRelay

theorem Chronicle.beforeRequest_suffix (chronicle : Chronicle) :
    chronicle.beforeRequest <:+ chronicle := by
  induction chronicle with
  | nil => exact List.suffix_rfl
  | cons occurrence older ih =>
      have hsuffix := ih.trans (List.suffix_cons occurrence older)
      cases occurrence with
      | relay effect =>
          cases effect
          case asked request => exact List.suffix_cons ..
          all_goals exact hsuffix
      | emitted log | failed number => exact hsuffix

/-! ## What was emitted is sent or fetched -/

namespace Feed

open Machine

variable {feed after : Feed}

/-- Every log was sent on all subscriptions on which it had to be sent. -/
def Sent (chronicle : Chronicle) : Prop :=
  ∀ (newer : Chronicle) (log : RawLog) (older : Chronicle),
    chronicle = newer ++ .emitted log :: older →
    ∀ number query, (number, query) ∈ older.history.leases → query.selects log = true →
      number ∉ older.failed → number ∉ older.history.tornDown →
        log ∈ chronicle.history.accepted number

/-- A pass without addresses has gathered nothing that would have to be backed.  Otherwise its
logs are all that were emitted before the chronicle had come to a point after the lease. -/
inductive Backed (depth : Nat) (chronicle : Chronicle) (harvest : Harvest) : Prop
  | idle (haddresses : harvest.addresses? = some []) (hfresh : harvest.fresh = none)
  | fetched {number : Nat} {addresses : List Address} {header : Header} {early : Chronicle}
      (haddresses : harvest.addresses? = some addresses) (hfresh : harvest.fresh = some number)
      (hheader : harvest.header? = some header) (hearly : early <:+ chronicle)
      (hlease : (number, .ofAddresses addresses) ∈ early.history.leases)
      (hlogs : ∀ log ∈ early.emitted,
        (FilterQuery.below header depth addresses).selects log = true → log ∈ harvest.logs)

/-- When the relay fetches, the subscription was obtained before the latest request was made; and if
logs were given as the answer, they are all that were emitted before. -/
structure Informed (feed : Feed) : Prop where
  leased : ∀ number addresses failures request asked deadline,
    feed.relay.phase =
        .backfilling (some number) addresses failures (.asking request asked deadline) →
      (number, .ofAddresses addresses) ∈ feed.chronicle.beforeRequest.history.leases
  answered : ∀ query asked deadline logs,
    feed.relay.phase.attempt? = some (.asking (.filter query) asked deadline) →
      feed.relay.answer = some (.logs logs) →
        ∀ log ∈ feed.chronicle.beforeRequest.emitted, query.selects log = true → log ∈ logs

/-- Nothing that was emitted is missing. -/
structure Gapless (feed : Feed) : Prop where
  sent : Sent feed.chronicle
  informed : Informed feed
  backed : ∀ harvest ∈ feed.relay.history.harvests,
    Backed feed.relay.parameters.depth feed.chronicle harvest

theorem Sent.append {burst older : Chronicle} (h : Sent older)
    (hburst : ∀ occurrence ∈ burst, ∀ log, occurrence ≠ .emitted log) : Sent (burst ++ older) := by
  intro newer log before heq number query hlease hselects hsound hup
  rcases List.append_eq_append_iff.mp heq with ⟨more, rfl, holder⟩ | ⟨rest, hrest, hbefore⟩
  · have hmem := h more log before holder number query hlease hselects hsound hup
    rw [history_append]
    exact History.mem_accepted_append _ hmem
  · cases rest with
    | nil =>
        have hmem := h [] log before hbefore.symm number query hlease hselects hsound hup
        rw [history_append]
        exact History.mem_accepted_append _ hmem
    | cons head rest =>
        obtain ⟨rfl, -⟩ := List.cons.inj hbefore
        refine absurd rfl (hburst (.emitted log) ?_ log)
        rw [hrest]
        exact List.mem_append_right _ (List.mem_cons_self ..)

theorem Backed.append {depth : Nat} {older : Chronicle} {harvest : Harvest}
    (h : Backed depth older harvest) (burst : Chronicle) :
    Backed depth (burst ++ older) harvest := by
  cases h with
  | idle haddresses hfresh => exact .idle haddresses hfresh
  | fetched haddresses hfresh hheader hearly hlease hlogs =>
      exact .fetched haddresses hfresh hheader (hearly.trans (List.suffix_append burst older))
        hlease hlogs

/-! ## Logs that are emitted -/

theorem Gapless.send (h : Gapless feed) (log : RawLog) (number : Nat) :
    Gapless (send log feed number) := by
  obtain ⟨hsent, hinformed, hbacked⟩ := h
  rcases send_cases log feed number with ⟨subscriptions, -, heq⟩ | heq
  · rw [heq]
    refine ⟨?_, ⟨hinformed.leased, hinformed.answered⟩, fun harvest hmem => ?_⟩
    · have hnone : ∀ occurrence ∈ ([.relay (.accepted number log)] : Chronicle),
          ∀ sent, occurrence ≠ .emitted sent := by simp
      exact hsent.append hnone
    · exact (hbacked harvest hmem).append [.relay (.accepted number log)]
  · rw [heq]
    refine ⟨?_, ⟨hinformed.leased, hinformed.answered⟩, fun harvest hmem => ?_⟩
    · have hnone : ∀ occurrence ∈ ([.failed number] : Chronicle),
          ∀ sent, occurrence ≠ .emitted sent := by simp
      exact hsent.append hnone
    · exact (hbacked harvest hmem).append [.failed number]

/-- The log was accepted, or the subscription has failed. -/
def Reaches (log : RawLog) (number : Nat) (feed : Feed) : Prop :=
  number ∈ feed.chronicle.failed ∨ log ∈ feed.chronicle.history.accepted number

theorem Reaches.send {log : RawLog} {number : Nat} (h : Reaches log number feed)
    (sent : RawLog) (other : Nat) : Reaches log number (send sent feed other) := by
  rcases send_cases sent feed other with ⟨subscriptions, -, heq⟩ | heq
  · rw [heq]
    rcases h with hfailed | haccepted
    · exact .inl hfailed
    · exact .inr (History.mem_accepted_append [.accepted other sent] haccepted)
  · rw [heq]
    rcases h with hfailed | haccepted
    · exact .inl (List.mem_cons_of_mem _ hfailed)
    · exact .inr haccepted

theorem reaches_send (log : RawLog) (feed : Feed) (number : Nat) :
    Reaches log number (send log feed number) := by
  rcases send_cases log feed number with ⟨subscriptions, -, heq⟩ | heq
  · rw [heq]
    exact .inr (by simp)
  · rw [heq]
    exact .inl (List.mem_cons_self ..)

theorem reaches_foldl_send (log : RawLog) {numbers : List Nat} {number : Nat}
    (hmem : number ∈ numbers) (feed : Feed) :
    Reaches log number (numbers.foldl (send log) feed) := by
  induction numbers generalizing feed with
  | nil => cases hmem
  | cons first rest ih =>
      rcases List.mem_cons.mp hmem with rfl | hrest
      · exact foldl_send (P := Reaches log number) log
          (fun _ other hreaches => hreaches.send log other) (reaches_send log feed number) rest
      · exact ih hrest (send log feed first)

/-- Sending leaves leases and tear-downs alone. -/
structure Stays (feed after : Feed) : Prop where
  leases : after.chronicle.history.leases = feed.chronicle.history.leases
  tornDown : after.chronicle.history.tornDown = feed.chronicle.history.tornDown
  failed : ∀ number ∈ feed.chronicle.failed, number ∈ after.chronicle.failed

theorem Stays.send (h : Stays feed after) (log : RawLog) (number : Nat) :
    Stays feed (send log after number) := by
  rcases send_cases log after number with ⟨subscriptions, -, heq⟩ | heq
  · rw [heq]
    exact ⟨h.leases, h.tornDown, h.failed⟩
  · rw [heq]
    exact ⟨h.leases, h.tornDown, fun other hmem => List.mem_cons_of_mem _ (h.failed other hmem)⟩

theorem Gapless.emit (h : Gapless feed) (log : RawLog) : Gapless (feed.emit log) := by
  have hsends := foldl_send (P := Gapless) log (fun _ number hfeed => hfeed.send log number) h
    (feed.receivers log)
  have hstays := foldl_send (P := Stays feed) log (fun _ number hfeed => hfeed.send log number)
    ⟨rfl, rfl, fun _ hmem => hmem⟩ (feed.receivers log)
  refine ⟨fun newer emitted older heq number query hlease hselects hsound hup => ?_,
    ⟨hsends.informed.leased, hsends.informed.answered⟩, fun harvest hmem => ?_⟩
  · cases newer with
    | nil =>
        -- The log was just sent to all that have to receive it.
        obtain ⟨hlog, rfl⟩ := List.cons.inj heq
        cases hlog
        rw [hstays.leases] at hlease
        rw [hstays.tornDown] at hup
        have hreceives : number ∈ feed.receivers log := by
          refine List.mem_map.mpr ⟨(number, query), List.mem_filter.mpr ⟨hlease, ?_⟩, rfl⟩
          have hsound : number ∉ feed.chronicle.failed :=
            fun hmem => hsound (hstays.failed number hmem)
          simp [hselects, hsound, hup]
        exact (reaches_foldl_send log hreceives feed).resolve_left hsound
    | cons head newer =>
        obtain ⟨-, hrest⟩ := List.cons.inj heq
        exact hsends.sent newer emitted older hrest number query hlease hselects hsound hup
  · exact (hsends.backed harvest hmem).append [.emitted log]

/-! ## Moves of the relay -/

theorem beforeRequest_of_silent {burst : Chronicle}
    (h : ∀ occurrence ∈ burst, ∀ request, occurrence ≠ .relay (.asked request))
    (older : Chronicle) : (burst ++ older).beforeRequest = older.beforeRequest := by
  induction burst with
  | nil => rfl
  | cons occurrence burst ih =>
      obtain ⟨hfirst, hrest⟩ := List.forall_mem_cons.mp h
      cases occurrence with
      | relay effect =>
          cases effect
          case asked request => exact absurd rfl (hfirst request)
          all_goals exact ih hrest
      | emitted log | failed number => exact ih hrest

theorem Informed.of_clientStep (hlinked : Linked feed) {relay : Machine} {chronicle : Chronicle}
    {burst : History} (hburst : relay.history = burst ++ feed.relay.history)
    (hchronicle : chronicle = burst.map .relay ++ feed.chronicle)
    (hstep : ClientStep feed.relay relay) : Informed { relay, chronicle } := by
  have hcovers := hlinked.reachable.covered.phase
  have hlease : ∀ {number : Nat} {addresses : List Address} {failures : Nat} {attempt : Attempt},
      feed.relay.phase = .backfilling (some number) addresses failures attempt →
        (number, .ofAddresses addresses) ∈ feed.chronicle.history.leases := by
    intro number addresses failures attempt hphase
    rw [hphase] at hcovers
    obtain ⟨-, mine, hmine, hquery⟩ := hcovers
    cases hmine
    rw [hlinked.history]
    exact History.mem_leases_of_queryOf? hquery
  cases hstep with
  | askedForHeader hphase =>
      have heq : burst = [.asked .header] := List.append_cancel_right hburst.symm
      subst heq hchronicle
      refine ⟨fun number addresses failures request asked deadline hasking => ?_,
        fun _ _ _ _ _ hanswer => ?_⟩
      · cases hasking
        exact hlease hphase
      · cases hanswer
  | @askedForLogs _ _ _ _ _ header hphase =>
      have heq : burst = [Effect.asked _, Effect.answered .header (.header (some header))] :=
        List.append_cancel_right hburst.symm
      subst heq hchronicle
      refine ⟨fun number addresses failures request asked deadline hasking => ?_,
        fun _ _ _ _ _ hanswer => ?_⟩
      · cases hasking
        exact hlease hphase
      · cases hanswer
  | askedToSubscribe =>
      refine ⟨fun _ _ _ _ _ _ hphase => ?_, fun _ _ _ _ _ hanswer => ?_⟩
      · cases hphase
      · cases hanswer
  | restedToSubscribe | refusedToSubscribe | gaveUpToSubscribe | subscribed | restedToFetch
  | refusedToFetch | gaveUpToFetch =>
      refine ⟨fun _ _ _ _ _ _ hphase => ?_, fun _ _ _ _ hasking _ => ?_⟩
      · cases hphase
      · cases hasking

/-- What a step of the control task gathers is backed, and what was gathered before still is. -/
theorem Gapless.backed_of_control (h : Gapless feed) (hlinked : Linked feed) {relay : Machine}
    {chronicle : Chronicle} {burst : History}
    (hburst : relay.history = burst ++ feed.relay.history)
    (hchronicle : chronicle = burst.map .relay ++ feed.chronicle)
    (hstep : ControlStep feed.relay relay) {harvest : Harvest}
    (hmem : harvest ∈ relay.history.harvests) :
    Backed feed.relay.parameters.depth chronicle harvest := by
  have hkept : ∀ harvest ∈ feed.relay.history.harvests,
      Backed feed.relay.parameters.depth chronicle harvest := by
    intro harvest hmem
    rw [hchronicle]
    exact (h.backed harvest hmem).append _
  cases hstep.gathers with
  | nothing hpasses =>
      rw [hburst] at hpasses hmem
      rw [History.harvests_of_passes hpasses] at hmem
      exact hkept harvest hmem
  | @idle before middle hbegan hpasses hends =>
      have hsince : middle.history = (.began [] :: before) ++ feed.relay.history := hbegan
      have hsame : middle.history.harvests = feed.relay.history.harvests := by
        rw [hsince] at hpasses ⊢
        exact History.harvests_of_passes hpasses
      rw [hends.harvests, hsame] at hmem
      rcases List.mem_append.mp hmem with hold | hnew
      · exact hkept harvest hold
      · rw [List.mem_singleton.mp hnew, hbegan]
        exact .idle rfl rfl
  | fetched hphase hanswer hends =>
      -- The logs were asked for after the lease and given for the addresses of the pass.
      have hcovers := hlinked.reachable.covered.phase
      rw [hphase] at hcovers
      obtain ⟨hin, number, rfl, -⟩ := hcovers
      rw [hends.harvests] at hmem
      rcases List.mem_append.mp hmem with hold | hnew
      · exact hkept harvest hold
      · rw [List.mem_singleton.mp hnew]
        rcases hlinked.reachable.fetches _ _ _ _ _ _ hphase with
          hheader | ⟨header, hseen, hquery⟩
        · cases hheader
        · cases hquery
          have hearly := (Chronicle.beforeRequest_suffix feed.chronicle).trans
            (List.suffix_append (burst.map .relay) feed.chronicle)
          rw [← hchronicle] at hearly
          have hattempt := congrArg Phase.attempt? hphase
          exact .fetched hin.latest rfl hseen hearly
            (h.informed.leased _ _ _ _ _ _ hphase)
            (h.informed.answered _ _ _ _ hattempt hanswer)

theorem Gapless.of_control (h : Gapless feed) (hlinked : Linked feed) {relay : Machine}
    {chronicle : Chronicle} {burst : History}
    (hburst : relay.history = burst ++ feed.relay.history)
    (hchronicle : chronicle = burst.map .relay ++ feed.chronicle)
    (hstep : ControlStep feed.relay relay) : Gapless { relay, chronicle } := by
  refine ⟨?_, ?_, fun harvest hmem => ?_⟩
  · rw [hchronicle]
    refine h.sent.append fun occurrence hmem log => ?_
    obtain ⟨effect, -, rfl⟩ := List.mem_map.mp hmem
    simp
  · -- Only talking to the client leads to a request that waits for its answer.
    by_cases hasking : ∃ request asked deadline,
        relay.phase.attempt? = some (.asking request asked deadline)
    · obtain ⟨request, asked, deadline, hasking⟩ := hasking
      exact .of_clientStep hlinked hburst hchronicle (hstep.clientStep_of_asking hasking)
    · refine ⟨fun _ _ _ request asked deadline hphase => ?_,
        fun query asked deadline _ hattempt => ?_⟩
      · exact absurd ⟨request, asked, deadline, congrArg Phase.attempt? hphase⟩ hasking
      · exact absurd ⟨.filter query, asked, deadline, hattempt⟩ hasking
  · rw [hstep.frame.parameters]
    exact h.backed_of_control hlinked hburst hchronicle hstep hmem

/-- The client may only give logs that are all it was asked for. -/
theorem mem_of_permits {number : Nat} {logs : List RawLog} {query : FilterQuery}
    {asked deadline : Nat}
    (hpermits : feed.permits (.reply number (.logs logs)) = true)
    (hawaits : feed.relay.awaits number = true)
    (hattempt : feed.relay.phase.attempt? = some (.asking (.filter query) asked deadline))
    {log : RawLog} (hemitted : log ∈ feed.chronicle.beforeRequest.emitted)
    (hselects : query.selects log = true) : log ∈ logs := by
  simp only [Machine.awaits, hattempt, Bool.and_eq_true, beq_iff_eq] at hawaits
  simp only [permits, hattempt, hawaits.1, bne_self_eq_false, Bool.false_or, List.all_eq_true,
    Bool.or_eq_true, Bool.not_eq_true', List.contains_iff_mem] at hpermits
  rcases hpermits log hemitted with hother | hmem
  · rw [hselects] at hother
    cases hother
  · exact hmem

/-- All that other moves add to the history is that a log is accepted. -/
theorem exists_accepted_of_aside {machine after : Machine} (h : Aside machine after)
    {burst : History} (hburst : after.history = burst ++ machine.history) :
    ∀ effect ∈ burst, ∃ number log, effect = .accepted number log := by
  rcases h.history with heq | ⟨number, log, heq⟩
  · have hnone : burst = [] := List.append_left_eq_self.mp (hburst.symm.trans heq)
    rw [hnone]
    exact fun _ hmem => absurd hmem List.not_mem_nil
  · have hone : burst = [Effect.accepted number log] :=
      List.append_cancel_right (hburst.symm.trans heq)
    rw [hone]
    exact List.forall_mem_singleton.mpr ⟨number, log, rfl⟩

theorem Gapless.of_outside (h : Gapless feed) (hlinked : Linked feed) {move : Move}
    (hmove : move ≠ .step .control) {relay : Machine} {chronicle : Chronicle} {burst : History}
    (hpermits : feed.permits move = true) (hperform : feed.relay.perform? move = some relay)
    (hburst : relay.history = burst ++ feed.relay.history)
    (hchronicle : chronicle =
      burst.map .relay ++ (move.failures.map .failed ++ feed.chronicle)) :
    Gapless { relay, chronicle } := by
  obtain ⟨hsent, hinformed, hbacked⟩ := h
  have haside := (outsideStep_of_perform? hmove hlinked.reachable.idle_of_created hperform).aside
  have haccepts := exists_accepted_of_aside haside hburst
  have hadded : chronicle =
      (burst.map .relay ++ move.failures.map .failed) ++ feed.chronicle := by
    rw [hchronicle, List.append_assoc]
  have hsilent : ∀ occurrence ∈ burst.map Occurrence.relay ++ move.failures.map .failed,
      (∀ log, occurrence ≠ .emitted log) ∧ ∀ request, occurrence ≠ .relay (.asked request) := by
    intro occurrence hmem
    rcases List.mem_append.mp hmem with heffect | hfailure
    · obtain ⟨effect, hin, rfl⟩ := List.mem_map.mp heffect
      obtain ⟨number, log, rfl⟩ := haccepts effect hin
      exact ⟨by simp, by simp⟩
    · obtain ⟨number, -, rfl⟩ := List.mem_map.mp hfailure
      exact ⟨by simp, by simp⟩
  have hbefore : chronicle.beforeRequest = feed.chronicle.beforeRequest := by
    rw [hadded]
    exact beforeRequest_of_silent (fun occurrence hmem => (hsilent occurrence hmem).2) _
  refine ⟨?_, ⟨fun number addresses failures request asked deadline hphase => ?_,
    fun query asked deadline logs hattempt hanswer log hemitted hselects => ?_⟩,
    fun harvest hmem => ?_⟩
  · rw [hadded]
    exact hsent.append fun occurrence hmem => (hsilent occurrence hmem).1
  · have hsame := haside.phase_eq fun hwaiting => by cases hphase.symm.trans hwaiting
    change _ ∈ chronicle.beforeRequest.history.leases
    rw [hbefore]
    exact hinformed.leased number addresses failures request asked deadline (hsame.trans hphase)
  · have hsame : feed.relay.phase.attempt? = some (.asking (.filter query) asked deadline) := by
      rw [haside.phase_eq fun hwaiting => by rw [hwaiting] at hattempt; cases hattempt]
      exact hattempt
    change log ∈ chronicle.beforeRequest.emitted at hemitted
    rw [hbefore] at hemitted
    rcases answer_of_perform? hmove hperform hanswer with hold | ⟨number, rfl, hawaits⟩
    · exact hinformed.answered query asked deadline logs hsame hold log hemitted hselects
    · exact mem_of_permits hpermits hawaits hsame hemitted hselects
  · have hpasses : (burst ++ feed.relay.history).passes = feed.relay.history.passes := by
      refine History.append_eq_of_neutral _ fun effect hin history => ?_
      obtain ⟨number, log, rfl⟩ := haccepts effect hin
      rfl
    change harvest ∈ relay.history.harvests at hmem
    rw [hburst, History.harvests_of_passes hpasses] at hmem
    rw [haside.parameters, hadded]
    exact (hbacked harvest hmem).append _

theorem Reachable.gapless (h : Reachable feed) : Gapless feed := by
  induction h with
  | initial parameters breaksOn =>
      refine ⟨fun newer log older heq => ?_, ⟨fun _ _ _ _ _ _ hphase => ?_,
        fun _ _ _ _ hattempt => ?_⟩, fun _ hmem => ?_⟩
      · exact absurd heq.symm (by simp [Feed.initial])
      · cases hphase
      · cases hattempt
      · cases hmem
  | @move feed after move hreach hperform ih =>
      cases move with
      | emit log =>
          cases hperform
          exact ih.emit log
      | relay move =>
          have hlinked := hreach.linked
          obtain ⟨hpermits, hrelay, burst, hburst, hchronicle⟩ := hlinked.perform?_relay hperform
          by_cases hmove : move = .step .control
          · subst hmove
            exact ih.of_control hlinked hburst hchronicle (controlStep_of_stepControl? hrelay)
          · exact ih.of_outside hlinked hmove hpermits hrelay hburst hchronicle

/-! ## Nothing falls between -/

theorem mem_emitted (newer : Chronicle) (log : RawLog) (older : Chronicle) :
    log ∈ (newer ++ .emitted log :: older).emitted := by
  induction newer with
  | nil => exact List.mem_cons_self ..
  | cons occurrence newer ih =>
      cases occurrence with
      | emitted other => exact List.mem_cons_of_mem _ ih
      | failed number | relay effect => exact ih

/-- The pass with this subscription owes the log to the relay: the log was emitted before the
subscription failed or was torn down, and it is of interest. -/
structure Owes (feed : Feed) (number : Nat) (addresses : List Address) (header : Header)
    (log : RawLog) : Prop where
  emitted : ∃ newer older : Chronicle, feed.chronicle = newer ++ .emitted log :: older ∧
    number ∉ older.failed ∧ number ∉ older.history.tornDown
  address : log.address ∈ addresses
  block : startBlock header.number.toNat feed.relay.parameters.depth ≤ log.blockNumber.toNat

/-- A log that is owed was emitted before the request for the earlier logs, or after the lease. -/
theorem Gapless.gathers (h : Gapless feed) (hlinked : Linked feed) {harvest : Harvest}
    {number : Nat} {addresses : List Address} {header : Header} {early : Chronicle}
    (hearly : early <:+ feed.chronicle)
    (hlease : (number, .ofAddresses addresses) ∈ early.history.leases)
    (hlogs : ∀ log ∈ early.emitted,
      (FilterQuery.below header feed.relay.parameters.depth addresses).selects log = true →
        log ∈ harvest.logs)
    {log : RawLog} (howes : Owes feed number addresses header log) :
    log ∈ harvest.logs ++ feed.relay.history.accepted number := by
  obtain ⟨⟨newer, older, hchronicle, hsound, hup⟩, haddress, hblock⟩ := howes
  have hselects : (FilterQuery.ofAddresses addresses).selects log = true := by
    simp [FilterQuery.selects, FilterQuery.ofAddresses, haddress]
  have hfetched : ∀ between : Chronicle, early = between ++ .emitted log :: older →
      log ∈ harvest.logs := by
    rintro between rfl
    exact hlogs log (mem_emitted between log older)
      (FilterQuery.selects_below.mpr ⟨haddress, hblock⟩)
  obtain ⟨since, hsince⟩ := hearly
  rcases List.append_eq_append_iff.mp (hsince.trans hchronicle) with
    ⟨between, -, hbefore⟩ | ⟨between, -, hafter⟩
  · exact List.mem_append_left _ (hfetched between hbefore)
  · cases between with
    | nil => exact List.mem_append_left _ (hfetched [] hafter.symm)
    | cons first between =>
        have hsince : older = between ++ early := (List.cons.inj hafter).2
        have hleased : (number, .ofAddresses addresses) ∈ older.history.leases := by
          rw [hsince, history_append]
          exact History.mem_leases_append _ hlease
        have hmem := h.sent newer log older hchronicle number _ hleased hselects hsound hup
        rw [hlinked.history] at hmem
        exact List.mem_append_right _ hmem

/-- Unless the relay was interrupted, what a pass offers is taken or still in the stages. -/
theorem mem_taken_or_inFlight {machine : Machine} (h : machine.Reachable)
    (hsignal : machine.signalled = false) (hrunning : machine.phase ≠ .crashed)
    {harvest : Harvest} (hmem : harvest ∈ machine.history.harvests) {number : Nat}
    (hfresh : harvest.fresh = some number) {log : RawLog}
    (hlog : log ∈ harvest.logs ++ machine.history.accepted number) :
    log ∈ machine.history.taken ++ machine.channels.inFlight machine.pipeline := by
  have hall := (h.conserved.balanced hsignal hrunning).out_append_inFlight
  have hpass := History.passes_of_harvests hmem
  rw [hfresh] at hpass
  rw [hall, machine.contents_origins]
  exact List.mem_flatMap.mpr ⟨_, hpass, hlog⟩

/-- No log falls between the earlier logs of a pass and the live ones: whatever was emitted at an
address of the pass, in a block of interest, before the subscription failed or was torn down,
is among them, and so it is taken or still in the stages until the shutdown signal is
raised or the control task breaks down.  Until then the relay listens to every subscription
that it has obtained and not given back, so that sending on it fails only for want of room
or because the client has given up.  And the control task breaks down only over a fault. -/
theorem Reachable.no_gap (h : Reachable feed) :
    (∀ harvest ∈ feed.relay.history.harvests,
      ∃ addresses, harvest.addresses? = some addresses ∧
        (addresses = [] ∧ harvest.fresh = none ∨
          ∃ number header, harvest.fresh = some number ∧ harvest.header? = some header ∧
            ∀ log, Owes feed number addresses header log →
              log ∈ harvest.logs ++ feed.relay.history.accepted number ∧
              (feed.relay.signalled = false → feed.relay.phase ≠ .crashed →
                log ∈ feed.relay.history.taken ++
                  feed.relay.channels.inFlight feed.relay.pipeline))) ∧
    (feed.relay.signalled = false → ∀ number ∈ feed.relay.history.leased,
      number ∉ feed.relay.history.tornDown → ∀ log, (feed.relay.push number log).1 ≠ .closed) ∧
    (feed.relay.phase = .crashed → feed.relay.HasFault) := by
  have hlinked := h.linked
  have hrelay := hlinked.reachable
  refine ⟨fun harvest hmem => ?_, fun hsignal number hleased hup log =>
    hrelay.push_ne_closed hsignal hleased hup log, hrelay.explained.fault⟩
  cases h.gapless.backed harvest hmem with
  | idle haddresses hfresh => exact ⟨[], haddresses, .inl ⟨rfl, hfresh⟩⟩
  | fetched haddresses hfresh hheader hearly hlease hlogs =>
      refine ⟨_, haddresses, .inr ⟨_, _, hfresh, hheader, fun log howes => ?_⟩⟩
      have hlog := h.gapless.gathers hlinked hearly hlease hlogs howes
      exact ⟨hlog, fun hsignal hrunning =>
        mem_taken_or_inFlight hrelay hsignal hrunning hmem hfresh hlog⟩

end Feed

/-! ## A log before the lease and one after it -/

namespace Sample

/-- A log that is emitted before the relay subscribes. -/
def earlier : RawLog := { address, blockNumber := 5 }

/-- A log that is emitted while the relay fetches. -/
def later : RawLog := { address, blockNumber := 6 }

/-- The first log is fetched, and the second one is sent on the subscription. -/
def movesToGather : List FeedMove :=
  .emit earlier :: movesToFetch.map .relay ++
    [.emit later, .relay (.reply 2 (.logs [earlier])), .relay (.step .control)]

/-- Then the relay is stopped, and with it all stages. -/
def movesToHalt : List FeedMove :=
  movesToGather ++ ([.call .stop, .step (.caller 1), .step .control, .step (.stage 0),
    .step (.stage 1), .step (.stage 2), .step (.stage 3), .step .control].map .relay)

/-- The relay and its chain before the runs. -/
def origin : Feed := Feed.initial parameters fun _ _ => false

/-- The relay and its chain when the pass is complete. -/
def gathered : Feed := (origin.run? movesToGather).getD default

/-- The relay and its chain after the end. -/
def halted : Feed := (origin.run? movesToHalt).getD default

/-- What the pass has gathered. -/
def harvest : Harvest := ⟨[earlier], some 0, some [address], some { number := 5 }⟩

end Sample

theorem Feed.sample_no_gap :
    Sample.gathered.Reachable ∧
      ∀ log ∈ [Sample.earlier, Sample.later],
        log ∈ Sample.gathered.relay.history.taken ++
          Sample.gathered.relay.channels.inFlight Sample.gathered.relay.pipeline := by
  have hreach : Sample.gathered.Reachable :=
    (Feed.Reachable.initial Sample.parameters fun _ _ => false).getD_run? (by decide)
  have hharvests : Sample.gathered.relay.history.harvests =
      [⟨[], none, some [], none⟩, Sample.harvest] := by rfl
  have hmem : Sample.harvest ∈ Sample.gathered.relay.history.harvests := by simp [hharvests]
  have hphase : Sample.gathered.relay.phase = .processing 100 false true := by rfl
  refine ⟨hreach, fun log hlog => ?_⟩
  obtain ⟨hgap, -⟩ := Feed.Reachable.no_gap hreach
  obtain ⟨addresses, haddresses, hidle | ⟨number, header, hfresh, hheader, howed⟩⟩ :=
    hgap Sample.harvest hmem
  · cases hidle.2
  · cases haddresses
    cases hfresh
    cases hheader
    have howes : Sample.gathered.Owes 0 [Sample.address] { number := 5 } log := by
      rcases List.mem_pair.mp hlog with rfl | rfl
      · exact ⟨⟨Sample.gathered.chronicle.take 16, [], rfl, by decide, by decide⟩, by decide,
          by decide⟩
      · exact ⟨⟨Sample.gathered.chronicle.take 4, Sample.gathered.chronicle.drop 5, rfl,
          by decide, by decide⟩, by decide, by decide⟩
    exact (howed log howes).2 (by decide) (by simp [hphase])

/-! ## A log that is dropped at the end -/

namespace Sample

/-- The pass owes the second log, which is accepted, but neither taken nor in the stages, although
the control task has ended as it should. -/
theorem halted_drops_log :
    halted.Reachable ∧ harvest ∈ halted.relay.history.harvests ∧
      halted.Owes 0 [address] { number := 5 } later ∧
      later ∈ harvest.logs ++ halted.relay.history.accepted 0 ∧
      halted.relay.phase = .ended ∧ ¬halted.relay.history.Repeated ∧
      later ∉ halted.relay.history.taken ++
        halted.relay.channels.inFlight halted.relay.pipeline := by
  have hreach : halted.Reachable :=
    (Feed.Reachable.initial parameters fun _ _ => false).getD_run? (by decide)
  have hharvests : halted.relay.history.harvests = [⟨[], none, some [], none⟩, harvest] := by rfl
  refine ⟨hreach, by simp [hharvests], ⟨⟨halted.chronicle.take 7, halted.chronicle.drop 8, rfl,
    by decide, by decide⟩, by decide, by decide⟩, by decide, rfl, by decide, by decide⟩

end Sample

end LogRelay
