import LogRelay.Relay.Pipeline

/-!
# Nothing is lost in the log stream

A log stream has one origin for each of its stages, the newest first, and further ones
whose stages have been dropped: the batches of fetched logs and the live subscriptions.
What has come out of it is a beginning of what the origins contain, the oldest origin
first, and the rest is still in the stages (`Balanced`).

The order is kept for two reasons.  A stage takes nothing from its own source before all
stages before it are exhausted, so that what it has taken itself (`own`) is empty as long as
there are stages before it.  And a stage is only exhausted when its subscription can accept
no more logs, so that nothing is ever put in between later on.

When the stages are stopped from outside, the balance is lost with the logs in their
hands.  What remains true is that the logs that came out have reached a certain
origin, and that all origins before it are closed (`Reached`).
-/

namespace LogRelay

theorem Pipeline.eq_nil_of_receive_ended {pipeline after : Pipeline}
    (h : pipeline.receive = (.ended, after)) : after = [] := by
  unfold receive at h
  split at h
  next =>
    cases h
    rfl
  next =>
    split at h
    next => cases h
    next =>
      split at h
      next =>
        cases h
        rfl
      next => cases h

/-- What has happened to the logs of all subscriptions. -/
structure Channels where
  /-- The logs that were accepted on a subscription. -/
  accepted : Nat → List RawLog
  /-- The logs that are on their way. -/
  waiting : Nat → List RawLog
  /-- No more logs can be accepted. -/
  IsShut : Nat → Prop

namespace Channels

variable (channels : Channels)

/-- All logs of an origin, up to now. -/
def content : LogSource → List RawLog
  | .batch logs => logs
  | .live number => channels.accepted number

/-- The logs that can still be taken from a source. -/
def remaining : LogSource → List RawLog
  | .batch logs => logs
  | .live number => channels.waiting number

/-- The origin will not have more logs. -/
def Closed : LogSource → Prop
  | .batch _ => True
  | .live number => channels.IsShut number

/-- All logs of the origins, the newest origin being the first of the list. -/
def contents : List LogSource → List RawLog
  | [] => []
  | origin :: older => contents older ++ channels.content origin

/-- The logs that are still in the stages and in their sources, in the order in which they will come
out. -/
def inFlight : Pipeline → List RawLog
  | [] => []
  | stage :: before =>
      stage.outlet ++ stage.held.toList ++ inFlight before ++ channels.remaining stage.source

/-- The stage has taken the logs `own` from its origin, and the rest is still to come. -/
structure Carries (stage : Stage) (origin : LogSource) (own : List RawLog) : Prop where
  content : channels.content origin = own ++ channels.remaining stage.source
  origin_live : ∀ number, stage.source = .live number → origin = .live number
  source_live : stage.finished = false → ∀ number, origin = .live number →
    stage.source = .live number
  finished : stage.finished = true → channels.remaining stage.source = [] ∧ channels.Closed origin

/-- The logs `out` have come out of the stages, which have these origins. -/
inductive Balanced : List RawLog → Pipeline → List LogSource → Prop
  /-- Without stages all logs have come out. -/
  | exhausted {origins : List LogSource} (hclosed : ∀ origin ∈ origins, channels.Closed origin) :
      Balanced (channels.contents origins) [] origins
  /-- What the newest stage has put out or holds are the logs that came out of the stages before
  it, followed by its own. -/
  | staged {out inner own : List RawLog} {stage : Stage} {before : Pipeline}
      {origin : LogSource} {older : List LogSource}
      (hinner : Balanced inner before older) (hcarries : channels.Carries stage origin own)
      (hflow : out ++ stage.outlet ++ stage.held.toList = inner ++ own)
      (hown : before ≠ [] → own = [])
      (hfinished : stage.finished = true → before = [] ∧ stage.held = none) :
      Balanced out (stage :: before) (origin :: older)

/-- The logs `out` are a beginning of the logs of the origins, and all origins before the one that
it reaches are closed. -/
def Reached (out : List RawLog) : List LogSource → Prop
  | [] => out = []
  | origin :: older =>
      Reached out older ∨
        (∃ own, out = channels.contents older ++ own ∧ own <+: channels.content origin) ∧
          ∀ other ∈ older, channels.Closed other

variable {channels} {out inner : List RawLog} {stage : Stage} {pipeline before : Pipeline}
  {origin : LogSource} {origins older : List LogSource}

/-! ## What the balance says -/

theorem Balanced.out_append_inFlight (h : channels.Balanced out pipeline origins) :
    out ++ channels.inFlight pipeline = channels.contents origins := by
  induction h with
  | exhausted hclosed => exact List.append_nil _
  | @staged out inner own stage before origin older hinner hcarries hflow hown hfinished ih =>
      have hcontent := hcarries.content
      -- The stage has logs of its own only after those before it are exhausted.
      have hbefore : own ++ channels.inFlight before = channels.inFlight before ++ own := by
        cases before with
        | nil => exact List.append_nil own
        | cons first rest =>
            rw [hown (List.cons_ne_nil first rest), List.append_nil, List.nil_append]
      calc out ++ channels.inFlight (stage :: before)
          = (out ++ stage.outlet ++ stage.held.toList) ++ channels.inFlight before ++
              channels.remaining stage.source := by simp [inFlight, List.append_assoc]
        _ = inner ++ (own ++ channels.inFlight before) ++ channels.remaining stage.source := by
              rw [hflow, List.append_assoc inner]
        _ = (inner ++ channels.inFlight before) ++ (own ++ channels.remaining stage.source) := by
              rw [hbefore]
              simp only [List.append_assoc]
        _ = channels.contents (origin :: older) := by rw [ih, ← hcontent, contents]

/-- A stage that reads from a subscription reads from its origin. -/
theorem Balanced.origin_live {number : Nat}
    (h : channels.Balanced out (stage :: before) (origin :: older))
    (hsource : stage.source = .live number) : origin = .live number := by
  cases h with
  | staged hinner hcarries => exact hcarries.origin_live number hsource

theorem reached_contents (hclosed : ∀ origin ∈ origins, channels.Closed origin) :
    channels.Reached (channels.contents origins) origins := by
  cases origins with
  | nil => rfl
  | cons origin older =>
      refine .inr ⟨⟨channels.content origin, rfl, List.prefix_rfl⟩, fun other hother => ?_⟩
      exact hclosed other (List.mem_cons_of_mem _ hother)

theorem Reached.shorten {shorter : List RawLog} (h : channels.Reached out origins)
    (hshorter : shorter <+: out) : channels.Reached shorter origins := by
  induction origins generalizing shorter out with
  | nil =>
      obtain rfl : out = [] := h
      exact List.prefix_nil.mp hshorter
  | cons origin older ih =>
      rcases h with hold | ⟨⟨own, rfl, hown⟩, hclosed⟩
      · exact .inl (ih hold hshorter)
      · have holder := List.prefix_append (channels.contents older) own
        -- A shorter beginning ends before the newest origin or within it.
        rcases List.prefix_or_prefix_of_prefix hshorter holder with hshort | ⟨rest, rfl⟩
        · exact .inl (ih (reached_contents hclosed) hshort)
        · have hrest : rest <+: own := (List.prefix_append_right_inj _).mp hshorter
          exact .inr ⟨⟨rest, rfl, hrest.trans hown⟩, hclosed⟩

theorem Reached.isPrefix_contents (h : channels.Reached out origins) :
    out <+: channels.contents origins := by
  induction origins with
  | nil =>
      obtain rfl : out = [] := h
      exact List.prefix_rfl
  | cons origin older ih =>
      rcases h with hold | ⟨⟨own, rfl, hown⟩, -⟩
      · exact (ih hold).trans (List.prefix_append ..)
      · exact (List.prefix_append_right_inj _).mpr hown

theorem Balanced.reached (h : channels.Balanced out pipeline origins) :
    channels.Reached out origins := by
  induction h with
  | exhausted hclosed => exact reached_contents hclosed
  | @staged out inner own stage before origin older hinner hcarries hflow hown hfinished ih =>
      have hout : out <+: inner ++ own := by
        rw [← hflow, List.append_assoc]
        exact List.prefix_append ..
      cases hinner with
      | exhausted hclosed =>
          have hown : own <+: channels.content origin := ⟨_, hcarries.content.symm⟩
          exact Reached.shorten (.inr ⟨⟨own, rfl, hown⟩, hclosed⟩) hout
      | staged =>
          rw [hown (by simp), List.append_nil] at hout
          exact .inl (ih.shorten hout)

/-- A new stage begins with everything that is on its way to it. -/
theorem Balanced.addStage {id : Nat} {source : LogSource}
    (h : channels.Balanced out pipeline origins)
    (hunread : channels.content source = channels.remaining source) :
    channels.Balanced out ({ id, source } :: pipeline) (source :: origins) := by
  have hcarries : channels.Carries { id, source } source [] :=
    ⟨hunread, fun _ hsource => hsource, fun _ _ horigin => horigin, by simp⟩
  exact .staged h hcarries (List.append_nil _) (fun _ => rfl) (by simp)

/-! ## Reading -/

/-- A log that is taken out has come out. -/
theorem Balanced.receive_log {log : RawLog} {after : Pipeline}
    (h : channels.Balanced out pipeline origins) (hreceive : pipeline.receive = (.log log, after)) :
    channels.Balanced (out ++ [log]) after origins := by
  cases h with
  | exhausted => cases hreceive
  | @staged _ inner own stage before origin older hinner hcarries hflow hown hfinished =>
      cases houtlet : stage.outlet with
      | nil =>
          cases hfinish : stage.finished
          all_goals simp [Pipeline.receive, houtlet, hfinish] at hreceive
      | cons first rest =>
          simp only [Pipeline.receive, houtlet, Prod.mk.injEq,
            ClientSubscription.Arrival.log.injEq] at hreceive
          obtain ⟨rfl, rfl⟩ := hreceive
          refine .staged hinner ⟨hcarries.content, hcarries.origin_live,
            hcarries.source_live, hcarries.finished⟩ ?_ hown hfinished
          rw [← hflow, houtlet]
          simp

/-- A stream that has ended has put out everything. -/
theorem Balanced.receive_ended {after : Pipeline} (h : channels.Balanced out pipeline origins)
    (hreceive : pipeline.receive = (.ended, after)) : channels.Balanced out [] origins := by
  cases h with
  | exhausted hclosed => exact .exhausted hclosed
  | @staged _ inner own stage before origin older hinner hcarries hflow hown hfinished =>
      cases houtlet : stage.outlet with
      | cons first rest => simp [Pipeline.receive, houtlet] at hreceive
      | nil =>
          cases hfinish : stage.finished with
          | false => simp [Pipeline.receive, houtlet, hfinish] at hreceive
          | true =>
              -- A finished stage has nothing before it, in its hands or still to come.
              obtain ⟨rfl, hheld⟩ := hfinished hfinish
              obtain ⟨hremaining, hclosed⟩ := hcarries.finished hfinish
              have hcontent := hcarries.content
              rw [hremaining, List.append_nil] at hcontent
              cases hinner with
              | exhausted holder =>
                  have hout : out = channels.contents (origin :: older) := by
                    rw [contents, hcontent, ← hflow, houtlet, hheld]
                    simp
                  rw [hout]
                  exact .exhausted (List.forall_mem_cons.mpr ⟨hclosed, holder⟩)

/-! ## More logs on their way -/

variable (channels) in
/-- More logs may have been accepted on this subscription, but only if it was not shut; they are on
their way. -/
def GrowsAt (later : Channels) (number : Nat) : Prop :=
  ∃ more, later.accepted number = channels.accepted number ++ more ∧
    later.waiting number = channels.waiting number ++ more ∧
    (channels.IsShut number → later.IsShut number ∧ more = [])

variable {later : Channels} {own : List RawLog}

theorem Closed.grow (h : channels.Closed origin)
    (hgrows : ∀ number, origin = .live number → channels.GrowsAt later number) :
    later.Closed origin ∧ later.content origin = channels.content origin := by
  cases origin with
  | batch logs => exact ⟨trivial, rfl⟩
  | live number =>
      obtain ⟨more, haccepted, -, hshut⟩ := hgrows number rfl
      obtain ⟨hlater, rfl⟩ := hshut h
      exact ⟨hlater, haccepted.trans (List.append_nil _)⟩

theorem content_grow (hgrows : ∀ number, origin = .live number → channels.GrowsAt later number) :
    channels.content origin <+: later.content origin := by
  cases origin with
  | batch logs => exact List.prefix_rfl
  | live number =>
      obtain ⟨more, haccepted, -, -⟩ := hgrows number rfl
      exact ⟨more, haccepted.symm⟩

theorem contents_grow (hclosed : ∀ origin ∈ origins, channels.Closed origin)
    (hgrows : ∀ number, .live number ∈ origins → channels.GrowsAt later number) :
    (∀ origin ∈ origins, later.Closed origin) ∧
      later.contents origins = channels.contents origins := by
  induction origins with
  | nil => exact ⟨fun _ h => absurd h List.not_mem_nil, rfl⟩
  | cons origin older ih =>
      obtain ⟨horigin, holder⟩ := List.forall_mem_cons.mp hclosed
      obtain ⟨hlater, hcontents⟩ := ih holder fun number hnumber =>
        hgrows number (List.mem_cons_of_mem _ hnumber)
      obtain ⟨hclosed', hcontent⟩ := horigin.grow fun number heq =>
        hgrows number (heq ▸ List.mem_cons_self ..)
      refine ⟨List.forall_mem_cons.mpr ⟨hclosed', hlater⟩, ?_⟩
      rw [contents, contents, hcontents, hcontent]

theorem Carries.grow (h : channels.Carries stage origin own)
    (hgrows : ∀ number, origin = .live number → channels.GrowsAt later number) :
    later.Carries stage origin own := by
  cases hsource : stage.source with
  | batch logs =>
      cases horigin : origin with
      | batch all =>
          subst horigin
          refine ⟨?_, h.origin_live, h.source_live, fun hfinished => ?_⟩
          · have hcontent := h.content
            rw [hsource] at hcontent ⊢
            exact hcontent
          · obtain ⟨hremaining, -⟩ := h.finished hfinished
            rw [hsource] at hremaining ⊢
            exact ⟨hremaining, trivial⟩
      | live number =>
          -- The stage is no longer connected to its subscription, which was shut before.
          subst horigin
          have hfinished : stage.finished = true := by
            cases hfinished : stage.finished with
            | true => rfl
            | false => cases hsource ▸ h.source_live hfinished number rfl
          obtain ⟨hremaining, hclosed⟩ := h.finished hfinished
          obtain ⟨hlater, hcontent⟩ := hclosed.grow hgrows
          have hsame := h.content
          rw [hsource] at hsame hremaining
          refine ⟨?_, h.origin_live, h.source_live, fun _ => ?_⟩
          · rw [hcontent, hsource]
            exact hsame
          · rw [hsource]
            exact ⟨hremaining, hlater⟩
  | live number =>
      obtain rfl := h.origin_live number hsource
      obtain ⟨more, haccepted, hwaiting, hshut⟩ := hgrows number rfl
      have hcontent := h.content
      rw [hsource] at hcontent
      refine ⟨?_, h.origin_live, h.source_live, fun hfinished => ?_⟩
      · rw [hsource, Channels.content, remaining, haccepted, hwaiting, ← List.append_assoc]
        exact congrArg (· ++ more) hcontent
      · obtain ⟨hremaining, hclosed⟩ := h.finished hfinished
        obtain ⟨hlater, rfl⟩ := hshut hclosed
        rw [hsource] at hremaining ⊢
        rw [remaining, hwaiting, List.append_nil]
        exact ⟨hremaining, hlater⟩

theorem Balanced.grow (h : channels.Balanced out pipeline origins)
    (hgrows : ∀ number, .live number ∈ origins → channels.GrowsAt later number) :
    later.Balanced out pipeline origins := by
  induction h with
  | exhausted hclosed =>
      obtain ⟨hlater, hcontents⟩ := contents_grow hclosed hgrows
      rw [← hcontents]
      exact .exhausted hlater
  | staged hinner hcarries hflow hown hfinished ih =>
      refine .staged (ih fun number hnumber => ?_) (hcarries.grow fun number heq => ?_) hflow hown
        hfinished
      · exact hgrows number (List.mem_cons_of_mem _ hnumber)
      · exact hgrows number (heq ▸ List.mem_cons_self ..)

theorem Reached.grow (h : channels.Reached out origins)
    (hgrows : ∀ number, .live number ∈ origins → channels.GrowsAt later number) :
    later.Reached out origins := by
  induction origins with
  | nil => exact h
  | cons origin older ih =>
      have holder : ∀ number, .live number ∈ older → channels.GrowsAt later number :=
        fun number hnumber => hgrows number (List.mem_cons_of_mem _ hnumber)
      rcases h with hold | ⟨⟨own, hout, hown⟩, hclosed⟩
      · exact .inl (ih hold holder)
      · obtain ⟨hlater, hcontents⟩ := contents_grow hclosed holder
        have hgrown := content_grow fun number heq =>
          hgrows number (heq ▸ List.mem_cons_self ..)
        exact .inr ⟨⟨own, hcontents ▸ hout, hown.trans hgrown⟩, hlater⟩

end Channels

end LogRelay
