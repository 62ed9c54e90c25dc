import LogRelay.Proofs.RegistryPairs
import Mathlib.Data.List.Induction

/-!
# What listeners are told, and when

A round tells every listener of the registry whether it is connected.  This file computes
what the last notice of a listener is after a round, and states in which order things
have to happen: a lost subscription is followed by a round at once (`Followed`), and so are
the logs that a pass has fetched (`Announced`); a log is only taken and delivered while
the relay is connected, and after the pass that offers it was announced (`InTime`).
-/

namespace LogRelay

/-- Whether the effect is neither that a log is taken or delivered, nor that a pass has fetched its
logs, nor that the subscription is lost. -/
def Effect.IsOrdinary : Effect → Prop
  | .took _ | .delivered .. | .gathered .. | .lost _ => False
  | _ => True

theorem Effect.IsWithClient.isOrdinary {effect : Effect} (h : effect.IsWithClient) :
    effect.IsOrdinary := by
  cases effect
  case took log => exact h.elim
  case delivered listener log => exact h.elim
  case gathered logs fresh => exact h.elim
  case lost error => exact h.elim
  all_goals exact trivial

namespace History

/-! ## Rounds -/

theorem round_eq (connected : Bool) (registry : Registry) (older : History) :
    round connected registry ++ older =
      (registry.pairs.map fun (address, listener) =>
        if connected then Effect.connected address listener
        else Effect.disconnected address listener).reverse ++ .switched connected :: older :=
  List.append_assoc ..

theorem isConnected_round (connected : Bool) (registry : Registry) (older : History) :
    (round connected registry ++ older).isConnected = connected := by
  rw [round_eq]
  refine append_eq_of_neutral (.switched connected :: older) fun effect hmem history => ?_
  obtain ⟨pair, -, rfl⟩ := List.mem_map.mp (List.mem_reverse.mp hmem)
  cases connected
  all_goals rfl

theorem lastNotice?_round (connected : Bool) (registry : Registry) (listener : ListenerId)
    (older : History) :
    (round connected registry ++ older).lastNotice? listener =
      if listener ∈ registry.pairs.map (·.2) then some connected
      else older.lastNotice? listener := by
  rw [round_eq]
  induction registry.pairs using List.reverseRecOn with
  | nil => rfl
  | append_singleton pairs pair ih =>
      obtain ⟨address, told⟩ := pair
      rw [List.map_append, List.reverse_append, List.append_assoc, List.map_append]
      by_cases htold : told = listener
      · cases connected
        all_goals simp [htold]
      · have hother : listener ≠ told := fun heq => htold heq.symm
        cases connected
        all_goals simp only [List.mem_append, List.map_singleton, List.mem_singleton, hother,
          or_false, ← ih]
        all_goals simp [htold]

theorem mem_pairs_listener {registry : Registry} (h : registry.WellFormed)
    {listener : ListenerId} :
    listener ∈ registry.pairs.map (·.2) ↔ ∃ address, listener ∈ registry.listenersAt address := by
  rw [List.mem_map]
  constructor
  · rintro ⟨⟨address, told⟩, hmem, rfl⟩
    exact ⟨address, h.mem_pairs.mp hmem⟩
  · rintro ⟨address, hmem⟩
    exact ⟨(address, listener), h.mem_pairs.mpr hmem, rfl⟩

/-! ## The order of things -/

/-- All listeners of the registry were told at once, or after subscriptions were torn down. -/
def Told (connected : Bool) (registry : Registry) (newer : History) : Prop :=
  ∃ rest quiet, quiet.IsQuiet ∧ newer = rest ++ round connected registry ++ quiet

/-- After a subscription is lost, all listeners are told at once. -/
def Followed (newer : History) : Effect → History → Prop
  | .lost _, older => Told false older.registry newer
  | _, _ => True

/-- After a pass has fetched its logs, all listeners are told at once. -/
def Announces (newer : History) : Effect → History → Prop
  | .gathered .., older => Told true older.registry newer
  | _, _ => True

/-- In all passes that have fetched their logs, all listeners were told that they are connected. -/
def Announced (history : History) : Prop := history.Keeps Announces

/-- Logs are only taken and delivered while the relay is connected, and only logs that are offered
by passes in which all listeners were told so. -/
def InTime : Effect → History → Prop
  | .took log, older =>
      older.isConnected = true ∧ older.Announced ∧ older.taken ++ [log] <+: older.offered
  | .delivered .., older => older.isConnected = true
  | _, _ => True

/-- Everything that has happened was in order. -/
structure Orderly (history : History) : Prop where
  inTime : history.Keeps fun _ => InTime
  followed : history.Keeps Followed

theorem Told.append {connected : Bool} {registry : Registry} {newer : History}
    (h : Told connected registry newer) (more : History) :
    Told connected registry (more ++ newer) := by
  obtain ⟨rest, quiet, hquiet, rfl⟩ := h
  exact ⟨more ++ rest, quiet, hquiet, by simp only [List.append_assoc]⟩

theorem Followed.append (more newer : History) (effect : Effect) (before : History)
    (h : Followed newer effect before) : Followed (more ++ newer) effect before := by
  cases effect
  case lost error => exact Told.append h more
  all_goals exact trivial

theorem Announces.append (more newer : History) (effect : Effect) (before : History)
    (h : Announces newer effect before) : Announces (more ++ newer) effect before := by
  cases effect
  case gathered logs fresh => exact Told.append h more
  all_goals exact trivial

/-! ## Ordinary effects -/

/-- A history of ordinary effects. -/
def IsOrdinary (history : History) : Prop := ∀ effect ∈ history, effect.IsOrdinary

theorem IsWithClient.isOrdinary {history : History} (h : history.IsWithClient) :
    history.IsOrdinary :=
  fun effect hmem => (h effect hmem).isOrdinary

theorem IsOrdinary.append {first second : History} (hfirst : first.IsOrdinary)
    (hsecond : second.IsOrdinary) : (first ++ second).IsOrdinary :=
  List.forall_mem_append.mpr ⟨hfirst, hsecond⟩

theorem isOrdinary_round (connected : Bool) (registry : Registry) :
    (round connected registry).IsOrdinary := by
  refine IsOrdinary.append (fun effect hmem => ?_) (List.forall_mem_singleton.mpr trivial)
  obtain ⟨pair, -, rfl⟩ := List.mem_map.mp (List.mem_reverse.mp hmem)
  cases connected
  all_goals exact trivial

theorem isOrdinary_handling (caller : CallerId) (command : Command) :
    (handling caller command).IsOrdinary := by
  cases command with
  | register address listener => exact List.forall_mem_singleton.mpr trivial
  | unregister address listener =>
      exact List.forall_mem_cons.mpr ⟨trivial, List.forall_mem_singleton.mpr trivial⟩

theorem IsOrdinary.announces {history : History} (h : history.IsOrdinary) :
    ∀ effect ∈ history, ∀ newer before, Announces newer effect before := by
  intro effect hmem newer before
  have hordinary := h effect hmem
  cases effect
  case gathered logs fresh => exact hordinary.elim
  all_goals exact trivial

theorem IsOrdinary.followed {history : History} (h : history.IsOrdinary) :
    ∀ effect ∈ history, ∀ newer before, Followed newer effect before := by
  intro effect hmem newer before
  have hordinary := h effect hmem
  cases effect
  case lost error => exact hordinary.elim
  all_goals exact trivial

theorem IsOrdinary.inTime {history : History} (h : history.IsOrdinary) :
    ∀ effect ∈ history, ∀ before, InTime effect before := by
  intro effect hmem before
  have hordinary := h effect hmem
  cases effect
  case took log => exact hordinary.elim
  case delivered listener log => exact hordinary.elim
  all_goals exact trivial

theorem Orderly.append {burst older : History} (h : older.Orderly) (hburst : burst.IsOrdinary) :
    (burst ++ older).Orderly :=
  ⟨h.inTime.append_free hburst.inTime, h.followed.append_of_free Followed.append hburst.followed⟩

theorem Announced.append {burst older : History} (h : older.Announced)
    (hburst : burst.IsOrdinary) : (burst ++ older).Announced :=
  h.append_of_free Announces.append hburst.announces

/-! ## The other effects -/

theorem Orderly.gathered {older : History} (h : older.Orderly) (logs : List RawLog)
    (fresh : Option Nat) : Orderly (.gathered logs fresh :: older) := by
  refine ⟨keeps_cons.mpr ⟨trivial, h.inTime⟩, ?_⟩
  exact h.followed.append_cons Followed.append (fun _ hmem => absurd hmem List.not_mem_nil) trivial

theorem Announced.gathered {quiet older : History} (h : older.Announced) (hquiet : quiet.IsQuiet)
    (logs : List RawLog) (fresh : Option Nat) :
    (round true older.registry ++ quiet ++ .gathered logs fresh :: older).Announced := by
  have hordinary := (isOrdinary_round true older.registry).append hquiet.isWithClient.isOrdinary
  exact h.append_cons Announces.append hordinary.announces ⟨[], quiet, hquiet, rfl⟩

theorem Orderly.lost {older : History} (h : older.Orderly) (error : ClientError) :
    (round false older.registry ++ .lost error :: older).Orderly := by
  have hordinary := isOrdinary_round false older.registry
  have htold : Told false older.registry (round false older.registry) :=
    ⟨[], [], isQuiet_nil, (List.append_nil _).symm⟩
  refine ⟨Keeps.append_free (keeps_cons.mpr ⟨trivial, h.inTime⟩) hordinary.inTime, ?_⟩
  exact h.followed.append_cons Followed.append hordinary.followed htold

theorem Announced.lost {older : History} (h : older.Announced) (error : ClientError) :
    (round false older.registry ++ .lost error :: older).Announced :=
  h.append_cons Announces.append (isOrdinary_round false older.registry).announces trivial

theorem Announced.handOut {older : History} (h : older.Announced) (log : RawLog)
    (listeners : List ListenerId) : (handOut log listeners ++ .took log :: older).Announced := by
  refine h.append_cons Announces.append (fun effect hmem newer before => ?_) trivial
  obtain ⟨listener, -, rfl⟩ := List.mem_map.mp (List.mem_reverse.mp hmem)
  exact trivial

theorem isConnected_handOut {burst : History} {log : RawLog} {listeners : List ListenerId}
    (hburst : ∀ effect ∈ burst, effect ∈ History.handOut log listeners) (older : History) :
    (burst ++ older).isConnected = older.isConnected := by
  refine append_eq_of_neutral older fun effect hmem history => ?_
  obtain ⟨listener, -, rfl⟩ := List.mem_map.mp (List.mem_reverse.mp (hburst effect hmem))
  rfl

theorem Orderly.handOut {older : History} (h : older.Orderly) {log : RawLog}
    (htook : InTime (.took log) older) (listeners : List ListenerId) :
    (handOut log listeners ++ .took log :: older).Orderly := by
  refine ⟨?_, ?_⟩
  · refine Keeps.append (fun _ _ _ _ hdemand => hdemand) (keeps_cons.mpr ⟨htook, h.inTime⟩)
      fun newer effect before heq => ?_
    have hmem : effect ∈ History.handOut log listeners := by simp [heq]
    obtain ⟨listener, -, rfl⟩ := List.mem_map.mp (List.mem_reverse.mp hmem)
    have hbefore : ∀ other ∈ before, other ∈ History.handOut log listeners := by
      intro other hother
      rw [heq]
      exact List.mem_append_right newer (List.mem_cons_of_mem _ hother)
    -- Since the log was taken nothing has happened but other calls.
    exact (isConnected_handOut hbefore (.took log :: older)).trans htook.1
  · refine h.followed.append_cons Followed.append (fun effect hmem newer before => ?_) trivial
    obtain ⟨listener, -, rfl⟩ := List.mem_map.mp (List.mem_reverse.mp hmem)
    exact trivial

end History

end LogRelay
