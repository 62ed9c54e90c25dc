import LogRelay.Chain.Log

/-!
# Who listens to what

The registry is a finite set of pairs of an address and a listener.  It is kept by
address in ascending order, each address with at least one listener.  What matters to
the relay is whether a change makes the set of addresses differ, because then the
subscription has to be made anew.
-/

namespace LogRelay

/-- What tells listeners apart. -/
abbrev ListenerId := Nat

/-- A set of pairs of an address and a listener. -/
structure Registry where
  /-- The addresses in ascending order, with their listeners. -/
  entries : List (Address × List ListenerId) := []
deriving DecidableEq, Inhabited

namespace Registry

/-- The addresses in ascending order. -/
def addresses (registry : Registry) : List Address := registry.entries.map (·.1)

/-- The listeners of an address. -/
def listenersAt (registry : Registry) (address : Address) : List ListenerId :=
  (registry.entries.lookup address).getD []

/-- The pairs, by address. -/
def pairs (registry : Registry) : List (Address × ListenerId) :=
  registry.entries.flatMap fun entry => entry.2.map fun listener => (entry.1, listener)

/-- Puts a pair into the entries. -/
def insertInto (address : Address) (listener : ListenerId) :
    List (Address × List ListenerId) → List (Address × List ListenerId)
  | [] => [(address, [listener])]
  | entry :: rest =>
      if address < entry.1 then (address, [listener]) :: entry :: rest
      else if address = entry.1 then (address, entry.2 ++ [listener]) :: rest
      else entry :: insertInto address listener rest

/-- Takes a pair out of the entries, and its address if no listener is left. -/
def eraseFrom (address : Address) (listener : ListenerId) :
    List (Address × List ListenerId) → List (Address × List ListenerId)
  | [] => []
  | entry :: rest =>
      if address = entry.1 then
        let listeners := entry.2.erase listener
        if listeners.isEmpty then rest else (address, listeners) :: rest
      else entry :: eraseFrom address listener rest

/-- Adds a pair and tells whether its address is new; `none` if the pair is there already. -/
def add? (registry : Registry) (address : Address) (listener : ListenerId) :
    Option (Bool × Registry) :=
  let after : Registry := ⟨insertInto address listener registry.entries⟩
  match registry.entries.lookup address with
  | none => some (true, after)
  | some listeners => if listeners.contains listener then none else some (false, after)

/-- Removes a pair and tells whether its address is gone with it. -/
def remove (registry : Registry) (address : Address) (listener : ListenerId) :
    Bool × Registry :=
  match registry.entries.lookup address with
  | none => (false, registry)
  | some listeners =>
      ((listeners.erase listener).isEmpty, ⟨eraseFrom address listener registry.entries⟩)

end Registry

end LogRelay
