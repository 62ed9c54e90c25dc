import LogRelay.Relay.Registry

/-!
# Requests on their way to the relay

Requests to register and to unregister listeners wait in a mailbox of limited room.
Who finds no room waits in a line; when a request is taken out, its room is granted to
the first in line, who then still has to put the request in.
-/

namespace LogRelay

/-- A request to change the registry. -/
inductive Command where
  | register (address : Address) (listener : ListenerId)
  | unregister (address : Address) (listener : ListenerId)
deriving DecidableEq, Inhabited

/-- What tells those who make requests apart. -/
abbrev CallerId := Nat

/-- A mailbox. -/
structure Mailbox where
  room : Nat
  /-- The requests, the oldest first, with who made them. -/
  requests : List (CallerId × Command) := []
  /-- Who waits for room, the first in line first. -/
  line : List CallerId := []
  /-- Who was granted room but has not used it yet. -/
  granted : List CallerId := []
  /-- Whether requests are still taken out. -/
  isOpen : Bool := true
deriving Inhabited

namespace Mailbox

/-- Whether there is room that nobody was granted. -/
def hasRoom (mailbox : Mailbox) : Bool :=
  mailbox.requests.length + mailbox.granted.length < mailbox.room

/-- Puts a request in. -/
def put (mailbox : Mailbox) (caller : CallerId) (command : Command) : Mailbox :=
  { mailbox with
    requests := mailbox.requests ++ [(caller, command)]
    granted := mailbox.granted.erase caller }

/-- Joins the line. -/
def enqueue (mailbox : Mailbox) (caller : CallerId) : Mailbox :=
  { mailbox with line := mailbox.line ++ [caller] }

/-- Leaves the line. -/
def leave (mailbox : Mailbox) (caller : CallerId) : Mailbox :=
  { mailbox with line := mailbox.line.erase caller, granted := mailbox.granted.erase caller }

/-- Takes the oldest request out and grants its room to the first in line. -/
def take? (mailbox : Mailbox) : Option ((CallerId × Command) × Mailbox) :=
  match mailbox.requests with
  | [] => none
  | request :: requests =>
      some (request,
        { mailbox with
          requests
          line := mailbox.line.tail
          granted := mailbox.granted ++ mailbox.line.take 1 })

/-- No more requests are taken out. -/
def close (mailbox : Mailbox) : Mailbox := { mailbox with requests := [], isOpen := false }

end Mailbox

/-! ## Callers -/

/-- What a caller wants. -/
inductive CallRequest where
  | command (command : Command)
  | stop
deriving DecidableEq, Inhabited

/-- Where a call stands. -/
inductive CallProgress (ρ : Type) where
  | fresh
  /-- It waits in line for room in the mailbox. -/
  | inLine
  /-- Its request is in the mailbox. -/
  | posted
  /-- Its request was handled, with this answer, or given up. -/
  | answered (connected : Option Bool)
  /-- It waits for the end of the relay. -/
  | joining
  | done (result : ρ)
deriving Inhabited

end LogRelay
