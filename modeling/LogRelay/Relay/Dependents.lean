import LogRelay.Decimal.Digits

/-!
# Services to wait for

The relay does not act before the services it depends on are ready.  Each of them is
declared once and reports once; what is counted is how many reports are missing.
Reports beyond the declared ones are ignored, and the count never exceeds the
greatest number of 64 bits.
-/

namespace LogRelay

/-- How many declared services have not reported yet. -/
structure Dependents where
  /-- The number of missing reports. -/
  pending : Nat := 0
  /-- The number fits in 64 bits. -/
  pending_le : pending ≤ Decimal.greatestUInt64 := by decide
deriving DecidableEq

namespace Dependents

/-- No report is missing. -/
def empty : Dependents := {}

instance : Inhabited Dependents := ⟨empty⟩

/-- Declares `count` more services; `none` if they are too many to be counted. -/
def add? (dependents : Dependents) (count : Nat) : Option Dependents :=
  if h : dependents.pending + count ≤ Decimal.greatestUInt64 then
    some ⟨dependents.pending + count, h⟩
  else none

/-- One service reports. -/
def ready (dependents : Dependents) : Dependents :=
  ⟨dependents.pending - 1, Nat.le_trans (Nat.sub_le ..) dependents.pending_le⟩

/-- Whether no report is missing. -/
def areReady (dependents : Dependents) : Bool := dependents.pending == 0

end Dependents

/-- A party that waits until no report is missing.  It looks at the count only when it is
polled, and it stays done. -/
structure Wait where
  done : Bool := false
deriving DecidableEq, Inhabited

/-- One look at the count. -/
def Wait.poll (wait : Wait) (dependents : Dependents) : Wait :=
  ⟨wait.done || dependents.areReady⟩

end LogRelay
