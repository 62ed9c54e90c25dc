/-!
# Fields of records

A field of a record that is being read has a value or not.  It is either required or
has a default for the case that there is no value.
-/

namespace LogRelay.Field

variable {ν α : Type}

/-- A field that has to be there. -/
def required (read? : ν → Option α) (field : Option ν) : Option α := field.bind read?

/-- A field with a default. -/
def withDefault (default : α) (read? : ν → Option α) (field : Option ν) : Option α :=
  match field with
  | none => some default
  | some value => read? value

end LogRelay.Field
