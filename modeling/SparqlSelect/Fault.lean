/-!
# Faults

A computation that no check guards ends in a fault: it meets a value of a shape that it cannot use,
or it runs out of room. A fault has no message.
-/

namespace SparqlSelect

/-- Why a computation cannot go on. -/
inductive Fault where
  /-- The operation does not apply to values of this type. -/
  | wrongType
  /-- A member or a text operation is asked of a value that has none. -/
  | noMembers
  /-- An object lacks a member that is needed. -/
  | absentMember
  /-- A list or a text is too short. -/
  | tooShort
  /-- A number is too large for a double or too large to be cut to an integer. -/
  | tooLarge
  /-- A text or a list does not have the form of the value it should give. -/
  | badForm
  /-- A bracket of a condition stands inside too many others. -/
  | tooDeep
deriving DecidableEq, Repr

end SparqlSelect
