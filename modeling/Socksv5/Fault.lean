import Mathlib.Tactic.Common

/-!
# How a call can end the process

A function of the server either returns or ends the process.  The second is a
`Fault`; a store or load outside its allocation counts as one, as does an
access through a null pointer (the Makefile builds with the address sanitizer).
-/

namespace Socksv5

/-- The ways in which a call does not return. -/
inductive Fault
  /-- `abort()` -/
  | abort
  /-- a failed `assert` -/
  | assertion
  /-- `exit(EXIT_FAILURE)` -/
  | exit
  /-- an access through a null pointer -/
  | nullDereference
  /-- an access outside an allocation -/
  | outOfBounds
  /-- a recursion that does not end -/
  | diverges
deriving DecidableEq, Repr

end Socksv5
