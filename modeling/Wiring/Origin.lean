/-
Where a shared value comes from. Two handles are handles of one value exactly if
their origins are equal, so origins serve as identities.
-/

namespace Wiring

/-- The identity of a shared value. -/
inductive Origin where
  /-- A value made outside all workshops, numbered in the order of making. -/
  | given (serial : Nat)
  /-- The product of the factory call with the number `call`, of those that the
  workshop with the number `workshop` made. -/
  | built (workshop call : Nat)
  deriving DecidableEq, Repr, Inhabited

end Wiring
