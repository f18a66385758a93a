/-
What a request for a product can fail with, and the texts of the failures.
-/

namespace Wiring

/-- Why a requested product could not be had. -/
inductive Failure where
  /-- No recipe produces the type of this name. -/
  | missing (type : String)
  /-- The product found is of another type than the required one. -/
  | wrongType (required actual : String)
  /-- The factory of `product` gave up with the error text `cause`. -/
  | factoryFailed (product cause : String)
  deriving DecidableEq, Repr

/-- The text of a failure. -/
def Failure.message : Failure → String
  | .missing type => "No recipe produces '" ++ type ++ "'"
  | .wrongType required actual =>
    "Failed to downcast, required: '" ++ required ++ "' actual: '" ++ actual ++ "'"
  | .factoryFailed product cause =>
    "Factory for '" ++ product ++ "' failed - error: " ++ cause

end Wiring
