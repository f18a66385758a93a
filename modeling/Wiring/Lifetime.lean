/-
When products are made and how long they are kept.
-/

namespace Wiring

/-- How long a product is kept once it is made. -/
inductive Lifetime where
  /-- Made once, then kept and shared. -/
  | singleton
  /-- Made anew for every request, never kept. -/
  | transient
  deriving DecidableEq, Repr

/-- The name of a lifetime. -/
def Lifetime.name : Lifetime → String
  | .singleton => "Singleton"
  | .transient => "Transient"

/-- When a product is made for the first time. -/
inductive Activation where
  /-- When the workshop opens, before all other types. -/
  | primary
  /-- When the workshop opens, after the primary types. -/
  | required
  /-- When it is first requested. -/
  | onDemand
  deriving DecidableEq, Repr

/-- The name of an activation. -/
def Activation.name : Activation → String
  | .primary => "Primary"
  | .required => "Required"
  | .onDemand => "OnDemand"

/-- The ways in which a factory can be registered. -/
inductive Role where
  /-- A singleton that is made first when the workshop opens. -/
  | primary
  /-- A singleton that is made when the workshop opens. -/
  | required
  /-- A singleton that is made on its first request. -/
  | retained
  /-- A product of its own for every request. -/
  | transient
  deriving DecidableEq, Repr

/-- How long the products of a factory are kept. -/
def Role.lifetime : Role → Lifetime
  | .transient => .transient
  | _ => .singleton

/-- When a factory is first called. -/
def Role.activation : Role → Activation
  | .primary => .primary
  | .required => .required
  | _ => .onDemand

end Wiring
