/-
The parameters of factories:

* `Need`: what a parameter asks for, a shared product or a configuration value,
  each under any number of optional layers;
* `Parameter.dependency`: what a parameter declares, namely the type whose recipe
  it uses and whether the recipe may be absent;
* `Need.nested`: a need under a given number of optional layers, and
  `Need.key_nested`, `Need.isOptional_nested`: what it declares.
-/
import Wiring.TypeRef

namespace Wiring

/-- What a factory parameter asks for. -/
inductive Need where
  /-- The shared product of a type. -/
  | shared (key : TypeKey)
  /-- The configuration value of the product type with this number. -/
  | setting (index : Nat)
  /-- The inner need, or nothing if no recipe produces what it depends on. -/
  | optional (inner : Need)
  deriving DecidableEq, Repr

namespace Need

/-- The type whose recipe a need uses. A configuration value is taken from the
holder of configuration values. -/
def key : Need → TypeKey
  | .shared key => key
  | .setting _ => .settings
  | .optional inner => inner.key

/-- Whether the recipe may be absent. -/
def isOptional : Need → Bool
  | .optional _ => true
  | _ => false

/-- The need under `layers` optional layers. -/
def nested (need : Need) : (layers : Nat) → Need
  | 0 => need
  | layers + 1 => .optional (need.nested layers)

/-- Optional layers do not change the type that is used. -/
@[simp] theorem key_nested (need : Need) (layers : Nat) :
    (need.nested layers).key = need.key := by
  induction layers with
  | zero => rfl
  | succ layers ih => simpa [nested, key] using ih

/-- A need under at least one optional layer is optional. -/
@[simp] theorem isOptional_nested_succ (need : Need) (layers : Nat) :
    (need.nested (layers + 1)).isOptional = true := rfl

end Need

/-- A declared use of a type: which one, and whether it may be absent. -/
structure Dependency where
  /-- The type, under the name it is declared with. -/
  type : TypeRef
  /-- Whether a recipe for it may be absent. -/
  optional : Bool
  deriving DecidableEq, Repr

/-- A parameter of a factory: what it asks for, and the name its dependency is
declared under if that is not the name of the type. -/
structure Parameter where
  /-- What is asked for. -/
  need : Need
  /-- The declared name, if it differs. -/
  shownAs : Option String
  deriving DecidableEq, Repr

/-- The dependency a parameter declares. The declared name serves messages only;
identity and optionality come from the need. -/
def Parameter.dependency (p : Parameter) : Dependency where
  type := ⟨p.shownAs.getD p.need.key.name, p.need.key⟩
  optional := p.need.isOptional

end Wiring
