/-
The outlines of recipes, components, books, workshops, facades and holders of
configuration values, for inspection.
-/
import Wiring.Text.Outline
import Wiring.Text.Quoted
import Wiring.Facade

namespace Wiring

open Text

variable {σ V : Type}

/-- The outline of a truth value. -/
def outlineBool (b : Bool) : Outline := .atom (if b then "true" else "false")

/-- The outline of a type reference. Identities have no text of their own. -/
def TypeRef.outline (t : TypeRef) : Outline :=
  .record "TypeInfo"
    [.field "type_name" (.atom (quoted t.name)), .field "type_id" (.atom "TypeId(_)")]

/-- The outline of a recipe. -/
def Recipe.outline (r : Recipe σ V) : Outline :=
  .record "Recipe"
    [ .field "exports" (.atom (quoted r.type.name)),
      .field "dependencies"
        (.list (r.dependencies.map fun d => .atom (quoted d.type.name))),
      .field "lifetime" (.atom r.lifetime.name),
      .field "activation" (.atom r.activation.name),
      .field "instance" (outlineBool r.isGiven) ]

/-- The outline of a component. -/
def Component.outline (c : Component σ V) : Outline :=
  .record "Component"
    [ .field "name" (.atom (quoted c.name)),
      .field "recipes" (.list (c.recipes.map Recipe.outline)) ]

/-- The outline of a recipe book. -/
def Book.outline (b : Book σ V) : Outline :=
  .record "CookBook"
    [ .field "recipes" (.list (b.recipes.map Recipe.outline)),
      .field "required_exports" (.list (b.requiredExports.map TypeRef.outline)) ]

/-- What can be said of the product of a recipe. -/
def Workshop.state (w : Workshop σ V) (s : Shelf V) (r : Recipe σ V) : String :=
  if r.isGiven then "instance"
  else if r.lifetime = .transient then "transient"
  else if w.isConstructed s r.key then "constructed"
  else "pending"

/-- The outline of a workshop: the state of the product of every recipe. -/
def Workshop.outline (w : Workshop σ V) (s : Shelf V) : Outline :=
  .record "RuntimeManufactory"
    (w.book.recipes.map fun r => .field r.type.name (.atom (quoted (w.state s r))))

/-- The outline of a facade and the workshop behind it. -/
def Facade.outline (f : Facade σ V) (s : Shelf V) : Outline :=
  .record "Manufactory"
    [ .field "exports" (.list (f.exports.map fun key => .atom (quoted key.name))),
      .field "runtime" (f.workshop.outline s) ]

/-- The names of the types that have a configuration value, quoted and then sorted as
texts. -/
def Settings.inspect (s : Settings V) : String :=
  let names := (s.names.map quoted).mergeSort (fun a b => a ≤ b)
  "\x7b" ++ ", ".intercalate names ++ "\x7d"

end Wiring
