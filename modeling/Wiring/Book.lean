/-
Recipe books: the recipes of a composition, looked up by type, together with the
types it has to produce.

* `Book.of`: the book of a component;
* `Book.recipe?`, `Book.recipes`: the recipe of a type, and all recipes in the order
  of registration;
* `Book.DependsOn`: the graph of declared dependencies between recipes;
* `Book.activated`: the recipes to use when a workshop opens.
-/
import Wiring.Component

namespace Wiring

variable {σ V : Type}

/-- The recipes of a composition and what it has to produce. -/
structure Book (σ V : Type) where
  /-- The recipes by type, in the order of registration. -/
  byType : Table TypeKey (Recipe σ V)
  /-- The types that have to be produced. -/
  requiredExports : List TypeRef

namespace Book

/-- The book of a component that has to produce `requiredExports`. -/
def of (c : Component σ V) (requiredExports : List TypeRef) : Book σ V where
  byType := c.recipes.foldl (fun t r => t.insert r.key r) .empty
  requiredExports := requiredExports

/-- The recipe of a type. -/
def recipe? (b : Book σ V) (key : TypeKey) : Option (Recipe σ V) := b.byType.get? key

/-- Whether a type has a recipe. -/
def produces (b : Book σ V) (key : TypeKey) : Bool := (b.recipe? key).isSome

/-- The recipes in the order of registration. -/
def recipes (b : Book σ V) : List (Recipe σ V) := b.byType.values

/-- The number of recipes. -/
def size (b : Book σ V) : Nat := b.byType.size

/-- The factories that are called when a workshop opens, for one of its two rounds. -/
def activated (b : Book σ V) (activation : Activation) : List (Recipe σ V) :=
  b.recipes.filter fun r => r.activation = activation && !r.isGiven

/-- The type `t` has a recipe that declares a dependency on `u`, which has one too. -/
def DependsOn (b : Book σ V) (t u : TypeKey) : Prop :=
  b.produces u ∧ ∃ r, b.recipe? t = some r ∧ ∃ d ∈ r.dependencies, d.type.key = u

/-- The recipes with their dependencies, as reported. -/
def dependencyNotices (b : Book σ V) : List Notice :=
  b.recipes.flatMap fun r =>
    .recipe r.type.name :: r.dependencies.map fun d => .dependency d.type.name d.optional

end Book

end Wiring
