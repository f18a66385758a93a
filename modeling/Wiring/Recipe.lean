/-
Recipes: how to come by a product of one type.

* `Factory`: what a factory is to the rest of the library, a function of its
  arguments and of the state of the world around it, which it may change;
* `Recipe.ofFactory`, `Recipe.ofValue`: the two ways to make a recipe, by a factory
  of one type or by a value of one type; `Recipe.ofShared`: by a value that is shared;
* `Recipe.dependencies`: what a recipe declares;
* `Recipe.WellTyped`: whatever a recipe comes up with is of the type it declares;
* `Recipe.wellTyped_ofFactory`, `Recipe.wellTyped_ofValue`: every recipe made in one
  of the two ways is.
-/
import Wiring.Parameter
import Wiring.Instance
import Wiring.Notice

namespace Wiring

/-- How a call of a factory ends. -/
inductive Outcome (α : Type) where
  /-- It answers a product. -/
  | made (product : α)
  /-- It gives up with an error of this text. -/
  | failed (cause : String)
  /-- It breaks off everything that is under way. -/
  | panicked (text : String)
  deriving DecidableEq, Repr

/-- Applies a function to the product. -/
def Outcome.map {α β : Type} (f : α → β) : Outcome α → Outcome β
  | .made product => .made (f product)
  | .failed cause => .failed cause
  | .panicked text => .panicked text

/-- A finished call of a factory: how it ended and what it reported on the way. -/
structure Call (α : Type) where
  /-- How the call ended. -/
  outcome : Outcome α
  /-- What was reported during the call. -/
  notices : List Notice
  deriving DecidableEq, Repr

/-- A factory. It gets its resolved parameters and the world outside the workshop
that calls it, of which it may observe and change anything. So one factory can do
something else at each call, but it reaches the workshop only by its parameters. -/
abbrev Factory (σ V α : Type) := List (Argument V) → σ → Call α × σ

/-- The source of the products of a recipe. -/
inductive Source (σ V : Type) where
  /-- A value that exists already. -/
  | given (product : Instance V)
  /-- A factory, its type erased. -/
  | factory (make : Factory σ V (Value V))

/-- A way to come by products of one type. -/
structure Recipe (σ V : Type) where
  /-- The identity of the recipe: recipes with one serial are one and the same. -/
  serial : Nat
  /-- The type of the products. -/
  type : TypeRef
  /-- The parameters of the factory, in order. -/
  parameters : List Parameter
  /-- How long products are kept. -/
  lifetime : Lifetime
  /-- When the first product is made. -/
  activation : Activation
  /-- Where products come from. -/
  source : Source σ V

namespace Recipe

variable {σ V : Type}

/-- The type a recipe produces. -/
def key (r : Recipe σ V) : TypeKey := r.type.key

/-- What a recipe depends on, in the order of its parameters. -/
def dependencies (r : Recipe σ V) : List Dependency := r.parameters.map Parameter.dependency

/-- Whether the recipe serves a value that exists already. -/
def isGiven (r : Recipe σ V) : Bool :=
  match r.source with
  | .given _ => true
  | .factory _ => false

/-- Whether products of the recipe are made by a factory and then kept. -/
def isKept (r : Recipe σ V) : Bool := r.lifetime = .singleton && !r.isGiven

/-- The factory of one type as a factory of some type. -/
def erase (key : TypeKey) (make : Factory σ V (key.Payload V)) : Factory σ V (Value V) :=
  fun arguments world =>
    let (call, world) := make arguments world
    (⟨call.outcome.map (Value.of key), call.notices⟩, world)

/-- The recipe of a factory for the type `key`. -/
def ofFactory (serial : Nat) (role : Role) (key : TypeKey) (parameters : List Parameter)
    (make : Factory σ V (key.Payload V)) : Recipe σ V where
  serial := serial
  type := .of key
  parameters := parameters
  lifetime := role.lifetime
  activation := role.activation
  source := .factory (erase key make)

/-- The recipe of an existing value of the type `key`. -/
def ofValue (serial : Nat) (key : TypeKey) (origin : Origin) (payload : key.Payload V) :
    Recipe σ V where
  serial := serial
  type := .of key
  parameters := []
  lifetime := .singleton
  activation := .onDemand
  source := .given (.new key origin payload)

/-- The recipe that shares an existing value. -/
def ofShared (serial : Nat) (i : Instance V) : Recipe σ V :=
  ofValue serial i.value.key i.origin i.value.payload

/-! ### Types at run time -/

/-- Whatever the recipe comes up with is of the type it declares, under that type's
own name. -/
def WellTyped (r : Recipe σ V) : Prop :=
  r.type = .of r.key ∧
  match r.source with
  | .given product => product.type = .of r.key ∧ product.value.key = r.key
  | .factory make => ∀ arguments world value,
      (make arguments world).1.outcome = .made value → value.key = r.key

/-- Recipes of typed factories are well typed. -/
theorem wellTyped_ofFactory (serial : Nat) (role : Role) (key : TypeKey)
    (parameters : List Parameter) (make : Factory σ V (key.Payload V)) :
    (ofFactory serial role key parameters make).WellTyped := by
  refine ⟨rfl, fun arguments world value h => ?_⟩
  simp only [erase] at h
  cases hc : (make arguments world).1.outcome with
  | made product =>
    rw [hc] at h
    cases h
    exact Value.key_of key product
  | failed cause => rw [hc] at h; cases h
  | panicked text => rw [hc] at h; cases h

/-- Recipes of typed values are well typed. -/
theorem wellTyped_ofValue (serial : Nat) (key : TypeKey) (origin : Origin)
    (payload : key.Payload V) : (ofValue serial key origin payload : Recipe σ V).WellTyped :=
  ⟨rfl, rfl, Value.key_of key payload⟩

end Recipe

end Wiring
