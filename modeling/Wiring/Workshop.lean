/-
Workshops make the products of a recipe book on demand and keep the singletons.

* `Workshop.construct`: one attempt to make a product;
* `Workshop.serve`: a request by type, down to the factories;
* `Workshop.getInstance`, `Workshop.get`: the product of a type, with its type erased
  or checked;
* `Workshop.resolve`: what a factory parameter would receive;
* `Workshop.isConstructed`: whether the product of a type is there already.
-/
import Wiring.Workshop.Resolve
import Wiring.Book

namespace Wiring

variable {σ V : Type}

/-- A workshop: the book it works by, and the number that tells it from others. -/
structure Workshop (σ V : Type) where
  /-- The number of the workshop. -/
  serial : Nat
  /-- The recipes it works by. -/
  book : Book σ V

/-- What a workshop keeps between requests. -/
structure Stock (V : Type) where
  /-- The singletons made so far. -/
  shelf : Shelf V
  /-- The number of factory calls so far. -/
  calls : Nat
  deriving DecidableEq, Repr

/-- What is left for the requests to come. -/
def Moment.stock (m : Moment σ V) : Stock V := ⟨m.shelf, m.calls⟩

/-- The moment in which a workshop with this stock takes a request. -/
def Stock.moment (s : Stock V) (world : σ) : Moment σ V := ⟨s.shelf, s.calls, world, []⟩

namespace Workshop

/-- Calls the factory of `r`. The product is a new shared value. -/
def call (w : Workshop σ V) (r : Recipe σ V) (make : Factory σ V (Value V))
    (arguments : List (Argument V)) : Request σ V (Instance V) := do
  let m ← get
  let (call, world) := make arguments m.world
  set { m with
    calls := m.calls + 1
    world := world
    trace := m.trace ++ [Event.called m.calls r.key arguments call] }
  match call.outcome with
  | .made value => pure ⟨.of value.key, .built w.serial m.calls, value⟩
  | .failed cause => Request.fail (.factoryFailed r.type.name cause)
  | .panicked text => throw (.panicked text)

/-- The instance as one of the type `key`. -/
def checked (key : TypeKey) (i : Instance V) : Request σ V (Instance V) :=
  match i.downcast key with
  | .ok i => pure i
  | .error actual => Request.fail (.wrongType key.name actual)

/-- One attempt to make the product of `r` for the request `wanted`, while the types of
`stack` are under construction: the parameters are resolved, then the factory is
called. -/
def construct (w : Workshop σ V) (stack : List TypeKey) (wanted : TypeRef)
    (r : Recipe σ V) (make : Factory σ V (Value V))
    (obtain : TypeKey → Request σ V (Instance V)) : Request σ V (Instance V) :=
  Request.reporting wanted.name do
    Request.record (.began (wanted.key :: stack))
    let arguments ← resolveAll w.book.produces obtain r.parameters
    w.call r make arguments

/-- The product on the shelf, if `wanted` has a place there that is filled; otherwise the
product of `attempt`, which then fills the place if there is one. A mark on the place only
means that a factory panicked, so it is passed over. -/
def fromShelf (wanted : TypeRef) (attempt : Request σ V (Instance V)) :
    Request σ V (Instance V) := do
  match (← get).shelf.get? wanted.key with
  | none => attempt
  | some ⟨some product, _⟩ => pure product
  | some ⟨none, _⟩ =>
    let product ← Request.guarding wanted.key attempt
    Request.record (.noted (.constructed wanted.name))
    modify (·.store wanted.key product)
    pure product

/-- Serves a request for the type `wanted` while the types of `stack` are under
construction, where at most `room` requests may be nested.

A given value is handed out as it is. A singleton that is on the shelf is handed out
from there. Otherwise the parameters of the factory are resolved and the factory is
called; the product of a singleton then goes on the shelf, and if anything fails the
shelf is left as it is, so that later requests try again. -/
def serve (w : Workshop σ V) :
    (room : Nat) → (stack : List TypeKey) → (wanted : TypeRef) → Request σ V (Instance V)
  | 0, _, _ => throw .tooDeep
  | room + 1, stack, wanted =>
    match w.book.recipe? wanted.key with
    | none => Request.fail (.missing wanted.name)
    | some r =>
      match r.source with
      | .given product => pure product
      | .factory make =>
        fromShelf wanted <| w.construct stack wanted r make fun key =>
          w.serve room (wanted.key :: stack) (.of key) >>= checked key

theorem serve_succ (w : Workshop σ V) (room : Nat) (stack : List TypeKey)
    (wanted : TypeRef) :
    w.serve (room + 1) stack wanted =
      match w.book.recipe? wanted.key with
      | none => Request.fail (.missing wanted.name)
      | some r =>
        match r.source with
        | .given product => pure product
        | .factory make =>
          fromShelf wanted <| w.construct stack wanted r make fun key =>
            w.serve room (wanted.key :: stack) (.of key) >>= checked key := rfl

/-- The room for nested requests: constructions are nested at most as deep as there
are recipes, and the innermost one requests something once more. -/
def room (w : Workshop σ V) : Nat := w.book.size + 1

/-- The product of the type `wanted`, its type erased. -/
def getInstance (w : Workshop σ V) (wanted : TypeRef) : Request σ V (Instance V) :=
  w.serve w.room [] wanted

/-- The product of a type. -/
def get (w : Workshop σ V) (key : TypeKey) : Request σ V (Instance V) :=
  w.getInstance (.of key) >>= checked key

/-- What a factory parameter with this need would receive. -/
def resolve (w : Workshop σ V) (need : Need) : Request σ V (Argument V) :=
  need.resolve w.book.produces w.get

/-- Whether the product of a type is there: always for given values, never for
products that are not kept. -/
def isConstructed (w : Workshop σ V) (s : Shelf V) (key : TypeKey) : Bool :=
  match s.get? key with
  | some place => place.product.isSome
  | none => (w.book.recipe? key).any Recipe.isGiven

end Workshop

end Wiring
