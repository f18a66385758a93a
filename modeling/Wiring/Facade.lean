/-
Facades: views of a workshop that show some of the types it produces.

* `Facade.create`: opens a workshop for a component and shows its exports;
* `Facade.compose`: builds a component draft first;
* `Facade.narrow`: a view of the same workshop that shows less.
-/
import Wiring.Workshop.Opening
import Wiring.Component.Draft

namespace Wiring

variable {σ V : Type}

/-- A view of a workshop. -/
structure Facade (σ V : Type) where
  /-- The types that are shown. -/
  exports : List TypeKey
  /-- The workshop behind the view. -/
  workshop : Workshop σ V

namespace Facade

/-- Opens the workshop with the number `serial` for a component, which has to produce
all exports. -/
def create (serial : Nat) (c : Component σ V) (exports : List TypeKey) :
    Opening σ V (Facade σ V) := do
  modify (·.record (.noted (.creatingFacade c.name exports.length)))
  let workshop : Workshop σ V := ⟨serial, .of c (exports.map .of)⟩
  workshop.opening
  pure ⟨exports, workshop⟩

/-- Builds a component and opens the workshop with the number `serial` for it. -/
def compose (serial : Nat) (d : Draft σ V) (exports : List TypeKey) :
    Opening σ V (Facade σ V) := do
  modify fun m => { m with trace := m.trace ++ d.buildNotices.map Event.noted }
  match d.build with
  | .error conflicts => throw (.refused (.component conflicts))
  | .ok c => create serial c exports

/-- Whether a type is shown. -/
def shows (f : Facade σ V) (key : TypeKey) : Bool := f.exports.contains key

/-- The view of the same workshop that shows `exports` only, if all of them are
shown. -/
def narrow (f : Facade σ V) (exports : List TypeKey) : Option (Facade σ V) :=
  if exports.all f.shows then some ⟨exports, f.workshop⟩ else none

/-- The product of a type that is shown. -/
def get (f : Facade σ V) (key : TypeKey) : Option (Request σ V (Instance V)) :=
  if f.shows key then some (f.workshop.get key) else none

end Facade

end Wiring
