/-
Opening a workshop: the recipe book is checked, then the products that are to be there
from the start are made.

* `Workshop.opening`: all of it, in this order;
* `Workshop.activate`: makes the products of some recipes, up to the first that fails;
* `ComposeError`: why a composition is refused, with `ComposeError.message`.
-/
import Wiring.Workshop
import Wiring.Book.Survey

namespace Wiring

variable {σ V : Type}

/-- Why no workshop could be composed. -/
inductive ComposeError where
  /-- The component could not be built. -/
  | component (conflicts : Conflicts)
  /-- The recipe book has defects. -/
  | incomplete (defects : List Defect)
  /-- A primary or required product could not be made. -/
  | activation (product : String) (source : Failure)
  deriving DecidableEq, Repr

/-- The text of the error. -/
def ComposeError.message : ComposeError → String
  | .component conflicts => conflicts.message
  | .incomplete defects => Defect.report defects
  | .activation product source =>
    "Activating '" ++ product ++ "' failed: " ++ source.message

/-- The texts of the errors behind the error. -/
def ComposeError.sources : ComposeError → List String
  | .activation _ source => [source.message]
  | _ => []

/-- Why opening a workshop ends without one. -/
inductive Obstacle where
  /-- It is refused. -/
  | refused (error : ComposeError)
  /-- A factory broke off everything that was under way. -/
  | panicked (text : String)
  /-- Constructions are nested deeper than there are recipes. -/
  | tooDeep
  deriving DecidableEq, Repr

/-- A request for `product` that ended without an answer, as an obstacle. -/
def Obstacle.ofHalt (product : String) : Halt → Obstacle
  | .failed failure => .refused (.activation product failure)
  | .panicked text => .panicked text
  | .tooDeep => .tooDeep

/-- A step of opening a workshop. -/
abbrev Opening (σ V α : Type) := ExceptT Obstacle (StateM (Moment σ V)) α

namespace Workshop

/-- Makes the products of the recipes one after the other. -/
def activate (w : Workshop σ V) (activation : Activation) :
    List (Recipe σ V) → Opening σ V Unit
  | [] => pure ()
  | r :: rest => do
    modify (·.record (.noted (.activating activation r.type.name)))
    let _ ← ExceptT.adapt (Obstacle.ofHalt r.type.name) (w.getInstance r.type)
    w.activate activation rest

/-- The shelf of a workshop before anything is made. -/
def emptyShelf (w : Workshop σ V) : Shelf V :=
  .ofList ((w.book.recipes.filter Recipe.isKept).map fun r => (r.key, .empty))

/-- Opens the workshop: the book is checked, then the primary and then the required
products are made. -/
def opening (w : Workshop σ V) : Opening σ V Unit := do
  modify fun m => { m with trace := m.trace ++ w.book.checkNotices.map Event.noted }
  match w.book.check with
  | .error defects => throw (.refused (.incomplete defects))
  | .ok () =>
    modify fun m => { m with shelf := w.emptyShelf }
    w.activate .primary (w.book.activated .primary)
    w.activate .required (w.book.activated .required)

end Workshop

/-- Runs the steps of opening a workshop in a world. -/
def Opening.runIn {α : Type} (x : Opening σ V α) (world : σ) :
    Except Obstacle α × Moment σ V :=
  x.run.run ⟨.empty, 0, world, []⟩

end Wiring
