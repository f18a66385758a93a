/-
The survey of a recipe book, which finds all its defects before anything is made.

Every recipe is visited by a depth-first walk along the declared dependencies, with
one set of marks for all starting points, so each recipe is entered once. A type met
again while the walk is still below it closes a circle.

* `Survey.visit`: the walk from one recipe;
* `Survey.run`: the walk from all recipes in the order of registration;
* `Book.defects`, `Book.check`: the defects, and whether there are none;
* `Book.hasCircle`, `Book.missing`: what the defects are about.

The walk is recorded step by step as `Encounter`s; the defects are read off the
record.
-/
import Wiring.Book
import Wiring.Book.Defect

namespace Wiring

variable {σ V : Type}

/-- How far the walk has come with a type. -/
inductive Mark where
  /-- The walk is below the type. -/
  | pending
  /-- The walk is through with the type. -/
  | settled
  deriving DecidableEq, Repr

/-- A step of the walk. -/
inductive Encounter where
  /-- A recipe is visited for the first time. -/
  | entered (type : TypeRef)
  /-- A recipe the walk is through with is met again. -/
  | known (type : TypeRef)
  /-- A recipe the walk is still below is met again. -/
  | circle (origin target : TypeRef) (chain : List TypeRef)
  /-- A dependency without a recipe is met. -/
  | lacking (dependency : Dependency) (requiredBy : TypeRef)
  /-- The walk is through with a recipe. -/
  | left (type : TypeRef)
  /-- The walk was cut off because it went too deep. -/
  | cutOff (type : TypeRef)
  deriving DecidableEq, Repr

/-- The defect that a step uncovers. A dependency that may be absent is none. -/
def Encounter.defect? : Encounter → Option Defect
  | .circle origin target chain => some (.circular origin target chain)
  | .lacking dependency requiredBy =>
    if dependency.optional then none else some (.missingDependency dependency.type requiredBy)
  | _ => none

/-- The state of the walk. -/
structure Survey where
  /-- The marks of the types visited so far. -/
  marks : Table TypeKey Mark
  /-- The types from the starting point to where the walk is. -/
  chain : List TypeRef
  /-- The steps so far. -/
  steps : List Encounter
  deriving DecidableEq, Repr

namespace Survey

/-- The walk before its first step. -/
def start : Survey := ⟨.empty, [], []⟩

/-- Records a step. -/
def note (s : Survey) (step : Encounter) : Survey := { s with steps := s.steps ++ [step] }

/-- Enters a recipe: its type is pending and ends the chain. -/
def enter (s : Survey) (type : TypeRef) : Survey where
  marks := s.marks.insert type.key .pending
  chain := s.chain ++ [type]
  steps := s.steps ++ [.entered type]

/-- Leaves a recipe: its type is settled and no longer on the chain. -/
def leave (s : Survey) (type : TypeRef) : Survey where
  marks := s.marks.insert type.key .settled
  chain := s.chain.dropLast
  steps := s.steps ++ [.left type]

/-- The circle that the chain forms when `type` is met again: the chain from the
place of `type` on, and `type` once more. -/
def circleTo (s : Survey) (type : TypeRef) : Encounter :=
  .circle (s.chain.getLast?.getD type) type
    (s.chain.drop ((s.chain.idxOf? type).getD 0) ++ [type])

/-- The walk from the recipe `r`, at most `depth` recipes deep. -/
def visit (b : Book σ V) : (depth : Nat) → (r : Recipe σ V) → Survey → Survey
  | 0, r, s => s.note (.cutOff r.type)
  | depth + 1, r, s =>
    match s.marks.get? r.key with
    | some .settled => s.note (.known r.type)
    | some .pending => s.note (s.circleTo r.type)
    | none =>
      let below := r.dependencies.foldl
        (fun s d =>
          match b.recipe? d.type.key with
          | none => s.note (.lacking d r.type)
          | some next => visit b depth next s)
        (s.enter r.type)
      below.leave r.type

/-- The walk from every recipe of the book. No chain is longer than the book, so one
more is deep enough. -/
def run (b : Book σ V) : Survey :=
  b.recipes.foldl (fun s r => visit b (b.size + 1) r s) start

end Survey

namespace Book

/-- The exports that have no recipe, then what the walk uncovers. -/
def defects (b : Book σ V) : List Defect :=
  (b.requiredExports.filter fun type => !b.produces type.key).map .missingExport
    ++ (Survey.run b).steps.filterMap Encounter.defect?

/-- Whether the book is free of defects, or which it has. -/
def check (b : Book σ V) : Except (List Defect) Unit :=
  if b.defects.isEmpty then .ok () else .error b.defects

/-- Whether the book is free of defects. -/
def isComplete (b : Book σ V) : Bool := b.defects.isEmpty

/-- Whether the book has a circle of dependencies among its defects. -/
def hasCircle (b : Book σ V) : Bool := b.defects.any Defect.isCircular

/-- The types that are missing, each as often as it is a defect. -/
def missing (b : Book σ V) : List TypeRef := b.defects.filterMap Defect.missing?

/-- What is reported when the book is checked. -/
def checkNotices (b : Book σ V) : List Notice :=
  if b.defects.isEmpty then []
  else .incomplete b.defects.length :: b.dependencyNotices

end Book

end Wiring
