/-
What can be wrong with a recipe book, and the texts of the reports.
-/
import Wiring.Component

namespace Wiring

/-- Types along a path of dependencies, as one text. -/
def chainText (chain : List TypeRef) : String := " -> ".intercalate (chain.map TypeRef.name)

/-- A flaw of a recipe book. -/
inductive Defect where
  /-- A type has to be produced and has no recipe. -/
  | missingExport (type : TypeRef)
  /-- A recipe needs a type that has no recipe. -/
  | missingDependency (dependency requiredBy : TypeRef)
  /-- The types of `chain` depend on each other in a circle that the dependency of
  `origin` on `target` closes. -/
  | circular (origin target : TypeRef) (chain : List TypeRef)
  deriving DecidableEq, Repr

namespace Defect

/-- The text of a flaw. -/
def message : Defect → String
  | .missingExport type => "'" ++ type.name ++ "' is exported but no recipe produces it"
  | .missingDependency dependency requiredBy =>
    "'" ++ requiredBy.name ++ "' needs '" ++ dependency.name ++ "' but it is missing"
  | .circular origin target chain =>
    "A Circular Dependency exists between '" ++ origin.name ++ "' and '" ++ target.name
      ++ "' through " ++ chainText chain

/-- The type that is missing, if one is. -/
def missing? : Defect → Option TypeRef
  | .missingExport type => some type
  | .missingDependency dependency _ => some dependency
  | .circular .. => none

/-- Whether the flaw is a circle of dependencies. -/
def isCircular : Defect → Bool
  | .circular .. => true
  | _ => false

/-- The text of the report on several flaws. -/
def report (defects : List Defect) : String :=
  itemise "The cook book had one or more errors:" (defects.map message)

end Defect

end Wiring
