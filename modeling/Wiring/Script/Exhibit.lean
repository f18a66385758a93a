/-
Errors, chains and types on their own, to be shown and compared.

* `Exhibit.text`: the text of each;
* `Exhibit.same`: whether two are equal, with types equal by identity and name.
-/
import Wiring.Workshop.Opening

namespace Wiring.Script

/-- Something that is shown on its own. -/
inductive Exhibit where
  /-- Why a product can not be had. -/
  | failure (failure : Failure)
  /-- One conflict of a component. -/
  | conflict (conflict : Conflict)
  /-- One defect of a recipe book. -/
  | defect (defect : Defect)
  /-- All conflicts of a component. -/
  | conflicts (conflicts : Conflicts)
  /-- All defects of a recipe book. -/
  | defects (defects : List Defect)
  /-- Why no workshop can be composed. -/
  | compose (error : ComposeError)
  /-- Why a configuration value is refused. -/
  | setting (error : SettingError)
  /-- Types along a path. -/
  | chain (types : List TypeRef)
  /-- A type. -/
  | type (type : TypeRef)
  deriving DecidableEq, Repr

namespace Exhibit

/-- The text of what is shown. -/
def text : Exhibit → String
  | .failure f => f.message
  | .conflict c => c.message
  | .defect d => d.message
  | .conflicts c => c.message
  | .defects ds => Defect.report ds
  | .compose e => e.message
  | .setting e => e.message
  | .chain ts => chainText ts
  | .type t => t.name

/-- Whether two things shown are equal. -/
def same (a b : Exhibit) : Bool := a = b

end Exhibit

end Wiring.Script
