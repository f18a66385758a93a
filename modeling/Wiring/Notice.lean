/-
What the library reports while it works:

* `Notice`: one report, by its cause;
* `Notice.level`, `Notice.text`: how serious it is, and its wording;
* `Notice.line`: both in one line.
-/
import Wiring.Failure
import Wiring.Lifetime

namespace Wiring

/-- How serious a report is. -/
inductive Level where
  /-- Ordinary work. -/
  | debug
  /-- What was asked for. -/
  | info
  /-- Something is refused. -/
  | warn
  /-- Something goes wrong. -/
  | error
  deriving DecidableEq, Repr

/-- The name of a level. -/
def Level.name : Level → String
  | .debug => "debug"
  | .info => "info"
  | .warn => "warn"
  | .error => "error"

/-- A report. Types appear by the names they are shown under. -/
inductive Notice where
  /-- A component draft takes up a type it did not have. -/
  | registers (component type : String)
  /-- A component draft replaces its recipe for a type. -/
  | overrides (component type : String)
  /-- A component draft refuses another recipe for a type. -/
  | secondRecipe (component type : String)
  /-- A component draft with so many conflicts can not be built. -/
  | conflicted (component : String) (conflicts : Nat)
  /-- A component with so many recipes is built. -/
  | built (component : String) (recipes : Nat)
  /-- A recipe book has so many defects. -/
  | incomplete (defects : Nat)
  /-- A recipe book lists a recipe. -/
  | recipe (type : String)
  /-- A recipe book lists a dependency of the recipe before. -/
  | dependency (type : String) (optional : Bool)
  /-- A workshop that opens makes a product in advance. -/
  | activating (activation : Activation) (type : String)
  /-- The construction of a requested product failed. -/
  | constructionFailed (type : String) (failure : Failure)
  /-- A product to be kept was made. -/
  | constructed (type : String)
  /-- A facade with so many exports is about to be created. -/
  | creatingFacade (component : String) (exports : Nat)
  /-- A configuration value is registered. -/
  | settingRegistered (type : String)
  /-- A configuration value is refused because its type has one. -/
  | settingRepeated (type : String)
  deriving DecidableEq, Repr

/-- How serious a report is. -/
def Notice.level : Notice → Level
  | .secondRecipe .. | .incomplete _ | .constructionFailed .. => .error
  | .conflicted .. | .settingRepeated _ => .warn
  | .recipe _ | .dependency .. => .info
  | _ => .debug

/-- The wording of a report. -/
def Notice.text : Notice → String
  | .registers component type => "Component '" ++ component ++ "' registers " ++ type
  | .overrides component type => "Component '" ++ component ++ "' overrides " ++ type
  | .secondRecipe component type =>
    "Component '" ++ component ++ "' received a second recipe for " ++ type
  | .conflicted component conflicts =>
    "Component '" ++ component ++ "' has " ++ toString conflicts ++ " configuration error(s)"
  | .built component recipes =>
    "Built component '" ++ component ++ "' with " ++ toString recipes ++ " recipes"
  | .incomplete defects => "Cook book is incomplete: " ++ toString defects ++ " issue(s)"
  | .recipe type => "recipe: " ++ type
  | .dependency type optional =>
    "  dependency: " ++ type ++ (if optional then " (optional)" else "")
  | .activating activation type => "Activating " ++ activation.name ++ " " ++ type
  | .constructionFailed type failure =>
    "Failed to construct " ++ type ++ ": " ++ failure.message
  | .constructed type => "Constructed instance of " ++ type
  | .creatingFacade component exports =>
    "Creating manufactory for component '" ++ component ++ "' exporting "
      ++ toString exports ++ " type(s)"
  | .settingRegistered type => "Registered config '" ++ type ++ "'"
  | .settingRepeated type => "Config '" ++ type ++ "' registered twice"

/-- A report as one line. -/
def Notice.line (n : Notice) : String := n.level.name ++ ": " ++ n.text

end Wiring
