/-
The steps of scripts and the answers to them.

* `Step`: what a script can do, with names of objects and spellings of types as they
  stand in the script;
* `Refusal`: why a step is not carried out;
* `Problem`, `Shown`, `Answer`: what a step that is carried out answers.
-/
import Wiring.Script.Conduct
import Wiring.Facade

namespace Wiring.Script

/-- The recipes of scripts. -/
abbrev ScriptRecipe := Recipe World Made

/-- A recipe as it stands in a script. -/
structure RecipeText where
  /-- How it is registered. -/
  kind : String
  /-- The type of its products. -/
  type : String
  /-- The parameters of its factory. -/
  deps : List String
  /-- The label of its products. -/
  label : String
  /-- What its factory does, call by call. -/
  plan : List Plan
  /-- The workshop its factory asks first, and for what. -/
  via : Option (String × String)
  /-- The configuration values of the holder it makes. -/
  settings : List (String × String)
  /-- The held product it shares. -/
  handle : Option String
  deriving DecidableEq, Repr

/-- Where configuration values are looked up. -/
inductive Holder where
  /-- In a provider of the script. -/
  | provider (name : String)
  /-- In a held product. -/
  | handle (name : String)
  deriving DecidableEq, Repr

/-- A step of a script. Texts name objects or spell types, except for labels. -/
inductive Step where
  /-- Starts an empty provider of configuration values. -/
  | newProvider (id : String)
  /-- Registers a configuration value. -/
  | addSetting (provider type label : String)
  /-- Registers a configuration value if there is one. -/
  | offerSetting (provider type : String) (label : Option String)
  /-- Shows the configuration value of a type. -/
  | findSetting (holder : Holder) (type : String) (hold : Option String)
  /-- Shows whether a type has a configuration value. -/
  | hasSetting (holder : Holder) (type : String)
  /-- Shows all configuration values. -/
  | showSettings (holder : Holder)
  /-- Turns a provider into a component. -/
  | settingsComponent (provider id : String)
  /-- Makes a recipe that can be inserted more than once. -/
  | newRecipe (id : String) (text : RecipeText)
  /-- Shows a recipe. -/
  | showRecipe (recipe : String) (pretty : Bool)
  /-- Starts a component draft. -/
  | newDraft (id name : String)
  /-- Inserts a recipe into a draft. -/
  | insert (mode : Insertion) (draft recipe : String)
  /-- Inserts a recipe of its own into a draft. -/
  | insertNew (mode : Insertion) (draft : String) (text : RecipeText)
  /-- Inserts the recipes of a component into a draft. -/
  | merge (mode : Insertion) (draft component : String)
  /-- Builds the component of a draft, which is used up. -/
  | build (draft id : String)
  /-- Shows a component. -/
  | showComponent (component : String)
  /-- Shows the outline of a component. -/
  | outlineComponent (component : String) (pretty : Bool)
  /-- Makes the recipe book of a component. -/
  | newBook (id component : String) (exports : List String)
  /-- Copies the recipe book of a workshop. -/
  | bookOf (id workshop : String)
  /-- Checks a recipe book. -/
  | checkBook (book : String)
  /-- Shows a recipe book. -/
  | showBook (book : String)
  /-- Shows the recipe of a type. -/
  | findRecipe (book type : String)
  /-- Shows the outline of a recipe book. -/
  | outlineBook (book : String) (pretty : Bool)
  /-- Reports the recipes of a book with their dependencies. -/
  | reportBook (book : String)
  /-- Opens a workshop. -/
  | openWorkshop (id book : String)
  /-- Requests a product. -/
  | get (workshop type : String) (hold : Option String)
  /-- Requests a product without a check of its type. -/
  | getInstance (workshop type : String) (hold : Option String)
  /-- Resolves a factory parameter. -/
  | resolve (workshop parameter : String)
  /-- Shows what a workshop knows of a type. -/
  | showStatus (workshop type : String)
  /-- Shows the outline of a workshop. -/
  | outlineWorkshop (workshop : String) (pretty : Bool)
  /-- Requests a product several times at once. -/
  | race (workshop type : String) (times : Nat)
  /-- Creates a facade for a component. -/
  | createFacade (id component : String) (exports : List String)
  /-- Builds a draft, which is used up, and creates a facade for the component. -/
  | composeFacade (id draft : String) (exports : List String)
  /-- Narrows a facade. -/
  | narrowFacade (id facade : String) (exports : List String)
  /-- Copies a facade. -/
  | copyFacade (id facade : String)
  /-- Requests a product through a facade. -/
  | getThrough (facade type : String) (hold : Option String)
  /-- Shows the outline of a facade. -/
  | outlineFacade (facade : String) (pretty : Bool)
  /-- Names the workshop behind a facade. -/
  | workshopOf (id facade : String)
  /-- Shows whether two facades are views of one workshop. -/
  | sameWorkshop (a b : String)
  /-- Shows whether two held products are one. -/
  | sameProduct (a b : String)
  /-- Takes a held product as one of a type. -/
  | downcast (handle target : String)
  /-- A step of a name that is not known. -/
  | unknown (name : String)
  deriving DecidableEq, Repr

/-- Why a step is not carried out. -/
inductive Refusal where
  /-- There is no object of this name; `field` is where the step names it. -/
  | noObject (field name : String)
  /-- There is no such step. -/
  | unknownStep (name : String)
  /-- There is no such way to register a recipe. -/
  | badKind (kind : String)
  /-- The text stands for no type. -/
  | badType (token : String)
  /-- The text stands for no parameter. -/
  | badParameter (text : String)
  /-- A factory has more parameters than factories may have. -/
  | tooManyParameters
  /-- A held product is not of the type it is used as. -/
  | otherHandle
  deriving DecidableEq, Repr

/-- The text of a refusal. -/
def Refusal.message : Refusal → String
  | .noObject field name => "no " ++ field ++ " " ++ name
  | .unknownStep name => "unknown step " ++ name
  | .badKind kind => "bad kind " ++ kind
  | .badType token => "bad type " ++ token
  | .badParameter text => "bad parameter " ++ text
  | .tooManyParameters => "too many deps"
  | .otherHandle => "handle of another type"

/-- What goes wrong in a step. -/
inductive Problem where
  /-- The step is not carried out. -/
  | refused (refusal : Refusal)
  /-- A requested product can not be had. -/
  | failure (failure : Failure)
  /-- A component can not be built. -/
  | conflicts (conflicts : Conflicts)
  /-- A recipe book has defects. -/
  | defects (defects : List Defect)
  /-- No workshop can be composed. -/
  | compose (error : ComposeError)
  /-- A configuration value is refused. -/
  | setting (error : SettingError)
  /-- A type is not shown by a facade. -/
  | notExported
  /-- A held product is of another type, which has this name. -/
  | downcast (actual : String)
  /-- A factory broke off everything. -/
  | panic (text : String)
  /-- Constructions are nested deeper than there are recipes. -/
  | tooDeep
  deriving DecidableEq, Repr

/-- What goes wrong when a request ends without an answer. -/
def Problem.ofHalt : Halt → Problem
  | .failed f => .failure f
  | .panicked text => .panic text
  | .tooDeep => .tooDeep

/-- What goes wrong when no workshop can be opened. -/
def Problem.ofObstacle : Obstacle → Problem
  | .refused error => .compose error
  | .panicked text => .panic text
  | .tooDeep => .tooDeep

/-- What several requests for one type came to. -/
structure Race where
  /-- How many were served. -/
  good : Nat
  /-- The number of different identities that were served. -/
  distinct : Nat
  /-- The texts of the failures, sorted. -/
  errors : List String
  /-- How many were broken off. -/
  panics : Nat
  /-- The journal of the requests without the numbers, sorted. -/
  events : List String
  deriving DecidableEq, Repr

/-- What a step that succeeds shows. -/
inductive Shown where
  /-- There is nothing to show. -/
  | nothing
  /-- The answer to a question. -/
  | flag (b : Bool)
  /-- A text. -/
  | text (s : String)
  /-- A product. -/
  | product (i : Instance Made)
  /-- What a factory parameter receives. -/
  | part (p : Part)
  /-- Configuration values and their outline. -/
  | settings (text : String) (values : List (Setting Made))
  /-- A recipe, and its outline if that is wanted. -/
  | recipe (r : ScriptRecipe) (text : Option String)
  /-- A component. -/
  | component (c : Component World Made)
  /-- A recipe book. -/
  | book (b : Book World Made)
  /-- What a workshop knows of a type. -/
  | status (constructed produced : Bool)
  /-- What several requests came to. -/
  | race (r : Race)

/-- What a step shows, or what went wrong in it. -/
abbrev Result := Except Problem Shown

/-- The answer to a step. -/
structure Answer where
  /-- What the step shows, or what went wrong. -/
  result : Result
  /-- The factory calls that ended during the step. -/
  built : List Entry
  /-- What was reported during the step. -/
  notices : List Notice

end Wiring.Script
