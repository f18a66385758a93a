/-
The steps that prepare a composition: providers of configuration values, recipes, and
component drafts.

* `Session.readRecipe`: the recipe that a text in a script stands for;
* `Session.addSetting`: the registration of a configuration value;
* `Session.insertRecipe`, `Session.mergeComponent`, `Session.buildDraft`: what happens to
  drafts.
-/
import Wiring.Script.Session

namespace Wiring.Script.Session

/-! ### Configuration values -/

/-- The configuration values of a provider or a held product. -/
def holderSettings : Holder → Act (Settings Made)
  | .provider name => object providers "provider" name
  | .handle name => do
    match (← object handles "handle" name).value with
    | .settings held => pure held
    | .product .. => refuse .otherHandle

/-- Registers a new configuration value with a provider if there is a label for it. -/
def addSetting (provider type : String) (label : Option String) : Act Result := do
  let held ← object providers "provider" provider
  let index ← readProduct type
  let (outcome, notices) ← withWorld fun w =>
    let (outcome, notices, w) := w.newSettings held (label.toList.map (index, ·))
    ((outcome, notices), w)
  report notices
  match outcome with
  | .error e => pure (.error (.setting e))
  | .ok held =>
    modify fun s => { s with providers := s.providers.insert provider held }
    pure (.ok .nothing)

/-- Shows and keeps the configuration value of a type. -/
def findSetting (holder : Holder) (type : String) (hold : Option String) : Act Result := do
  let held ← holderSettings holder
  match held.find (← readProduct type) with
  | .error e => pure (.error (.setting e))
  | .ok none => pure (.ok .nothing)
  | .ok (some value) =>
    keep hold (.ofSetting value)
    pure (.ok (.product (.ofSetting value)))

/-! ### Recipes -/

/-- The most parameters a factory may have. -/
def maxParameters : Nat := 10

/-- How a factory of this kind is registered. -/
def roleOfKind? : String → Option Role
  | "primary" => some .primary
  | "required" => some .required
  | "retained" => some .retained
  | "transient" => some .transient
  | _ => none

/-- The recipe of a new value of the type `key`, or why it can not be made. -/
def valueRecipe (serial : Nat) (key : TypeKey) (label : String)
    (settings : List (Nat × String)) : Act (Except SettingError ScriptRecipe) :=
  match key with
  | .product index => do
    let value ← withWorld (·.newSetting index label)
    pure (.ok (.ofShared serial (.ofSetting value)))
  | .settings => do
    let (held, notices, origin) ← withWorld fun w =>
      let (held, notices, w) := w.newSettings .empty settings
      let (origin, w) := w.newOrigin
      ((held, notices, origin), w)
    report notices
    pure (held.map (.ofValue serial .settings origin))

/-- The recipe of a factory that acts as the text says. -/
def factoryRecipe (serial : Nat) (key : TypeKey) (text : RecipeText)
    (settings : List (Nat × String)) : Act ScriptRecipe := do
  let some role := roleOfKind? text.kind | refuse (.badKind text.kind)
  if text.deps.length > maxParameters then refuse .tooManyParameters
  let parameters ← text.deps.mapM readParameter
  let via ← text.via.mapM fun (workshop, type) => do
    let workshop ← object workshops "rt" workshop
    pure (Detour.mk workshop (← readKey type))
  let conduct : Conduct := ⟨text.label, text.plan, via, settings⟩
  pure (.ofFactory serial role key parameters (conduct.factory serial key))

/-- The recipe for the type `key` that a text in a script stands for. A shared value
without a handle is a new one unless `needsHandle`. -/
def readRecipe (text : RecipeText) (needsHandle : Bool) (key : TypeKey) :
    Act (Except SettingError ScriptRecipe) := do
  let settings ← text.settings.mapM fun (token, label) => do
    pure (← readProduct token, label)
  let serial ← newRecipeSerial
  match text.kind, text.handle with
  | "instance", _ => valueRecipe serial key text.label settings
  | "shared", some name =>
    let i ← object handles "handle" name
    if i.value.key = key then pure (.ok (.ofShared serial i)) else refuse .otherHandle
  | "shared", none =>
    if needsHandle then refuse (.noObject "handle" "")
    else valueRecipe serial key text.label settings
  | _, _ => do pure (.ok (← factoryRecipe serial key text settings))

/-- Makes a recipe that can be inserted more than once. -/
def newRecipe (id : String) (text : RecipeText) : Act Result := do
  let key ← readKey text.type
  match ← readRecipe text false key with
  | .error e => pure (.error (.setting e))
  | .ok r =>
    modify fun s => { s with recipes := s.recipes.insert id r }
    pure (.ok .nothing)

/-! ### Drafts and components -/

/-- Inserts a recipe into a draft. -/
def insertRecipe (mode : Insertion) (name : String) (d : Draft World Made)
    (r : ScriptRecipe) : Act Result := do
  report (d.insertNotices mode r)
  putDraft name (d.insert mode r)
  pure (.ok .nothing)

/-- Inserts a recipe of its own into a draft. The type is read before the draft is looked
up, and all else of the recipe after that. -/
def insertNew (mode : Insertion) (draft : String) (text : RecipeText) : Act Result := do
  let key ← readKey text.type
  let d ← object drafts "acc" draft
  match ← readRecipe text (mode = .adding) key with
  | .error e => pure (.error (.setting e))
  | .ok r => insertRecipe mode draft d r

/-- Inserts the recipes of a component into a draft. -/
def mergeComponent (mode : Insertion) (draft component : String) : Act Result := do
  let d ← object drafts "acc" draft
  let c ← object components "comp" component
  report (d.insertAllNotices mode c.recipes)
  putDraft draft (d.merge mode c)
  pure (.ok .nothing)

/-- Builds the component of a draft. -/
def buildDraft (d : Draft World Made) (id : String) : Act Result := do
  report d.buildNotices
  match d.build with
  | .error conflicts => pure (.error (.conflicts conflicts))
  | .ok c =>
    modify fun s => { s with components := s.components.insert id c }
    pure (.ok .nothing)

/-- Turns a provider, which is used up, into a component. -/
def settingsComponent (provider id : String) : Act Result := do
  let held ← object providers "provider" provider
  modify fun s => { s with providers := s.providers.erase provider }
  let serial ← newRecipeSerial
  let origin ← withWorld World.newOrigin
  report Draft.ofSettingsNotices
  buildDraft (.ofSettings serial origin held) id

end Wiring.Script.Session
