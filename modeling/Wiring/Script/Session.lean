/-
The objects of a running script, and how steps read and change them.

* `Session`: the objects of a script by kind and name, and the world they share;
* `Act`: a part of a step, which may refuse the step;
* `Session.object`, `Session.readKey`, `Session.readRef`, `Session.readParameter`: the
  objects and types that a step names, or a refusal;
* `Session.ask`, `Session.openWith`: requests to workshops, and the opening of one.
-/
import Wiring.Script.Step

namespace Wiring.Script

/-- The objects of a script. A second object of a kind replaces the first one of its
name. -/
structure Session where
  /-- What the factories of the script share. -/
  world : World
  /-- The number of the next recipe. -/
  nextRecipe : Nat
  /-- The number of the next workshop. -/
  nextWorkshop : Nat
  /-- What was reported in the current step. -/
  notices : List Notice
  /-- Holders of configuration values that are being filled. -/
  providers : Table String (Settings Made)
  /-- Recipes that can be inserted more than once. -/
  recipes : Table String ScriptRecipe
  /-- Component drafts. -/
  drafts : Table String (Draft World Made)
  /-- Components. -/
  components : Table String (Component World Made)
  /-- Recipe books. -/
  books : Table String (Book World Made)
  /-- Workshops. -/
  workshops : Table String (Workshop World Made)
  /-- Facades. -/
  facades : Table String (Facade World Made)
  /-- Held products. -/
  handles : Table String (Instance Made)

/-- The session in which a script begins. -/
def Session.initial : Session :=
  ⟨.initial, 0, 0, [], .empty, .empty, .empty, .empty, .empty, .empty, .empty, .empty⟩

/-- A part of a step, which may refuse the step. -/
abbrev Act := StateT Session (Except Refusal)

namespace Session

/-! ### What a step names -/

/-- Refuses the step. -/
def refuse {α : Type} (r : Refusal) : Act α := fun _ => .error r

/-- The object called `name` in a table; `field` is where the step names it. -/
def object {α : Type} (table : Session → Table String α) (field name : String) : Act α := do
  match (table (← get)).get? name with
  | some x => pure x
  | none => refuse (.noObject field name)

/-- The type a token stands for. -/
def readKey (token : String) : Act TypeKey :=
  match TypeKey.ofToken? token with
  | some key => pure key
  | none => refuse (.badType token)

/-- The product type a token stands for. -/
def readProduct (token : String) : Act Nat :=
  match productOfToken? token with
  | some index => pure index
  | none => refuse (.badType token)

/-- The type reference a text stands for. -/
def readRef (text : String) : Act TypeRef :=
  match TypeRef.read? text with
  | some type => pure type
  | none => refuse (.badType (splitName text).1)

/-- The parameter a text stands for. -/
def readParameter (text : String) : Act Parameter :=
  match Parameter.read? text with
  | some p => pure p
  | none => refuse (.badParameter text)

/-! ### What a step changes -/

/-- Reports something. -/
def report (notices : List Notice) : Act Unit :=
  modify fun s => { s with notices := s.notices ++ notices }

/-- Changes the world. -/
def withWorld {α : Type} (f : World → α × World) : Act α :=
  modifyGet fun s => let (a, w) := f s.world; (a, { s with world := w })

/-- The number of a new recipe. -/
def newRecipeSerial : Act Nat :=
  modifyGet fun s => (s.nextRecipe, { s with nextRecipe := s.nextRecipe + 1 })

/-- The number of a new workshop. -/
def newWorkshopSerial : Act Nat :=
  modifyGet fun s => (s.nextWorkshop, { s with nextWorkshop := s.nextWorkshop + 1 })

/-- Keeps a product if a name is given for it. -/
def keep (hold : Option String) (i : Instance Made) : Act Unit :=
  match hold with
  | none => pure ()
  | some name => modify fun s => { s with handles := s.handles.insert name i }

/-- Puts a draft under a name. -/
def putDraft (name : String) (d : Draft World Made) : Act Unit :=
  modify fun s => { s with drafts := s.drafts.insert name d }

/-- Puts a facade under a name. -/
def putFacade (name : String) (f : Facade World Made) : Act Unit :=
  modify fun s => { s with facades := s.facades.insert name f }

/-! ### Workshops -/

/-- A request to a workshop. -/
def ask {α : Type} (w : Workshop World Made) (x : Request World Made α) :
    Act (Except Halt α) := do
  let (answer, notices) ← withWorld fun world =>
    let (answer, notices, world) := world.request w x
    ((answer, notices), world)
  report notices
  pure answer

/-- A request for a product, which is shown and kept. -/
def askProduct (w : Workshop World Made) (x : Request World Made (Instance Made))
    (hold : Option String) : Act Result := do
  match ← ask w x with
  | .error halt => pure (.error (.ofHalt halt))
  | .ok product =>
    keep hold product
    pure (.ok (.product product))

/-- Opens the workshop with the number `serial`. If that succeeds the workshop has its
stock in the world and `settle` is carried out; otherwise nothing is kept of it. -/
def openWith {α : Type} (serial : Nat) (x : Opening World Made α) (settle : α → Act Unit) :
    Act Result := do
  let (outcome, m) := x.runIn (← get).world
  report m.notices
  match outcome with
  | .error obstacle =>
    withWorld fun _ => ((), m.world)
    pure (.error (.ofObstacle obstacle))
  | .ok a =>
    withWorld fun _ => ((), World.afterMoment serial m)
    settle a
    pure (.ok .nothing)

/-- The singletons of a workshop. -/
def shelfOf (w : Workshop World Made) : Act (Shelf Made) := do
  pure ((← get).world.stock w.serial).shelf

end Session

end Wiring.Script
