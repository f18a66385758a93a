/-
Scripts at work.

* `Session.perform`: what each step does;
* `Session.step`: the answer to a step; a step that is refused changes nothing;
* `run`: the answers to all steps of a script.
-/
import Wiring.Script.Registration
import Wiring.Script.Race
import Wiring.Inspection

namespace Wiring.Script

namespace Session

/-- What a step does. -/
def perform : Step → Act Result
  | .newProvider id => do
    modify fun s => { s with providers := s.providers.insert id .empty }
    pure (.ok .nothing)
  | .addSetting provider type label => addSetting provider type (some label)
  | .offerSetting provider type label => addSetting provider type label
  | .findSetting holder type hold => findSetting holder type hold
  | .hasSetting holder type => do
    let held ← holderSettings holder
    pure (.ok (.flag (held.contains (← readProduct type))))
  | .showSettings holder => do
    let held ← holderSettings holder
    pure (.ok (.settings held.inspect held.sorted))
  | .settingsComponent provider id => settingsComponent provider id
  | .newRecipe id text => newRecipe id text
  | .showRecipe recipe pretty => do
    let r ← object recipes "recipe" recipe
    pure (.ok (.recipe r (r.outline.render pretty)))
  | .newDraft id name => do
    putDraft id (.new name)
    pure (.ok .nothing)
  | .insert mode draft recipe => do
    let d ← object drafts "acc" draft
    insertRecipe mode draft d (← object recipes "recipe" recipe)
  | .insertNew mode draft text => insertNew mode draft text
  | .merge mode draft component => mergeComponent mode draft component
  | .build draft id => do
    let d ← object drafts "acc" draft
    modify fun s => { s with drafts := s.drafts.erase draft }
    buildDraft d id
  | .showComponent component => do
    pure (.ok (.component (← object components "comp" component)))
  | .outlineComponent component pretty => do
    pure (.ok (.text ((← object components "comp" component).outline.render pretty)))
  | .newBook id component exports => do
    let c ← object components "comp" component
    let types ← exports.mapM readRef
    modify fun s => { s with books := s.books.insert id (.of c types) }
    pure (.ok .nothing)
  | .bookOf id workshop => do
    let w ← object workshops "rt" workshop
    modify fun s => { s with books := s.books.insert id w.book }
    pure (.ok .nothing)
  | .checkBook book => do
    let b ← object books "book" book
    report b.checkNotices
    match b.check with
    | .error defects => pure (.error (.defects defects))
    | .ok () => pure (.ok .nothing)
  | .showBook book => do
    let b ← object books "book" book
    report b.checkNotices
    pure (.ok (.book b))
  | .findRecipe book type => do
    let b ← object books "book" book
    match b.recipe? (← readKey type) with
    | some r => pure (.ok (.recipe r none))
    | none => pure (.ok .nothing)
  | .outlineBook book pretty => do
    pure (.ok (.text ((← object books "book" book).outline.render pretty)))
  | .reportBook book => do
    report (← object books "book" book).dependencyNotices
    pure (.ok .nothing)
  | .openWorkshop id book => do
    let b ← object books "book" book
    let w : Workshop World Made := ⟨← newWorkshopSerial, b⟩
    openWith w.serial w.opening fun () =>
      modify fun s => { s with workshops := s.workshops.insert id w }
  | .get workshop type hold => do
    let w ← object workshops "rt" workshop
    askProduct w (w.get (← readKey type)) hold
  | .getInstance workshop type hold => do
    let w ← object workshops "rt" workshop
    askProduct w (w.getInstance (← readRef type)) hold
  | .resolve workshop parameter => do
    let w ← object workshops "rt" workshop
    match ← ask w (w.resolve (← readParameter parameter).need) with
    | .error halt => pure (.error (.ofHalt halt))
    | .ok argument => pure (.ok (.part (part argument)))
  | .showStatus workshop type => do
    let w ← object workshops "rt" workshop
    let key := (← readRef type).key
    pure (.ok (.status (w.isConstructed (← shelfOf w) key) (w.book.produces key)))
  | .outlineWorkshop workshop pretty => do
    let w ← object workshops "rt" workshop
    pure (.ok (.text ((w.outline (← shelfOf w)).render pretty)))
  | .race workshop type times => do
    let w ← object workshops "rt" workshop
    race w (← readKey type) times
  | .createFacade id component exports => do
    let c ← object components "comp" component
    let keys ← exports.mapM readKey
    let serial ← newWorkshopSerial
    openWith serial (Facade.create serial c keys) (putFacade id)
  | .composeFacade id draft exports => do
    let d ← object drafts "acc" draft
    let keys ← exports.mapM readKey
    modify fun s => { s with drafts := s.drafts.erase draft }
    let serial ← newWorkshopSerial
    openWith serial (Facade.compose serial d keys) (putFacade id)
  | .narrowFacade id facade exports => do
    let f ← object facades "facade" facade
    match f.narrow (← exports.mapM readKey) with
    | none => pure (.error .notExported)
    | some narrowed =>
      putFacade id narrowed
      pure (.ok .nothing)
  | .copyFacade id facade => do
    putFacade id (← object facades "facade" facade)
    pure (.ok .nothing)
  | .getThrough facade type hold => do
    let f ← object facades "facade" facade
    match f.get (← readKey type) with
    | none => pure (.error .notExported)
    | some request => askProduct f.workshop request hold
  | .outlineFacade facade pretty => do
    let f ← object facades "facade" facade
    pure (.ok (.text ((f.outline (← shelfOf f.workshop)).render pretty)))
  | .workshopOf id facade => do
    let f ← object facades "facade" facade
    modify fun s => { s with workshops := s.workshops.insert id f.workshop }
    pure (.ok .nothing)
  | .sameWorkshop a b => do
    let f ← object facades "a" a
    let g ← object facades "b" b
    pure (.ok (.flag (f.workshop.serial = g.workshop.serial)))
  | .sameProduct a b => do
    let i ← object handles "a" a
    let j ← object handles "b" b
    pure (.ok (.flag (i.same j)))
  | .downcast handle target => do
    let i ← object handles "handle" handle
    match i.downcast (← readKey target) with
    | .ok i => pure (.ok (.product i))
    | .error actual => pure (.error (.downcast actual))
  | .unknown name => refuse (.unknownStep name)

/-- The answer to a step and the session after it. A step that is refused changes
nothing. -/
def step (s : Session) (x : Step) : Answer × Session :=
  match (perform x).run s with
  | .error refusal => (⟨.error (.refused refusal), [], []⟩, s)
  | .ok (result, s) =>
    (⟨result, s.world.journal, s.notices⟩,
      { s with notices := [], world := { s.world with journal := [] } })

/-- The answers to steps from a session on. -/
def steps : Session → List Step → List Answer
  | _, [] => []
  | s, x :: rest =>
    let (answer, s) := s.step x
    answer :: steps s rest

end Session

/-- The answers to the steps of a script. -/
def run (script : List Step) : List Answer := Session.initial.steps script

end Wiring.Script
