/-
What scripts observe of the products they make.

* `Made`: a product is a number, a label and what its factory was given;
* `Instance.identity`, `Argument.part`: how products and arguments are shown;
* `World`: the numbers in use, the journal of factory calls, and the stocks of all
  workshops, which factories may reach too;
* `World.request`: a request to one of the workshops of a world.
-/
import Wiring.Workshop
import Wiring.Script.Token

namespace Wiring.Script

/-- What a product remembers of an argument. -/
inductive Part where
  /-- An optional layer without anything in it. -/
  | absent
  /-- An optional layer around a part. -/
  | present (inner : Part)
  /-- A product or a value by its identity. -/
  | text (s : String)
  deriving DecidableEq, Repr

/-- What a product of a script is made of. -/
structure Made where
  /-- The number of the product among all products of the script. -/
  number : Nat
  /-- The label its recipe gives it. -/
  label : String
  /-- What its factory was given. -/
  parts : List Part
  deriving DecidableEq, Repr

/-- The identity of a numbered product. -/
def productIdentity (index number : Nat) : String :=
  (TypeKey.product index).token ++ "#" ++ toString number

/-- The identity of a configuration value. -/
def settingIdentity (s : Setting Made) : String := productIdentity s.index s.content.number

/-- The identity of a value. A holder of configuration values has no number of its
own and is known by its values. -/
def valueIdentity : Value Made → String
  | .product index content => productIdentity index content.number
  | .settings held =>
    "P[" ++ ",".intercalate (held.sorted.map settingIdentity) ++ "]"

/-- The identity of a shared value. -/
def identity (i : Instance Made) : String := valueIdentity i.value

/-- What a product remembers of an argument. -/
def part : Argument Made → Part
  | .shared product => .text (identity product)
  | .setting value => .text ("cfg:" ++ settingIdentity value ++ "=" ++ value.content.label)
  | .absent => .absent
  | .present inner => .present (part inner)

/-- How a call of a factory ended, as the journal has it. -/
inductive Ending where
  /-- It answered a product of this identity. -/
  | ok (identity : String)
  /-- It gave up. -/
  | err
  /-- It broke off. -/
  | panic
  /-- It gave up because another workshop did not serve it. -/
  | viaErr
  deriving DecidableEq, Repr

/-- A finished call of a factory. -/
structure Entry where
  /-- The type of the factory. -/
  key : TypeKey
  /-- How the call ended. -/
  ending : Ending
  deriving DecidableEq, Repr

/-- An entry as one text. -/
def Entry.text (e : Entry) : String :=
  e.key.token ++ ":" ++
    match e.ending with
    | .ok identity => "ok " ++ identity
    | .err => "err"
    | .panic => "panic"
    | .viaErr => "via-err"

/-- What factories of a script share. -/
structure World where
  /-- The number of the next product. -/
  nextNumber : Nat
  /-- The number of the next value made outside workshops. -/
  nextOrigin : Nat
  /-- How often the factory of each recipe was called. -/
  calls : Table Nat Nat
  /-- What each workshop keeps. -/
  stocks : Table Nat (Stock Made)
  /-- The factory calls that ended. -/
  journal : List Entry
  deriving DecidableEq, Repr

namespace World

/-- The world in which a script begins. -/
def initial : World := ⟨1, 0, .empty, .empty, []⟩

/-- Enters the end of a factory call into the journal. -/
def enter (w : World) (key : TypeKey) (ending : Ending) : World :=
  { w with journal := w.journal ++ [⟨key, ending⟩] }

/-- A new origin. -/
def newOrigin (w : World) : Origin × World :=
  (.given w.nextOrigin, { w with nextOrigin := w.nextOrigin + 1 })

/-- A new product. -/
def newProduct (w : World) (label : String) (parts : List Part) : Made × World :=
  (⟨w.nextNumber, label, parts⟩, { w with nextNumber := w.nextNumber + 1 })

/-- A new configuration value. -/
def newSetting (w : World) (index : Nat) (label : String) : Setting Made × World :=
  let (made, w) := w.newProduct label []
  let (origin, w) := w.newOrigin
  (⟨origin, index, made⟩, w)

/-- Makes configuration values one after the other and registers them, up to the first
that is refused. -/
def newSettings (w : World) (held : Settings Made) :
    List (Nat × String) → Except SettingError (Settings Made) × List Notice × World
  | [] => (.ok held, [], w)
  | (index, label) :: rest =>
    let (value, w) := w.newSetting index label
    match held.add value with
    | .error e => (.error e, [.settingRepeated e.type.name], w)
    | .ok held =>
      let (result, notices, w) := w.newSettings held rest
      (result, .settingRegistered (TypeKey.product index).name :: notices, w)

/-- What the workshop with this number keeps. -/
def stock (w : World) (workshop : Nat) : Stock Made :=
  (w.stocks.get? workshop).getD ⟨.empty, 0⟩

/-- The world after a moment of the workshop with this number. -/
def afterMoment (workshop : Nat) (m : Moment World Made) : World :=
  { m.world with stocks := m.world.stocks.insert workshop m.stock }

/-- A request to a workshop: its answer, what was reported, and the world after it. -/
def request {α : Type} (world : World) (w : Workshop World Made)
    (x : Request World Made α) : Except Halt α × List Notice × World :=
  let (answer, m) := x.runFrom ((world.stock w.serial).moment world)
  (answer, m.notices, afterMoment w.serial m)

end World

end Wiring.Script
