/-
Factories that act by a plan.

* `Conduct`: what a scripted factory does, call by call;
* `Conduct.factory`: the factory. It first asks another workshop if it is told to, then
  does what is planned for the call.
-/
import Wiring.Script.World

namespace Wiring.Script

/-- What is planned for one call of a factory. -/
inductive Plan where
  /-- Answer a product. -/
  | succeed
  /-- Give up with this text. -/
  | fail (cause : String)
  /-- Break off with this text. -/
  | panic (text : String)
  deriving DecidableEq, Repr

/-- A type of another workshop. -/
structure Detour where
  /-- The other workshop. -/
  workshop : Workshop World Made
  /-- The type that is asked for there. -/
  key : TypeKey

/-- What a factory does. -/
structure Conduct where
  /-- The label of its products. -/
  label : String
  /-- The plan of its calls. The last one holds for all further calls. -/
  plan : List Plan
  /-- What it asks another workshop for before it does anything else. -/
  via : Option Detour
  /-- The configuration values of the holder it makes, if it makes one. -/
  settings : List (Nat × String)

namespace Conduct

/-- What is planned for the call with this number. Without a plan, calls succeed. -/
def planned (c : Conduct) (call : Nat) : Plan :=
  c.plan[min call (c.plan.length - 1)]?.getD .succeed

/-- Makes the product of a call that succeeds. -/
def produce (c : Conduct) (parts : List Part) :
    (key : TypeKey) → World → Call (key.Payload Made) × World
  | .product index, w =>
    let (made, w) := w.newProduct c.label parts
    (⟨.made made, []⟩,
      w.enter (.product index) (.ok (productIdentity index made.number)))
  | .settings, w =>
    match w.newSettings .empty c.settings with
    | (.ok held, notices, w) =>
      (⟨.made held, notices⟩, w.enter .settings (.ok (valueIdentity (.settings held))))
    | (.error e, notices, w) => (⟨.failed e.message, notices⟩, w.enter .settings .err)

/-- Does what is planned for the call with this number. -/
def act (c : Conduct) (key : TypeKey) (call : Nat) (parts : List Part) (w : World) :
    Call (key.Payload Made) × World :=
  match c.planned call with
  | .succeed => c.produce parts key w
  | .fail cause => (⟨.failed cause, []⟩, w.enter key .err)
  | .panic text => (⟨.panicked text, []⟩, w.enter key .panic)

/-- The factory of the recipe with this number. Its calls are counted over all
workshops that use the recipe. If another workshop does not serve it, the failure there
becomes its own; if that is broken off, so is everything. -/
def factory (c : Conduct) (recipe : Nat) (key : TypeKey) :
    Factory World Made (key.Payload Made) := fun arguments world =>
  let call := (world.calls.get? recipe).getD 0
  let world := { world with calls := world.calls.insert recipe (call + 1) }
  let parts := arguments.map part
  match c.via with
  | none => c.act key call parts world
  | some detour =>
    match world.request detour.workshop (detour.workshop.get detour.key) with
    | (.ok product, notices, world) =>
      let (done, world) :=
        c.act key call (parts ++ [.text ("via:" ++ identity product)]) world
      ({ done with notices := notices ++ done.notices }, world)
    | (.error (.failed failure), notices, world) =>
      (⟨.failed failure.message, notices⟩, world.enter key .viaErr)
    | (.error (.panicked text), notices, world) => (⟨.panicked text, notices⟩, world)
    | (.error .tooDeep, notices, world) =>
      (⟨.panicked "constructions are nested too deep", notices⟩, world)

end Conduct

end Wiring.Script
