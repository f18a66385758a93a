/-
Requests to a workshop, as computations on its state.

* `Place`, `Shelf`: the singletons of a workshop, as far as they are made;
* `Moment`: all that a request may observe and change, together with the record of
  what happened;
* `Request`: a computation that answers something or ends in a `Halt`, and keeps the
  changes made so far in either case;
* `Request.reporting`: reports the failure of a construction;
* `Request.guarding`: marks a place whose product was being made when a factory panicked;
* `Request.runFrom_bind`: two computations run one after the other.
-/
import Wiring.Recipe

namespace Wiring

/-- Why a request ends without an answer. -/
inductive Halt where
  /-- It fails. -/
  | failed (failure : Failure)
  /-- A factory broke off everything that was under way. -/
  | panicked (text : String)
  /-- Constructions are nested deeper than there are recipes. -/
  | tooDeep
  deriving DecidableEq, Repr

/-- The place of a singleton. -/
structure Place (V : Type) where
  /-- The singleton, once it is made. -/
  product : Option (Instance V)
  /-- Whether a factory ever panicked while the singleton was being made. -/
  poisoned : Bool
  deriving DecidableEq, Repr

/-- The place of a singleton that nobody asked for yet. -/
def Place.empty {V : Type} : Place V := ⟨none, false⟩

/-- The singletons of a workshop by type, as far as they are made. Only types whose
products are made by a factory and then kept have a place. -/
abbrev Shelf (V : Type) := Table TypeKey (Place V)

/-- The singleton of a type, if it is made. A mark on its place does not matter. -/
def Shelf.product? {V : Type} (s : Shelf V) (key : TypeKey) : Option (Instance V) :=
  (s.get? key).bind Place.product

/-- Something that happened in a workshop. -/
inductive Event (V : Type) where
  /-- The construction of the first type of `stack` begins. The types after it are
  those under construction already, the innermost first. -/
  | began (stack : List TypeKey)
  /-- A factory was called: the number of the call, the type, what was handed over
  and how it ended. -/
  | called (serial : Nat) (key : TypeKey) (arguments : List (Argument V))
      (call : Call (Value V))
  /-- A product was put in the place of its type. -/
  | shelved (key : TypeKey) (product : Instance V)
  /-- The workshop reports something. -/
  | noted (notice : Notice)
  deriving DecidableEq, Repr

/-- What was reported on an occasion. -/
def Event.notices {V : Type} : Event V → List Notice
  | .began _ => []
  | .called _ _ _ call => call.notices
  | .shelved .. => []
  | .noted notice => [notice]

/-- The state of a workshop and of the world around it, with the record of what
happened. -/
structure Moment (σ V : Type) where
  /-- The singletons made so far. -/
  shelf : Shelf V
  /-- The number of factory calls so far. -/
  calls : Nat
  /-- The world outside the workshop. -/
  world : σ
  /-- What happened, in order. -/
  trace : List (Event V)

/-- A computation on a workshop. -/
abbrev Request (σ V α : Type) := ExceptT Halt (StateM (Moment σ V)) α

namespace Moment

variable {σ V : Type}

/-- Records an event. -/
def record (m : Moment σ V) (event : Event V) : Moment σ V :=
  { m with trace := m.trace ++ [event] }

/-- Puts a product on the shelf. -/
def store (m : Moment σ V) (key : TypeKey) (product : Instance V) : Moment σ V :=
  { m with
    shelf := m.shelf.modify key fun place => { place with product := some product }
    trace := m.trace ++ [.shelved key product] }

/-- Marks the place of a type, if it has one. -/
def poison (m : Moment σ V) (key : TypeKey) : Moment σ V :=
  { m with shelf := m.shelf.modify key fun place => { place with poisoned := true } }

/-- What was reported, in order. -/
def notices (m : Moment σ V) : List Notice := m.trace.flatMap Event.notices

end Moment

namespace Request

variable {σ V α : Type}

/-- Runs a computation, giving its answer and the moment after it. -/
def runFrom (x : Request σ V α) (m : Moment σ V) : Except Halt α × Moment σ V :=
  x.run.run m

/-- Fails. -/
def fail (failure : Failure) : Request σ V α := throw (.failed failure)

/-- Records an event. -/
def record (event : Event V) : Request σ V Unit := modify (·.record event)

/-- What the computation `x` does. If it fails, that is reported as the failed
construction of `name`; if it is broken off, nothing is reported. -/
def reporting (name : String) (x : Request σ V α) : Request σ V α :=
  ExceptT.mk fun m =>
    match x.runFrom m with
    | (.error (.failed failure), m') =>
      (.error (.failed failure), m'.record (.noted (.constructionFailed name failure)))
    | other => other

/-- What the computation `x` does while it makes the product for the place of `key`. If a
factory panics, the place is marked. -/
def guarding (key : TypeKey) (x : Request σ V α) : Request σ V α :=
  ExceptT.mk fun m =>
    match x.runFrom m with
    | (.error (.panicked text), m') => (.error (.panicked text), m'.poison key)
    | other => other

/-! ### Running a request -/

@[simp] theorem runFrom_pure (a : α) (m : Moment σ V) :
    (pure a : Request σ V α).runFrom m = (.ok a, m) := rfl

@[simp] theorem runFrom_throw (halt : Halt) (m : Moment σ V) :
    (throw halt : Request σ V α).runFrom m = (.error halt, m) := rfl

@[simp] theorem runFrom_fail (failure : Failure) (m : Moment σ V) :
    (fail failure : Request σ V α).runFrom m = (.error (.failed failure), m) := rfl

@[simp] theorem runFrom_get (m : Moment σ V) :
    (get : Request σ V (Moment σ V)).runFrom m = (.ok m, m) := rfl

@[simp] theorem runFrom_set (n m : Moment σ V) :
    (set n : Request σ V Unit).runFrom m = (.ok (), n) := rfl

@[simp] theorem runFrom_modify (f : Moment σ V → Moment σ V) (m : Moment σ V) :
    (modify f : Request σ V Unit).runFrom m = (.ok (), f m) := rfl

@[simp] theorem runFrom_record (event : Event V) (m : Moment σ V) :
    (record event : Request σ V Unit).runFrom m = (.ok (), m.record event) := rfl

/-- A failure is reported after all that led to it; nothing else is. -/
theorem runFrom_reporting (name : String) (x : Request σ V α) (m : Moment σ V) :
    (reporting name x).runFrom m =
      match x.runFrom m with
      | (.error (.failed failure), m') =>
        (.error (.failed failure), m'.record (.noted (.constructionFailed name failure)))
      | other => other := rfl

/-- A place is marked after all that led to the panic; nothing else is. -/
theorem runFrom_guarding (key : TypeKey) (x : Request σ V α) (m : Moment σ V) :
    (guarding key x).runFrom m =
      match x.runFrom m with
      | (.error (.panicked text), m') => (.error (.panicked text), m'.poison key)
      | other => other := rfl

/-- The second computation starts where the first one ended; if the first one ends
without an answer, that is the end, and its changes are kept. -/
theorem runFrom_bind {β : Type} (x : Request σ V α) (f : α → Request σ V β)
    (m : Moment σ V) :
    (x >>= f).runFrom m =
      match x.runFrom m with
      | (.ok a, m') => (f a).runFrom m'
      | (.error halt, m') => (.error halt, m') := by
  have step : (x >>= f).runFrom m =
      (match x.runFrom m with | (answer, m') => ExceptT.bindCont f answer m') := rfl
  rw [step]
  rcases x.runFrom m with ⟨halt | a, m'⟩ <;> rfl

/-- Applying a function to the answer changes nothing else. -/
theorem runFrom_map {β : Type} (f : α → β) (x : Request σ V α) (m : Moment σ V) :
    (f <$> x).runFrom m =
      match x.runFrom m with
      | (.ok a, m') => (.ok (f a), m')
      | (.error halt, m') => (.error halt, m') := by
  rw [← bind_pure_comp, runFrom_bind]
  rcases x.runFrom m with ⟨halt | a, m'⟩ <;> rfl

end Request

end Wiring
