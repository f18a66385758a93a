/-
Configuration values by type:

* `Settings.add`: registers a value unless its type has one, so the first value of
  a type stays;
* `Settings.find`: the value of a type, or `mismatch` if what is stored there is of
  another type.
-/
import Wiring.Table
import Wiring.TypeRef
import Wiring.Origin

namespace Wiring

/-- A shared configuration value. -/
structure Setting (V : Type) where
  /-- Which shared value this is. -/
  origin : Origin
  /-- The number of the product type the value has. -/
  index : Nat
  /-- The value itself. -/
  content : V
  deriving DecidableEq, Repr

/-- What can go wrong when a configuration value is registered or fetched. -/
inductive SettingError where
  /-- The type has a value already. -/
  | alreadyRegistered (type : TypeRef)
  /-- The value stored for the type is of another type. -/
  | mismatch (type : TypeRef)
  deriving DecidableEq, Repr

/-- The text of the error. -/
def SettingError.message : SettingError → String
  | .alreadyRegistered type => "A config of type '" ++ type.name ++ "' is already registered"
  | .mismatch type => "The config stored for '" ++ type.name ++ "' has a different type"

/-- The type an error is about. -/
def SettingError.type : SettingError → TypeRef
  | .alreadyRegistered type => type
  | .mismatch type => type

/-- A registered value together with the type it was registered for. -/
structure Settings.Entry (V : Type) where
  /-- The type it was registered for. -/
  type : TypeRef
  /-- The value. -/
  value : Setting V
  deriving DecidableEq, Repr

/-- A holder of configuration values, at most one for each product type. -/
structure Settings (V : Type) where
  /-- The entries by the number of the product type. -/
  entries : Table Nat (Settings.Entry V)
  deriving DecidableEq, Repr

namespace Settings

variable {V : Type}

/-- The holder without values. -/
def empty : Settings V := ⟨.empty⟩

instance : Inhabited (Settings V) := ⟨empty⟩

/-- Whether a value of the product type `index` is registered. -/
def contains (s : Settings V) (index : Nat) : Bool := s.entries.contains index

/-- Registers a value unless its type has one already. -/
def add (s : Settings V) (value : Setting V) : Except SettingError (Settings V) :=
  let type := TypeRef.of (.product value.index)
  if s.contains value.index then .error (.alreadyRegistered type)
  else .ok ⟨s.entries.insert value.index ⟨type, value⟩⟩

/-- Registers a value if there is one to register. -/
def maybeAdd (s : Settings V) : Option (Setting V) → Except SettingError (Settings V)
  | some value => s.add value
  | none => .ok s

/-- The value of the product type `index`, if one is registered. -/
def find (s : Settings V) (index : Nat) : Except SettingError (Option (Setting V)) :=
  match s.entries.get? index with
  | none => .ok none
  | some entry =>
    if entry.value.index = index then .ok (some entry.value)
    else .error (.mismatch (TypeRef.of (.product index)))

/-- The registered values by ascending number of their type. -/
def sorted (s : Settings V) : List (Setting V) :=
  (s.entries.values.map Entry.value).mergeSort (fun a b => a.index ≤ b.index)

/-- The names of the types that have a value, in the order of registration. -/
def names (s : Settings V) : List String := s.entries.values.map (·.type.name)

end Settings

end Wiring
