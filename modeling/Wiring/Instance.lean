/-
Products with their type erased, as recipes hold and hand them out:

* `Value.key`: the type a value really has;
* `TypeKey.Payload`, `Value.of`, `Value.payload`: the values of one type, and the way
  to values of any type and back;
* `Instance.downcast`: a handle of a type, refused if the value is of another;
* `Argument`: what a parameter receives.
-/
import Wiring.Settings

namespace Wiring

variable {V : Type}

/-- A value of one of the wired types. -/
inductive Value (V : Type) where
  /-- A product of the product type with this number. -/
  | product (index : Nat) (content : V)
  /-- A holder of configuration values. -/
  | settings (held : Settings V)
  deriving DecidableEq, Repr

/-- The type a value has. -/
def Value.key : Value V → TypeKey
  | .product index _ => .product index
  | .settings _ => .settings

/-- The values of one type. -/
def TypeKey.Payload (V : Type) : TypeKey → Type
  | .product _ => V
  | .settings => Settings V

/-- A value of a known type as a value of some type. -/
def Value.of : (key : TypeKey) → key.Payload V → Value V
  | .product index, content => .product index content
  | .settings, held => .settings held

@[simp] theorem Value.key_of (key : TypeKey) (payload : key.Payload V) :
    (Value.of key payload).key = key := by
  cases key <;> rfl

/-- A value as one of the type it has. -/
def Value.payload : (v : Value V) → v.key.Payload V
  | .product _ content => content
  | .settings held => held

@[simp] theorem Value.of_payload (v : Value V) : Value.of v.key v.payload = v := by
  cases v <;> rfl

/-- A shared value whose type is known only at run time. -/
structure Instance (V : Type) where
  /-- The type it was made as. -/
  type : TypeRef
  /-- Which shared value this is. -/
  origin : Origin
  /-- The value itself. -/
  value : Value V
  deriving DecidableEq, Repr

namespace Instance

/-- A new shared value of a known type. -/
def new (key : TypeKey) (origin : Origin) (payload : key.Payload V) : Instance V :=
  ⟨.of key, origin, .of key payload⟩

/-- The configuration value as a shared value. -/
def ofSetting (s : Setting V) : Instance V :=
  ⟨.of (.product s.index), s.origin, .product s.index s.content⟩

/-- The same handle as one of the type `key`; the name of the actual type if the
value is of another. -/
def downcast (i : Instance V) (key : TypeKey) : Except String (Instance V) :=
  if i.value.key = key then .ok i else .error i.type.name

/-- Whether two handles are handles of one shared value. -/
def same (i j : Instance V) : Bool := i.origin = j.origin

end Instance

/-- What a factory receives for a parameter. -/
inductive Argument (V : Type) where
  /-- A shared product. -/
  | shared (product : Instance V)
  /-- A configuration value. -/
  | setting (value : Setting V)
  /-- An optional layer without anything in it. -/
  | absent
  /-- An optional layer around an argument. -/
  | present (inner : Argument V)
  deriving DecidableEq, Repr

/-- An optional layer around what there is. -/
def Argument.ofOption : Option (Argument V) → Argument V
  | none => .absent
  | some inner => .present inner

end Wiring
