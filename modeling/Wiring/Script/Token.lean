/-
The spelling of types and parameters in scripts.

* `TypeKey.token`, `TypeKey.ofToken?`: `T0` to `T63` for product types, `P` for the
  holder of configuration values;
* `TypeRef.read?`: a token, and after `=` the name to show;
* `Parameter.read?`: a token, or `cfg` and a number for a configuration value, then up
  to three `?` for optional layers, and after `=` the declared name.
-/
import Wiring.Parameter

namespace Wiring

/-- The largest number of a product type that scripts may use. -/
def maxProduct : Nat := 63

/-- The spelling of a type. -/
def TypeKey.token : TypeKey → String
  | .product index => "T" ++ toString index
  | .settings => "P"

/-- The number a text of decimal digits without leading zeros stands for. -/
def decimal? (digits : List Char) : Option Nat :=
  (List.range (maxProduct + 1)).find? fun n => Nat.toDigits 10 n = digits

/-- The type a token stands for. -/
def TypeKey.ofToken? (token : String) : Option TypeKey :=
  match token.toList with
  | ['P'] => some .settings
  | 'T' :: digits => (decimal? digits).map .product
  | _ => none

/-- The product type a token stands for. -/
def productOfToken? (token : String) : Option Nat :=
  match TypeKey.ofToken? token with
  | some (.product index) => some index
  | _ => none

/-- A text up to the first `=`, and what follows that. -/
def splitName (text : String) : String × Option String :=
  let cs := text.toList
  (String.ofList (cs.takeWhile (· ≠ '=')),
    match cs.dropWhile (· ≠ '=') with
    | [] => none
    | _ :: name => some (String.ofList name))

/-- The type reference a text stands for. -/
def TypeRef.read? (text : String) : Option TypeRef :=
  let (token, name) := splitName text
  (TypeKey.ofToken? token).map fun key => ⟨name.getD key.name, key⟩

/-- The need a text without `?` stands for. -/
def Need.ofToken? (token : String) : Option Need :=
  match token.toList with
  | 'c' :: 'f' :: 'g' :: digits => (decimal? digits).map .setting
  | _ => (TypeKey.ofToken? token).map .shared

/-- The most optional layers a parameter may have. -/
def maxLayers : Nat := 3

/-- The parameter a text stands for. -/
def Parameter.read? (text : String) : Option Parameter :=
  let (spelling, name) := splitName text
  let marks := (spelling.toList.reverse.takeWhile (· = '?')).length
  let base := String.ofList (spelling.toList.take (spelling.length - marks))
  if marks ≤ maxLayers then
    (Need.ofToken? base).map fun need => ⟨need.nested marks, name⟩
  else none

end Wiring
