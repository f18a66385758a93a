/-
The types that are wired together:

* `TypeKey`: the identity of a type, by which everything is looked up;
* `TypeKey.eq_of_name_eq`: the name by itself tells the identity;
* `TypeRef`: an identity together with the name it is shown under;
* `TypeRef.of`: the identity under its own name.
-/

namespace Wiring

/-- The identity of a wired type: one of the numbered product types, or the
type that holds configuration values. -/
inductive TypeKey where
  /-- The product type with this number. -/
  | product (index : Nat)
  /-- The type of the holder of configuration values. -/
  | settings
  deriving DecidableEq, Repr, Inhabited

/-- The name a type has by itself. -/
def TypeKey.name : TypeKey → String
  | .product index => s!"app::T<{index}>"
  | .settings => "manufactory_config::provider::ConfigProvider"

/-- Different types have different names. -/
theorem TypeKey.eq_of_name_eq {t u : TypeKey} (h : t.name = u.name) : t = u := by
  have hproduct (index : Nat) : (TypeKey.product index).name.toList =
      "app::T<".toList ++ Nat.toDigits 10 index ++ ">".toList := by
    rw [← Nat.toList_repr, ← String.toList_append, ← String.toList_append]
    rfl
  have hne (index : Nat) : TypeKey.settings.name ≠ (TypeKey.product index).name := by
    intro h
    have hlist := congrArg String.toList h
    rw [hproduct] at hlist
    simp [name] at hlist
  cases t with
  | product i =>
    cases u with
    | product j =>
      have hlist := congrArg String.toList h
      rw [hproduct, hproduct, List.append_cancel_right_eq, List.append_cancel_left_eq] at hlist
      have hij := congrArg (Nat.ofDigitChars 10 · 0) hlist
      simp only [Nat.ofDigitChars_toDigits (b := 10) (by decide) (by decide)] at hij
      exact congrArg TypeKey.product hij
    | settings => exact absurd h.symm (hne i)
  | settings =>
    cases u with
    | product j => exact absurd h (hne j)
    | settings => rfl

/-- A type as somebody refers to it. Two references are equal if identity and
name are; lookups go by the identity alone. -/
structure TypeRef where
  /-- The name the type is shown under. -/
  name : String
  /-- The type that is meant. -/
  key : TypeKey
  deriving DecidableEq, Repr, Inhabited

/-- The reference to a type under its own name. -/
def TypeRef.of (key : TypeKey) : TypeRef := ⟨key.name, key⟩

@[simp] theorem TypeRef.key_of (key : TypeKey) : (TypeRef.of key).key = key := rfl

end Wiring
