/-
Components: named lists of recipes, at most one for each type.

* `Component.exports`: the types a component produces;
* `Component.imports`: the types it declares a dependency on and does not produce,
  each once;
* `mem_firstOfEachKey`, `nodup_firstOfEachKey`: keeping the first reference to each
  type loses no type and repeats none;
* `Conflicts.message`: the text of the report on a component that can not be built.
-/
import Wiring.Recipe

namespace Wiring

variable {σ V : Type}

/-- A named collection of recipes in the order of their registration. -/
structure Component (σ V : Type) where
  /-- The name of the component. -/
  name : String
  /-- The recipes. -/
  recipes : List (Recipe σ V)

/-- The first reference to each type in a list of references. -/
def firstOfEachKey : List TypeRef → List TypeRef
  | [] => []
  | t :: rest => t :: (firstOfEachKey rest).filter (·.key ≠ t.key)

/-- No type is lost. -/
theorem mem_firstOfEachKey {ts : List TypeRef} {key : TypeKey} :
    key ∈ (firstOfEachKey ts).map TypeRef.key ↔ key ∈ ts.map TypeRef.key := by
  induction ts with
  | nil => rfl
  | cons t rest ih =>
    by_cases h : key = t.key
    · simp [firstOfEachKey, h]
    · simp only [firstOfEachKey, List.map_cons, List.mem_cons, h, false_or, ← ih,
        List.mem_map, List.mem_filter, decide_eq_true_eq]
      constructor
      · rintro ⟨a, ⟨ha, -⟩, rfl⟩
        exact ⟨a, ha, rfl⟩
      · rintro ⟨a, ha, rfl⟩
        exact ⟨a, ⟨ha, h⟩, rfl⟩

/-- No type is repeated. -/
theorem nodup_firstOfEachKey (ts : List TypeRef) :
    ((firstOfEachKey ts).map TypeRef.key).Nodup := by
  induction ts with
  | nil => exact List.nodup_nil
  | cons t rest ih =>
    refine List.nodup_cons.2 ⟨?_, ?_⟩
    · simp
    · exact ih.sublist (List.filter_sublist.map _)

namespace Component

/-- The types a component produces, in the order of registration. -/
def exports (c : Component σ V) : List TypeRef := c.recipes.map Recipe.type

/-- Whether a component produces a type. -/
def produces (c : Component σ V) (key : TypeKey) : Bool := c.recipes.any (·.key = key)

/-- The types a component depends on without producing them, in the order and under
the name of their first declaration. -/
def imports (c : Component σ V) : List TypeRef :=
  firstOfEachKey
    (((c.recipes.flatMap Recipe.dependencies).map Dependency.type).filter
      fun type => !c.produces type.key)

end Component

/-! ### Conflicts -/

/-- What keeps a component from being built. -/
inductive Conflict where
  /-- A second recipe for the type was registered. -/
  | duplicate (type : TypeRef)
  deriving DecidableEq, Repr

/-- The type a conflict is about. -/
def Conflict.type : Conflict → TypeRef
  | .duplicate type => type

/-- The text of a conflict. -/
def Conflict.message : Conflict → String
  | .duplicate type =>
    "A Type has been registered twice: '" ++ type.name ++ "' - use an override to replace it"

/-- A headed list of messages, one a line. -/
def itemise (head : String) (messages : List String) : String :=
  "\n".intercalate (head :: messages.map ("- " ++ ·))

/-- The conflicts of the component `component`. -/
structure Conflicts where
  /-- The name of the component. -/
  component : String
  /-- The conflicts in the order in which they arose. -/
  conflicts : List Conflict
  deriving DecidableEq, Repr

/-- The text of the report on all conflicts. -/
def Conflicts.message (c : Conflicts) : String :=
  itemise ("Component '" ++ c.component ++ "' had one or more errors:")
    (c.conflicts.map Conflict.message)

end Wiring
