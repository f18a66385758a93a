/-
Component drafts, to which recipes are added until the component is built:

* `Draft.fate`: what becomes of a recipe that is inserted;
* `Draft.insert`, `Draft.merge`: the insertion of one recipe and of all recipes of
  a component, either adding to the draft or overriding what it has;
* `Draft.build`: the component, or all conflicts that arose;
* `Draft.ofSettings`: the draft of a component that serves configuration values;
* `Draft.Indexed`: the draft knows exactly the types it has, each at the place of
  its recipe; `Draft.indexed_insert`: insertions keep this.
-/
import Wiring.Component

namespace Wiring

variable {σ V : Type}

/-- What an inserted recipe is to do about another one for its type. -/
inductive Insertion where
  /-- Leave it, and report a conflict. -/
  | adding
  /-- Take its place. -/
  | overriding
  deriving DecidableEq, Repr

/-- A component in the making. -/
structure Draft (σ V : Type) where
  /-- The name of the component. -/
  name : String
  /-- The recipes in the order of registration. -/
  recipes : List (Recipe σ V)
  /-- The place of the recipe of each type. -/
  positions : Table TypeKey Nat
  /-- The conflicts so far. -/
  conflicts : List Conflict

/-- What becomes of an inserted recipe. -/
inductive Fate where
  /-- Its type is new, so it is appended. -/
  | appended
  /-- It takes the place of another recipe. -/
  | replaces (position : Nat)
  /-- It is the very recipe that is registered already. -/
  | known
  /-- It is in conflict with another recipe. -/
  | refused
  deriving DecidableEq, Repr

namespace Draft

/-- A draft without recipes. -/
def new (name : String) : Draft σ V := ⟨name, [], .empty, []⟩

/-- The name of a component that serves a holder of configuration values. -/
def settingsName : String := "config"

/-- Whether the recipe at a place is the very recipe `r`. -/
def holdsAt (d : Draft σ V) (position : Nat) (r : Recipe σ V) : Bool :=
  d.recipes[position]?.any (·.serial = r.serial)

/-- What becomes of `r` if it is inserted. -/
def fate (d : Draft σ V) (mode : Insertion) (r : Recipe σ V) : Fate :=
  match d.positions.get? r.key, mode with
  | none, _ => .appended
  | some position, .overriding => .replaces position
  | some position, .adding => if d.holdsAt position r then .known else .refused

/-- Inserts a recipe. -/
def insert (d : Draft σ V) (mode : Insertion) (r : Recipe σ V) : Draft σ V :=
  match d.fate mode r with
  | .appended =>
    { d with
      recipes := d.recipes ++ [r]
      positions := d.positions.insert r.key d.recipes.length }
  | .replaces position => { d with recipes := d.recipes.set position r }
  | .known => d
  | .refused => { d with conflicts := d.conflicts ++ [.duplicate r.type] }

/-- What is reported when a recipe is inserted. -/
def insertNotices (d : Draft σ V) (mode : Insertion) (r : Recipe σ V) : List Notice :=
  match d.fate mode r with
  | .appended => [.registers d.name r.type.name]
  | .replaces _ => [.overrides d.name r.type.name]
  | .known => []
  | .refused => [.secondRecipe d.name r.type.name]

/-- Inserts recipes one after the other. -/
def insertAll (d : Draft σ V) (mode : Insertion) (rs : List (Recipe σ V)) : Draft σ V :=
  rs.foldl (·.insert mode ·) d

/-- What is reported when recipes are inserted one after the other. -/
def insertAllNotices (mode : Insertion) : Draft σ V → List (Recipe σ V) → List Notice
  | _, [] => []
  | d, r :: rest => d.insertNotices mode r ++ insertAllNotices mode (d.insert mode r) rest

/-- Inserts all recipes of a component. -/
def merge (d : Draft σ V) (mode : Insertion) (c : Component σ V) : Draft σ V :=
  d.insertAll mode c.recipes

/-- The component, unless there are conflicts. -/
def build (d : Draft σ V) : Except Conflicts (Component σ V) :=
  if d.conflicts.isEmpty then .ok ⟨d.name, d.recipes⟩ else .error ⟨d.name, d.conflicts⟩

/-- What is reported when the component is built. -/
def buildNotices (d : Draft σ V) : List Notice :=
  if d.conflicts.isEmpty then [.built d.name d.recipes.length]
  else [.conflicted d.name d.conflicts.length]

/-- The draft of a component that serves a holder of configuration values and nothing
else. -/
def ofSettings (recipe : Nat) (origin : Origin) (held : Settings V) : Draft σ V :=
  (new settingsName).insert .adding (.ofValue recipe .settings origin held)

/-- What is reported when such a draft is made. -/
def ofSettingsNotices : List Notice := [.registers settingsName TypeKey.settings.name]

/-! ### The index of a draft -/

/-- The draft has places exactly for the types of its recipes, and the place of a
type is that of its only recipe. -/
def Indexed (d : Draft σ V) : Prop :=
  ∀ key position, d.positions.get? key = some position ↔
    ∃ r, d.recipes[position]? = some r ∧ r.key = key

/-- A new draft is indexed. -/
theorem indexed_new (name : String) : (new name : Draft σ V).Indexed := by
  intro key position
  simp [new]

/-- Insertions keep a draft indexed. -/
theorem indexed_insert {d : Draft σ V} (h : d.Indexed) (mode : Insertion)
    (r : Recipe σ V) : (d.insert mode r).Indexed := by
  have appended (hr : d.positions.get? r.key = none) :
      Indexed { d with
        recipes := d.recipes ++ [r]
        positions := d.positions.insert r.key d.recipes.length } := by
    intro key position
    rw [Table.get?_insert]
    by_cases hk : key = r.key
    · subst hk
      have none_at (q : Recipe σ V) (hq : d.recipes[position]? = some q) : q.key ≠ r.key :=
        fun hqr => by simp [(h r.key position).2 ⟨q, hq, hqr⟩] at hr
      simp only [if_pos, Option.some.injEq, List.getElem?_append]
      split
      · rename_i hlt
        constructor
        · intro he; omega
        · rintro ⟨q, hq, hqr⟩; exact absurd hqr (none_at q hq)
      · rename_i hge
        constructor
        · rintro rfl; exact ⟨r, by simp⟩
        · rintro ⟨q, hq, -⟩
          have : position - d.recipes.length < 1 := by
            simpa using (List.getElem?_eq_some_iff.1 hq).1
          omega
    · simp only [hk, if_false, h key position, List.getElem?_append]
      split
      · exact Iff.rfl
      · rename_i hge
        constructor
        · rintro ⟨q, hq, -⟩
          exact absurd (List.getElem?_eq_some_iff.1 hq).1 hge
        · rintro ⟨q, hq, hqk⟩
          have hq' : position - d.recipes.length = 0 ∧ r = q := by
            rcases hp : position - d.recipes.length with _ | n
            · simpa [hp] using hq
            · simp [hp] at hq
          exact absurd (hqk.symm.trans (congrArg Recipe.key hq'.2.symm)) hk
  have replaced {place : Nat} (hr : d.positions.get? r.key = some place) :
      Indexed { d with recipes := d.recipes.set place r } := by
    obtain ⟨old, hold, hkey⟩ := (h _ _).1 hr
    have hlt := (List.getElem?_eq_some_iff.1 hold).1
    intro key position
    simp only [h key position, List.getElem?_set]
    by_cases hp : place = position
    · subst hp
      simp only [if_pos, hlt, hold, Option.some.injEq, exists_eq_left', hkey]
    · simp only [hp, if_false]
  unfold insert fate
  split
  · rename_i hf
    split at hf
    · exact appended ‹_›
    · cases hf
    · split at hf <;> cases hf
  · rename_i hf
    split at hf
    · cases hf
    · cases hf; exact replaced ‹_›
    · split at hf <;> cases hf
  · exact h
  · exact h

end Draft

end Wiring
