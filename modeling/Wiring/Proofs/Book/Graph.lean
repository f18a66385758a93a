/-
The graph of declared dependencies between the recipes of a book.

* `Book.Keyed`: every recipe stands under the type it produces, and no type has two;
  `Book.keyed_of`: the book of a component is always like that;
* `Book.Keyed.recipe?_eq_some_iff`: looking a type up finds the recipe that is listed
  for it;
* `Book.Acyclic`, `Book.Complete`: a book without circles of dependencies, and one that
  has no gaps either;
* `Book.IsPath`: types each of which depends on the next one;
  `Book.Acyclic.nodup_of_isPath`: in a book without circles no path passes a type twice;
* `Book.length_le_size`: no list of different types with a recipe is longer than the book.
-/
import Mathlib.Data.List.Chain
import Mathlib.Data.List.Perm.Subperm
import Mathlib.Logic.Relation
import Wiring.Book

namespace Wiring

open Relation

variable {σ V : Type}

namespace Book

/-! ### Recipes by type -/

/-- No type is listed twice, and each recipe is listed under the type it produces. -/
structure Keyed (b : Book σ V) : Prop where
  nodup : b.byType.keys.Nodup
  key_eq : ∀ e ∈ b.byType.entries, e.2.key = e.1

/-- The book of a component is keyed. -/
lemma keyed_of (c : Component σ V) (requiredExports : List TypeRef) :
    (Book.of c requiredExports).Keyed := by
  refine List.foldlRecOn (motive := fun t => (⟨t, requiredExports⟩ : Book σ V).Keyed)
    c.recipes _ ⟨List.nodup_nil, fun e he => by cases he⟩ fun t ht r _ => ?_
  refine ⟨Table.nodup_keys_insert ht.nodup _ _, fun e he => ?_⟩
  rcases Table.mem_entries_insert he with rfl | he
  · rfl
  · exact ht.key_eq e he

/-- The recipes of the book of a component are among those of the component. -/
lemma mem_of_recipe?_of {c : Component σ V} {requiredExports : List TypeRef} {key : TypeKey}
    {r : Recipe σ V} (h : (Book.of c requiredExports).recipe? key = some r) :
    r ∈ c.recipes := by
  have hall : ∀ e ∈ (Book.of c requiredExports).byType.entries, e.2 ∈ c.recipes := by
    refine List.foldlRecOn (motive := fun (t : Table TypeKey (Recipe σ V)) =>
      ∀ e ∈ t.entries, e.2 ∈ c.recipes) c.recipes _ (fun e he => by cases he)
      fun t ht r hr e he => ?_
    rcases Table.mem_entries_insert he with rfl | he
    · exact hr
    · exact ht e he
  exact hall _ (Table.mem_entries_of_get? h)

variable {b : Book σ V}

/-- Looking a type up finds the recipe that is listed for it. -/
lemma Keyed.recipe?_eq_some_iff (hb : b.Keyed) {key : TypeKey} {r : Recipe σ V} :
    b.recipe? key = some r ↔ r ∈ b.recipes ∧ r.key = key := by
  constructor
  · intro h
    have hm := Table.mem_entries_of_get? h
    exact ⟨List.mem_map.2 ⟨_, hm, rfl⟩, hb.key_eq _ hm⟩
  · rintro ⟨hm, rfl⟩
    obtain ⟨e, he, rfl⟩ := List.mem_map.1 hm
    refine Table.get?_of_mem_entries hb.nodup ?_
    rw [hb.key_eq e he]
    exact he

/-- A recipe that is found produces the type that was looked up. -/
lemma Keyed.key_of_recipe? (hb : b.Keyed) {key : TypeKey} {r : Recipe σ V}
    (h : b.recipe? key = some r) : r.key = key :=
  (hb.recipe?_eq_some_iff.1 h).2

/-- A listed recipe is found under its type. -/
lemma Keyed.recipe?_of_mem (hb : b.Keyed) {r : Recipe σ V} (h : r ∈ b.recipes) :
    b.recipe? r.key = some r :=
  hb.recipe?_eq_some_iff.2 ⟨h, rfl⟩

/-- Looking up the types of recipes that are found finds these recipes. -/
lemma filterMap_recipe? {rs : List (Recipe σ V)} (h : ∀ r ∈ rs, b.recipe? r.key = some r) :
    (rs.map Recipe.key).filterMap b.recipe? = rs := by
  rw [List.filterMap_map]
  exact (List.filterMap_congr h).trans List.filterMap_some

/-- A type has a recipe exactly if one is found. -/
lemma produces_iff {key : TypeKey} : b.produces key ↔ ∃ r, b.recipe? key = some r :=
  Option.isSome_iff_exists

/-- A type has no recipe exactly if none is found. -/
lemma produces_eq_false_iff {key : TypeKey} :
    b.produces key = false ↔ b.recipe? key = none := by
  rw [produces, Option.isSome_eq_false_iff, Option.isNone_iff_eq_none]

/-- Different types with recipes are not more than the book lists. -/
lemma length_le_size {keys : List TypeKey} (hn : keys.Nodup)
    (hp : ∀ k ∈ keys, b.produces k) : keys.length ≤ b.size := by
  have hsub : keys ⊆ b.byType.keys := fun k hk =>
    (Table.get?_isSome_iff b.byType k).1 (hp k hk)
  have hle := (hn.subperm hsub).length_le
  rwa [Table.keys, List.length_map] at hle

/-! ### Dependencies -/

/-- A dependency that a found recipe declares on a type with a recipe is an edge. -/
lemma dependsOn_of_mem {t : TypeKey} {r q : Recipe σ V} {d : Dependency}
    (hr : b.recipe? t = some r) (hd : d ∈ r.dependencies)
    (hq : b.recipe? d.type.key = some q) : b.DependsOn t d.type.key :=
  ⟨produces_iff.2 ⟨q, hq⟩, r, hr, d, hd, rfl⟩

/-- No type depends on itself, directly or through others. -/
def Acyclic (b : Book σ V) : Prop := ∀ t, ¬ TransGen b.DependsOn t t

/-- Whatever has to be there is there, and nothing depends on itself. -/
structure Complete (b : Book σ V) : Prop where
  /-- The exports have recipes. -/
  exported : ∀ t ∈ b.requiredExports, b.produces t.key
  /-- The dependencies that may not be absent have recipes. -/
  supplied : ∀ r ∈ b.recipes, ∀ d ∈ r.dependencies, d.optional = false →
    b.produces d.type.key
  /-- There are no circles. -/
  acyclic : b.Acyclic

/-- Types each of which depends on the next one. -/
def IsPath (b : Book σ V) (keys : List TypeKey) : Prop := keys.IsChain b.DependsOn

/-- Along a path every type reaches every later one. -/
lemma IsPath.pairwise {keys : List TypeKey} (h : b.IsPath keys) :
    keys.Pairwise (TransGen b.DependsOn) :=
  (List.IsChain.imp (fun _ _ h => TransGen.single h) h).pairwise

/-- Without circles no path passes a type twice. -/
lemma Acyclic.nodup_of_isPath (hb : b.Acyclic) {keys : List TypeKey}
    (h : b.IsPath keys) : keys.Nodup :=
  h.pairwise.imp fun {t u} htu => by
    rintro rfl
    exact hb t htu

end Book

end Wiring
