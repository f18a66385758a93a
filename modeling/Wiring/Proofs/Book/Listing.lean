/-
What the book of a component lists, if the component has one recipe for each type.

* `Book.recipes_of`: **just the recipes of the component, in their order**;
* `Book.recipe?_of_iff`, `Book.produces_of`: what is looked up in it, in terms of these recipes;
* `Component.Leads`, `Book.dependsOn_of`: its graph of dependencies;
* `Book.acyclic_of_congr`: components with the same recipes have the same circles;
* `Component.mem_imports_iff`: the types that a component depends on without producing them;
* `Component.unmet`, `Book.missing_of_perm`: those of them that may not be absent, which are
  **missing from the book besides exports**.
-/
import Wiring.Proofs.Survey.Lacks

namespace Wiring

open Relation

variable {σ V : Type}

namespace Table

variable {κ ν : Type} [DecidableEq κ]

/-- A new key is put at the end, with its value. -/
lemma put_of_not_mem {k : κ} (v : ν) {es : List (κ × ν)} (h : k ∉ es.map Prod.fst) :
    put k v es = es ++ [(k, v)] := by
  induction es with
  | nil => rfl
  | cons e rest ih =>
      rw [List.map_cons, List.mem_cons, not_or] at h
      rw [put, if_neg h.1, ih h.2, List.cons_append]

end Table

namespace Component

variable {c : Component σ V} {key : TypeKey}

/-- A type is produced exactly if one of the recipes is for it. -/
lemma produces_iff : c.produces key ↔ ∃ r ∈ c.recipes, r.key = key := by
  simp [produces]

/-- The imports are the types that some recipe depends on and none produces. -/
lemma mem_imports_iff :
    key ∈ c.imports.map TypeRef.key ↔
      c.produces key = false ∧ ∃ r ∈ c.recipes, ∃ d ∈ r.dependencies, d.type.key = key := by
  rw [imports, mem_firstOfEachKey]
  simp only [List.mem_map, List.mem_filter, List.mem_flatMap, Bool.not_eq_true']
  constructor
  · rintro ⟨t, ⟨⟨d, ⟨r, hr, hd⟩, rfl⟩, hp⟩, rfl⟩
    exact ⟨hp, r, hr, d, hd, rfl⟩
  · rintro ⟨hp, r, hr, d, hd, rfl⟩
    exact ⟨d.type, ⟨⟨d, ⟨r, hr, hd⟩, rfl⟩, hp⟩, rfl⟩

/-- The dependencies that the recipes declare among the types of the component. -/
def Leads (c : Component σ V) (t u : TypeKey) : Prop :=
  c.produces u ∧ ∃ r ∈ c.recipes, r.key = t ∧ ∃ d ∈ r.dependencies, d.type.key = u

lemma Leads.produces {t u : TypeKey} (h : c.Leads t u) : c.produces t := by
  obtain ⟨-, r, hr, rfl, -⟩ := h
  exact produces_iff.2 ⟨r, hr, rfl⟩

/-- What some dependencies need to have and the component does not produce, each as often as
it is declared. -/
def unmet (c : Component σ V) (ds : List Dependency) : List TypeRef :=
  (ds.filter fun d => !d.optional && !c.produces d.type.key).map Dependency.type

end Component

namespace Book

variable {c c' : Component σ V} {exports exports' : List TypeRef}

/-- **The book lists just the recipes of the component**, in their order. -/
theorem recipes_of (hn : (c.recipes.map Recipe.key).Nodup) :
    (Book.of c exports).recipes = c.recipes := by
  have hentries : ∀ rs : List (Recipe σ V), (rs.map Recipe.key).Nodup →
      (rs.foldl (fun t r => t.insert r.key r) Table.empty).entries =
        rs.map fun r => (r.key, r) := by
    intro rs
    induction rs using List.reverseRecOn with
    | nil => exact fun _ => rfl
    | append_singleton rs r ih =>
        intro hn
        rw [List.map_append, List.nodup_append] at hn
        obtain ⟨hfront, -, hnew⟩ := hn
        have hkey : r.key ∉ (rs.map fun r => (r.key, r)).map Prod.fst := by
          intro hmem
          rw [List.map_map] at hmem
          exact hnew r.key hmem r.key (List.mem_singleton_self _) rfl
        rw [List.foldl_append, List.foldl_cons, List.foldl_nil, Table.insert, ih hfront,
          Table.put_of_not_mem _ hkey, List.map_append, List.map_singleton]
  rw [recipes, Table.values, of, hentries c.recipes hn, List.map_map]
  exact List.map_id' c.recipes

/-- Looking a type up finds the recipe of the component for it. -/
lemma recipe?_of_iff (hn : (c.recipes.map Recipe.key).Nodup) {key : TypeKey}
    {r : Recipe σ V} :
    (Book.of c exports).recipe? key = some r ↔ r ∈ c.recipes ∧ r.key = key := by
  rw [(keyed_of c exports).recipe?_eq_some_iff, recipes_of hn]

/-- The types with a recipe are those that the component produces. -/
lemma produces_of (hn : (c.recipes.map Recipe.key).Nodup) (key : TypeKey) :
    (Book.of c exports).produces key = c.produces key := by
  rw [Bool.eq_iff_iff, produces_iff, Component.produces_iff]
  exact exists_congr fun r => recipe?_of_iff hn

/-- The dependencies between types with a recipe are those that the recipes declare. -/
lemma dependsOn_of (hn : (c.recipes.map Recipe.key).Nodup) :
    (Book.of c exports).DependsOn = c.Leads := by
  funext t u
  rw [eq_iff_iff, DependsOn, produces_of hn]
  refine and_congr_right fun _ => exists_congr fun r => ?_
  rw [recipe?_of_iff hn, and_assoc]

lemma acyclic_of_iff (hn : (c.recipes.map Recipe.key).Nodup) :
    (Book.of c exports).Acyclic ↔ ∀ t, ¬ TransGen c.Leads t t := by
  rw [Acyclic, dependsOn_of hn]

/-- **The missing types of the book of a component** are the exports without a recipe and what
the recipes need without there being one, in some order. -/
theorem missing_of_perm (hn : (c.recipes.map Recipe.key).Nodup) :
    (Book.of c exports).missing.Perm ((exports.filter fun t => !c.produces t.key) ++
      c.unmet (c.recipes.flatMap Recipe.dependencies)) := by
  have hperm := missing_perm (keyed_of c exports)
  rw [recipes_of hn, needs] at hperm
  simp only [produces_of hn] at hperm
  exact hperm

/-- Components with the same recipes have the same circles of dependencies. -/
lemma acyclic_of_congr (hn : (c.recipes.map Recipe.key).Nodup)
    (hn' : (c'.recipes.map Recipe.key).Nodup) (h : ∀ r, r ∈ c.recipes ↔ r ∈ c'.recipes) :
    (Book.of c exports).Acyclic ↔ (Book.of c' exports').Acyclic := by
  have hleads : c.Leads = c'.Leads := by
    funext t u
    simp only [Component.Leads, Component.produces_iff, h]
  rw [acyclic_of_iff hn, acyclic_of_iff hn', hleads]

end Book

end Wiring
