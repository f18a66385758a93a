/-
Components that are built, and what becomes of them when they are merged.

* `enlisted`: the recipes that stand after some insertions, in the order of the first
  insertions of their types; `Draft.build_accumulate`: a component that is built has just
  these recipes;
* `Component.Built`: components that can come about; `Component.Built.nodup`: they have one
  recipe for each type;
* `Component.Agree`: components that have the very same recipe wherever they have one for the
  same type; `Component.exists_build_merged`: **such components can be merged in any order,
  and together they have the recipes that each of them has**.
-/
import Wiring.Proofs.Component.Accumulation

namespace Wiring

variable {σ V : Type}

/-! ### What stands after some insertions -/

/-- The recipes that stand after some insertions, in the order of the first insertions of
their types. -/
def enlisted (entries : List (Inserted σ V)) : List (Recipe σ V) :=
  (entries.map fun e => e.2.key).eraseDups.filterMap (standing · entries)

variable {entries : List (Inserted σ V)}

/-- What stands for a type was inserted for it. -/
lemma mem_of_standing {key : TypeKey} {r : Recipe σ V} (h : standing key entries = some r) :
    r.key = key ∧ ∃ e ∈ entries, e.2 = r := by
  rw [standing] at h
  split at h
  · cases h
  · rename_i first later hfilter
    obtain rfl := Option.some.inj h
    have hmem : (later.filter fun e => e.1 = .overriding).getLast?.getD first ∈
        entries.filter fun e => e.2.key = key := by
      rw [hfilter]
      cases hlast : (later.filter fun e => e.1 = .overriding).getLast? with
      | none => exact List.mem_cons_self ..
      | some e =>
          have he := (List.mem_filter.1 (List.mem_of_getLast? hlast)).1
          exact List.mem_cons_of_mem first he
    obtain ⟨hentry, hkey⟩ := List.mem_filter.1 hmem
    exact ⟨by simpa using hkey, _, hentry, rfl⟩

namespace Draft

variable {d : Draft σ V}

/-- A draft lists what stands after the insertions that make it. -/
lemma Holds.recipes_eq (h : d.Holds entries) : d.recipes = enlisted entries := by
  have hself : d.recipes.filterMap (fun r => standing r.key entries) =
      d.recipes.filterMap some :=
    List.filterMap_congr h.stands
  rw [enlisted, ← h.keys, List.filterMap_map]
  exact (hself.trans List.filterMap_some).symm

/-- A component is built from what stands, unless the insertions clash. -/
lemma Holds.build_eq (h : d.Holds entries) :
    d.build = if clashes entries = [] then .ok ⟨d.name, enlisted entries⟩
      else .error ⟨d.name, clashes entries⟩ := by
  rw [build, h.conflicts, h.recipes_eq]
  simp only [List.isEmpty_iff]

lemma holds_accumulate (name : String) (additions : List (Addition σ V)) :
    (accumulate name additions).Holds (additions.flatMap Addition.entries) := by
  rw [accumulate_eq]
  exact (holds_new name).insertEach _

lemma name_accumulate (name : String) (additions : List (Addition σ V)) :
    (accumulate name additions).name = name := by
  rw [accumulate_eq, name_insertEach]
  rfl

lemma build_accumulate (name : String) (additions : List (Addition σ V)) :
    (accumulate name additions).build =
      if clashes (additions.flatMap Addition.entries) = [] then
        .ok ⟨name, enlisted (additions.flatMap Addition.entries)⟩
      else .error ⟨name, clashes (additions.flatMap Addition.entries)⟩ := by
  rw [(holds_accumulate name additions).build_eq, name_accumulate]

end Draft

/-- The types of what stands are those that were inserted, each once. -/
lemma keys_enlisted (entries : List (Inserted σ V)) :
    (enlisted entries).map Recipe.key = (entries.map fun e => e.2.key).eraseDups := by
  have hholds := (Draft.holds_new (σ := σ) (V := V) "").insertEach entries
  rw [List.nil_append] at hholds
  rw [← hholds.recipes_eq, hholds.keys]

lemma nodup_enlisted (entries : List (Inserted σ V)) :
    ((enlisted entries).map Recipe.key).Nodup := by
  rw [keys_enlisted]
  exact nodup_eraseDups _

/-- Just the recipes are listed that stand for their types. -/
lemma mem_enlisted {r : Recipe σ V} : r ∈ enlisted entries ↔ standing r.key entries = some r := by
  rw [enlisted, List.mem_filterMap]
  constructor
  · rintro ⟨key, -, hstanding⟩
    rwa [(mem_of_standing hstanding).1]
  · intro hstanding
    obtain ⟨-, e, he, rfl⟩ := mem_of_standing hstanding
    exact ⟨e.2.key, List.mem_eraseDups.2 (List.mem_map_of_mem he), hstanding⟩

/-- There is one recipe at most for each type among what is inserted. -/
def Uniform (entries : List (Inserted σ V)) : Prop :=
  ∀ e ∈ entries, ∀ e' ∈ entries, e.2.key = e'.2.key → e.2 = e'.2

/-- What is inserted stands, if nothing else is inserted for its type. -/
lemma Uniform.standing_eq (h : Uniform entries) {e : Inserted σ V} (he : e ∈ entries) :
    standing e.2.key entries = some e.2 := by
  cases hstanding : standing e.2.key entries with
  | none => exact absurd (List.mem_map_of_mem he) (standing_eq_none_iff.1 hstanding)
  | some r =>
      obtain ⟨hkey, e', he', rfl⟩ := mem_of_standing hstanding
      rw [h e' he' e he hkey]

lemma Uniform.mem_enlisted_iff (h : Uniform entries) {r : Recipe σ V} :
    r ∈ enlisted entries ↔ ∃ e ∈ entries, e.2 = r := by
  rw [mem_enlisted]
  constructor
  · exact fun hstanding => (mem_of_standing hstanding).2
  · rintro ⟨e, he, rfl⟩
    exact h.standing_eq he

/-- A recipe does not clash with itself. -/
lemma Uniform.clashes_eq_nil (h : Uniform entries) : clashes entries = [] := by
  refine List.filterMap_eq_nil_iff.2 fun ⟨⟨mode, r⟩, place⟩ hmem => ?_
  obtain ⟨hlt, hentry⟩ := List.mem_zipIdx' hmem
  have he : (mode, r) ∈ entries := hentry ▸ List.getElem_mem hlt
  cases mode with
  | overriding => rfl
  | adding =>
      -- what stands before is the same recipe, if anything does
      cases hstanding : standing r.key (entries.take place) with
      | none => simp [clash?, hstanding]
      | some q =>
          obtain ⟨hkey, e, hbefore, rfl⟩ := mem_of_standing hstanding
          have hsame := h e (List.mem_of_mem_take hbefore) _ he hkey
          simp [clash?, hstanding, hsame]

/-! ### Components -/

namespace Component

/-- The component was built from a draft to which recipes and components were added. -/
def Built (c : Component σ V) : Prop :=
  ∃ name additions, (Draft.accumulate name additions).build = .ok c

variable {c : Component σ V}

/-- A component that was built has one recipe for each type. -/
lemma Built.nodup (h : c.Built) : (c.recipes.map Recipe.key).Nodup := by
  obtain ⟨name, additions, hbuild⟩ := h
  rw [Draft.build_accumulate] at hbuild
  split at hbuild
  · obtain rfl := Except.ok.inj hbuild
    exact nodup_enlisted _
  · cases hbuild

/-- Wherever two of the components have a recipe for the same type, it is the very same. -/
def Agree (cs : List (Component σ V)) : Prop :=
  ∀ c ∈ cs, ∀ c' ∈ cs, ∀ r ∈ c.recipes, ∀ r' ∈ c'.recipes, r.key = r'.key → r = r'

lemma Agree.subset {cs cs' : List (Component σ V)} (h : Agree cs) (hs : cs' ⊆ cs) : Agree cs' :=
  fun c hc c' hc' => h c (hs hc) c' (hs hc')

/-- The draft of the name `name` to which components are added in turn. -/
def merged (name : String) (cs : List (Component σ V)) : Draft σ V :=
  Draft.accumulate name (cs.map (.component .adding))

/-- **Components that agree can be merged in any order.** Together they have the recipes that
each of them has, one for each type. -/
theorem exists_build_merged {cs : List (Component σ V)} (h : Agree cs) (name : String) :
    ∃ c, (merged name cs).build = .ok c ∧ (c.recipes.map Recipe.key).Nodup ∧
      ∀ r, r ∈ c.recipes ↔ ∃ x ∈ cs, r ∈ x.recipes := by
  have hmem : ∀ e, e ∈ (cs.map (Addition.component .adding)).flatMap Addition.entries →
      ∃ x ∈ cs, e.2 ∈ x.recipes := by
    intro e he
    simp only [List.flatMap_map, Addition.entries, List.mem_flatMap, List.mem_map] at he
    obtain ⟨x, hx, r, hr, rfl⟩ := he
    exact ⟨x, hx, hr⟩
  have huniform : Uniform ((cs.map (Addition.component .adding)).flatMap Addition.entries) := by
    intro e he e' he' hkey
    obtain ⟨x, hx, hr⟩ := hmem e he
    obtain ⟨x', hx', hr'⟩ := hmem e' he'
    exact h x hx x' hx' _ hr _ hr' hkey
  refine ⟨⟨name, enlisted ((cs.map (Addition.component .adding)).flatMap Addition.entries)⟩,
    ?_, nodup_enlisted _, fun r => ?_⟩
  · rw [merged, Draft.build_accumulate, if_pos huniform.clashes_eq_nil]
  · rw [huniform.mem_enlisted_iff]
    constructor
    · rintro ⟨e, he, rfl⟩
      exact hmem e he
    · rintro ⟨x, hx, hr⟩
      refine ⟨(.adding, r), ?_, rfl⟩
      simp only [List.flatMap_map, Addition.entries, List.mem_flatMap, List.mem_map]
      exact ⟨x, hx, r, hr, rfl⟩

end Component

end Wiring
