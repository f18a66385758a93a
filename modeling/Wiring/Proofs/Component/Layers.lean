/-
Components that are layered on others.

* `Component.Layered`: a base that produces nothing the upper component does, and depends on
  nothing the upper component produces;
* `Component.Layered.acyclic_iff`: **no circle passes through both layers**, since whatever
  leads into the base stays there;
* `Component.Layered.missing_perm`: what is missing from both layers together;
* `Component.Layered.merge`: **the check of the merged component finds a circle exactly if one
  of the layers has one, and misses what the base misses and what the upper component misses
  and the base does not produce**.
-/
import Wiring.Proofs.Book.Listing
import Wiring.Proofs.Component.Merging

namespace Wiring

open Relation

variable {σ V : Type}

namespace Component

/-- The components produce different types, and the base declares no dependency on a type of
the upper component, optional or not. -/
structure Layered (base upper : Component σ V) : Prop where
  disjoint : ∀ key, base.produces key → upper.produces key = false
  grounded : ∀ r ∈ base.recipes, ∀ d ∈ r.dependencies, upper.produces d.type.key = false

variable {base upper c : Component σ V} {exports : List TypeRef}

lemma Layered.not_both (h : Layered base upper) {key : TypeKey} (hbase : base.produces key) :
    ¬ upper.produces key := by
  rw [h.disjoint key hbase]
  exact Bool.false_ne_true

lemma Layered.key_ne (h : Layered base upper) {r r' : Recipe σ V} (hr : r ∈ base.recipes)
    (hr' : r' ∈ upper.recipes) : r.key ≠ r'.key := fun hkey =>
  h.not_both (produces_iff.2 ⟨r, hr, rfl⟩) (produces_iff.2 ⟨r', hr', hkey.symm⟩)

/-- Layers can be merged, since no type has recipes in both. -/
lemma Layered.agree (h : Layered base upper) (hbase : base.Built) (hupper : upper.Built) :
    Agree [base, upper] := by
  have hown {x : Component σ V} (hx : x.Built) {r r' : Recipe σ V} (hr : r ∈ x.recipes)
      (hr' : r' ∈ x.recipes) (hkey : r.key = r'.key) : r = r' :=
    List.inj_on_of_nodup_map hx.nodup hr hr' hkey
  intro x hx x' hx' r hr r' hr' hkey
  simp only [List.mem_cons, List.not_mem_nil, or_false] at hx hx'
  rcases hx with rfl | rfl <;> rcases hx' with rfl | rfl
  · exact hown hbase hr hr' hkey
  · exact absurd hkey (h.key_ne hr hr')
  · exact absurd hkey.symm (h.key_ne hr' hr)
  · exact hown hupper hr hr' hkey

/-- The component has the recipes of both layers, and one recipe for each type. -/
structure Joins (base upper c : Component σ V) : Prop where
  nodup : (c.recipes.map Recipe.key).Nodup
  mem_iff : ∀ r, r ∈ c.recipes ↔ r ∈ base.recipes ∨ r ∈ upper.recipes

section Joins

variable (hc : Joins base upper c)

include hc

lemma Joins.produces_eq (key : TypeKey) :
    c.produces key = (base.produces key || upper.produces key) := by
  rw [Bool.eq_iff_iff, Bool.or_eq_true, produces_iff, produces_iff, produces_iff]
  simp only [hc.mem_iff, or_and_right, exists_or]

/-! ### Circles -/

lemma Joins.leads_base {t u : TypeKey} (hl : base.Leads t u) : c.Leads t u := by
  obtain ⟨hu, r, hr, hd⟩ := hl
  refine ⟨?_, r, (hc.mem_iff r).2 (.inl hr), hd⟩
  rw [hc.produces_eq, hu, Bool.true_or]

lemma Joins.leads_upper {t u : TypeKey} (hl : upper.Leads t u) : c.Leads t u := by
  obtain ⟨hu, r, hr, hd⟩ := hl
  refine ⟨?_, r, (hc.mem_iff r).2 (.inr hr), hd⟩
  rw [hc.produces_eq, hu, Bool.or_true]

/-- A dependency of the merged component is one of the base or one of the upper component, or
it leads from the upper component down to the base. -/
lemma Layered.leads_cases (h : Layered base upper) {t u : TypeKey} (hl : c.Leads t u) :
    base.Leads t u ∨ upper.Leads t u ∨ (upper.produces t ∧ base.produces u) := by
  obtain ⟨hu, r, hr, rfl, d, hd, rfl⟩ := hl
  rw [hc.produces_eq, Bool.or_eq_true] at hu
  rcases (hc.mem_iff r).1 hr with hr | hr
  · rw [h.grounded r hr d hd] at hu
    exact .inl ⟨hu.resolve_right Bool.false_ne_true, r, hr, rfl, d, hd, rfl⟩
  · rcases hu with hu | hu
    · exact .inr (.inr ⟨produces_iff.2 ⟨r, hr, rfl⟩, hu⟩)
    · exact .inr (.inl ⟨hu, r, hr, rfl, d, hd, rfl⟩)

/-- Whatever leads on from the base stays there. -/
lemma Layered.transGen_base (h : Layered base upper) {t u : TypeKey} (ht : base.produces t)
    (hl : TransGen c.Leads t u) : TransGen base.Leads t u := by
  induction hl using TransGen.head_induction_on with
  | single hstep =>
      rcases h.leads_cases hc hstep with hbase | hupper | ⟨hupper, -⟩
      · exact .single hbase
      · exact absurd hupper.produces (h.not_both ht)
      · exact absurd hupper (h.not_both ht)
  | head hstep _ ih =>
      rcases h.leads_cases hc hstep with hbase | hupper | ⟨hupper, -⟩
      · exact .head hbase (ih hbase.1)
      · exact absurd hupper.produces (h.not_both ht)
      · exact absurd hupper (h.not_both ht)

/-- Whatever leads to the upper component has never left it. -/
lemma Layered.transGen_upper (h : Layered base upper) {t u : TypeKey} (hu : upper.produces u)
    (hl : TransGen c.Leads t u) : TransGen upper.Leads t u := by
  induction hl with
  | single hstep =>
      rcases h.leads_cases hc hstep with hbase | hupper | ⟨-, hbase⟩
      · exact absurd hu (h.not_both hbase.1)
      · exact .single hupper
      · exact absurd hu (h.not_both hbase)
  | tail _ hstep ih =>
      rcases h.leads_cases hc hstep with hbase | hupper | ⟨-, hbase⟩
      · exact absurd hu (h.not_both hbase.1)
      · exact .tail (ih hupper.produces) hupper
      · exact absurd hu (h.not_both hbase)

/-- **No circle passes through both layers.** -/
theorem Layered.acyclic_iff (h : Layered base upper) (hbase : base.Built)
    (hupper : upper.Built) :
    (Book.of c exports).Acyclic ↔
      (Book.of base exports).Acyclic ∧ (Book.of upper exports).Acyclic := by
  rw [Book.acyclic_of_iff hc.nodup, Book.acyclic_of_iff hbase.nodup,
    Book.acyclic_of_iff hupper.nodup]
  constructor
  · intro hall
    exact ⟨fun t ht => hall t (TransGen.mono (fun _ _ => hc.leads_base) _ _ ht),
      fun t ht => hall t (TransGen.mono (fun _ _ => hc.leads_upper) _ _ ht)⟩
  · rintro ⟨hallBase, hallUpper⟩ t ht
    obtain ⟨u, -, hlast⟩ := TransGen.tail'_iff.1 ht
    have hend := hlast.1
    rw [hc.produces_eq, Bool.or_eq_true] at hend
    rcases hend with hend | hend
    · exact hallBase t (h.transGen_base hc hend ht)
    · exact hallUpper t (h.transGen_upper hc hend ht)

/-! ### Missing types -/

lemma Layered.recipes_perm (h : Layered base upper) (hbase : base.Built)
    (hupper : upper.Built) : c.recipes.Perm (base.recipes ++ upper.recipes) := by
  refine (List.perm_ext_iff_of_nodup (hc.nodup.of_map _) ?_).2 fun r => ?_
  · rw [List.nodup_append]
    exact ⟨hbase.nodup.of_map _, hupper.nodup.of_map _,
      fun r hr r' hr' heq => h.key_ne hr hr' (heq ▸ rfl)⟩
  · rw [hc.mem_iff, List.mem_append]

/-- The base misses in the merged component what it misses on its own, as the upper component
produces nothing that it depends on. -/
lemma Layered.unmet_base (h : Layered base upper) :
    c.unmet (base.recipes.flatMap Recipe.dependencies) =
      base.unmet (base.recipes.flatMap Recipe.dependencies) := by
  rw [unmet, unmet]
  refine congrArg _ (List.filter_congr fun d hd => ?_)
  obtain ⟨r, hr, hd⟩ := List.mem_flatMap.1 hd
  rw [hc.produces_eq, h.grounded r hr d hd, Bool.or_false]

/-- The upper component does not miss any more what the base produces. -/
lemma Joins.unmet_upper (ds : List Dependency) :
    c.unmet ds = (upper.unmet ds).filter fun t => !base.produces t.key := by
  rw [unmet, unmet, List.filter_map, List.filter_filter]
  refine congrArg _ (List.filter_congr fun d _ => ?_)
  rw [hc.produces_eq, Bool.not_or, Function.comp_apply, Bool.and_left_comm]

/-- **What both layers miss together** is what the base misses, and what the upper component
misses and the base does not produce. -/
theorem Layered.missing_perm (h : Layered base upper) (hbase : base.Built)
    (hupper : upper.Built) :
    (Book.of c []).missing.Perm ((Book.of base []).missing ++
      (Book.of upper []).missing.filter fun t => !base.produces t.key) := by
  have hown {x : Component σ V} (hx : (x.recipes.map Recipe.key).Nodup) :
      (Book.of x []).missing.Perm (x.unmet (x.recipes.flatMap Recipe.dependencies)) :=
    Book.missing_of_perm hx
  have hsplit : (c.unmet (c.recipes.flatMap Recipe.dependencies)).Perm
      (c.unmet (base.recipes.flatMap Recipe.dependencies) ++
        c.unmet (upper.recipes.flatMap Recipe.dependencies)) := by
    have hdependencies := (h.recipes_perm hc hbase hupper).flatMap_right Recipe.dependencies
    rw [List.flatMap_append] at hdependencies
    rw [unmet, unmet, unmet, ← List.map_append, ← List.filter_append]
    exact (hdependencies.filter _).map _
  rw [h.unmet_base hc, hc.unmet_upper (upper.recipes.flatMap Recipe.dependencies)] at hsplit
  exact ((hown hc.nodup).trans hsplit).trans
    ((hown hbase.nodup).symm.append ((hown hupper.nodup).symm.filter _))

end Joins

/-! ### The merged component -/

/-- **A component layered on a base adds no circles through the base.** Merged in either
order the two build a component whose check, if nothing has to be produced, finds a circle
exactly if that of one of the two does, and misses what the base misses and what the upper
component misses and the base does not produce. So if the base is complete, the upper
component has no circles, and the base produces whatever the upper component imports and may
not do without, then the merged component is complete. -/
theorem Layered.merge (h : Layered base upper) (hbase : base.Built) (hupper : upper.Built)
    {cs : List (Component σ V)} (hcs : cs.Perm [base, upper]) (name : String) :
    ∃ c, (merged name cs).build = .ok c ∧
      ((Book.of c []).hasCircle ↔
        (Book.of base []).hasCircle ∨ (Book.of upper []).hasCircle) ∧
      (Book.of c []).missing.Perm ((Book.of base []).missing ++
        (Book.of upper []).missing.filter fun t => !base.produces t.key) ∧
      ((Book.of base []).check = .ok () → (Book.of upper []).hasCircle = false →
        (∀ r ∈ upper.recipes, ∀ d ∈ r.dependencies, d.optional = false →
          d.type.key ∈ upper.imports.map TypeRef.key → base.produces d.type.key) →
        (Book.of c []).check = .ok ()) := by
  obtain ⟨c, hbuild, hn, hmem⟩ :=
    exists_build_merged ((h.agree hbase hupper).subset hcs.subset) name
  have hc : Joins base upper c := ⟨hn, fun r => by simp [hmem, hcs.mem_iff]⟩
  have hcircle : (Book.of c []).hasCircle ↔
      (Book.of base []).hasCircle ∨ (Book.of upper []).hasCircle := by
    rw [Book.hasCircle_iff (Book.keyed_of _ _), Book.hasCircle_iff (Book.keyed_of _ _),
      Book.hasCircle_iff (Book.keyed_of _ _), h.acyclic_iff hc hbase hupper, not_and_or]
  have hmissing := h.missing_perm hc hbase hupper
  refine ⟨c, hbuild, hcircle, hmissing, fun hcheck hplain himports => ?_⟩
  obtain ⟨hbaseCircle, hbaseMissing⟩ := Book.check_eq_ok_iff_missing.1 hcheck
  refine Book.check_eq_ok_iff_missing.2 ⟨?_, ?_⟩
  · rw [← Bool.not_eq_true, hcircle, hbaseCircle, hplain]
    simp
  · rw [hbaseMissing, List.nil_append] at hmissing
    refine List.Perm.eq_nil (hmissing.trans (.of_eq (List.filter_eq_nil_iff.2 fun t ht => ?_)))
    -- what the upper component misses is among its imports
    have hunmet : t ∈ upper.unmet (upper.recipes.flatMap Recipe.dependencies) :=
      (Book.missing_of_perm hupper.nodup).subset ht
    obtain ⟨d, hd, rfl⟩ := List.mem_map.1 hunmet
    obtain ⟨hd, hneeded⟩ := List.mem_filter.1 hd
    obtain ⟨r, hr, hd⟩ := List.mem_flatMap.1 hd
    simp only [Bool.and_eq_true, Bool.not_eq_true'] at hneeded
    have himport := mem_imports_iff.2 ⟨hneeded.2, r, hr, d, hd, rfl⟩
    simp [himports r hr d hd hneeded.1 himport]

/-- Two recipes, one of which needs the other. -/
def ground : Component Unit Unit := ⟨"ground",
  [.ofFactory 0 .transient (.product 0) [⟨.shared (.product 1), none⟩]
      fun _ world => (⟨.made (), []⟩, world),
    .ofFactory 1 .retained (.product 1) [] fun _ world => (⟨.made (), []⟩, world)]⟩

/-- A recipe that needs one of these two and may do without another type. -/
def roof : Component Unit Unit := ⟨"roof",
  [.ofFactory 2 .retained (.product 2)
      [⟨.shared (.product 0), none⟩, ⟨.optional (.shared (.product 3)), none⟩]
      fun _ world => (⟨.made (), []⟩, world)]⟩

lemma layered_roof : Layered ground roof := by
  have hkeys : ∀ key ∈ ground.recipes.map Recipe.key, roof.produces key = false := by decide
  have hneeds : ∀ d ∈ ground.recipes.flatMap Recipe.dependencies,
      roof.produces d.type.key = false := by decide
  refine ⟨fun key hkey => ?_, fun r hr d hd => hneeds d (List.mem_flatMap.2 ⟨r, hr, hd⟩)⟩
  obtain ⟨r, hr, rfl⟩ := produces_iff.1 hkey
  exact hkeys _ (List.mem_map_of_mem hr)

/-- The roof alone is not complete, but it is on its ground. -/
theorem merge_roof :
    (Book.of roof []).missing = [.of (.product 0)] ∧
    ∃ c, (merged "house" [roof, ground]).build = .ok c ∧
      (Book.of c []).missing.Perm ((Book.of ground []).missing ++
        (Book.of roof []).missing.filter fun t => !ground.produces t.key) ∧
      (Book.of c []).check = .ok () := by
  have hground : ground.Built := ⟨"ground", ground.recipes.map (.recipe .adding), rfl⟩
  have hroof : roof.Built := ⟨"roof", roof.recipes.map (.recipe .adding), rfl⟩
  have hperm : [roof, ground].Perm [ground, roof] := .swap ..
  obtain ⟨c, hbuild, -, hmissing, hcomplete⟩ := layered_roof.merge hground hroof hperm "house"
  have hneeds : ∀ d ∈ roof.recipes.flatMap Recipe.dependencies, d.optional = false →
      ground.produces d.type.key := by decide
  exact ⟨by decide, c, hbuild, hmissing, hcomplete (by decide) (by decide)
    fun r hr d hd hoptional _ => hneeds d (List.mem_flatMap.2 ⟨r, hr, hd⟩) hoptional⟩

end Component

end Wiring
