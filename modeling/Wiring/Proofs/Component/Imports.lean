/-
What a component imports.

* `find?_of_mem_firstOfEachKey`, `pairwise_firstOfEachKey`: the first references to each type
  are the first ones, and stand in the order of these;
* `Component.declared`: the types that the recipes of a component declare as dependencies;
  `Component.ListsImports`: the imports among them, each once, as it is declared first;
* `Book.missingDependency_mem_defects_iff`: the defects that are about a missing dependency;
* `Component.agree_of_build_merged`: components that can be merged agree, if recipes with one
  serial are one and the same;
* `Component.Built.imports`: **the imports of a component are listed in this way, those that may
  not be absent are what its book misses, and a merge imports what one of both does and neither
  exports**.
-/
import Wiring.Proofs.Book.Listing
import Wiring.Proofs.Component.Grouping

namespace Wiring

variable {σ V : Type}

/-! ### First references -/

/-- The first reference to a type is the first one that is found for it. -/
lemma find?_of_mem_firstOfEachKey {ts : List TypeRef} {t : TypeRef}
    (h : t ∈ firstOfEachKey ts) : ts.find? (·.key = t.key) = some t := by
  induction ts with
  | nil => cases h
  | cons u rest ih =>
      rw [firstOfEachKey, List.mem_cons, List.mem_filter] at h
      rcases h with rfl | ⟨hrest, hne⟩
      · exact List.find?_cons_of_pos (by simp)
      · have hother : u.key ≠ t.key := fun heq => of_decide_eq_true hne heq.symm
        rw [List.find?_cons, decide_eq_false hother]
        exact ih hrest

/-- The first references stand in the order in which the types are referred to first. -/
lemma pairwise_firstOfEachKey (ts : List TypeRef) :
    (firstOfEachKey ts).Pairwise fun t u =>
      (ts.map TypeRef.key).idxOf t.key < (ts.map TypeRef.key).idxOf u.key := by
  induction ts with
  | nil => exact .nil
  | cons t rest ih =>
      have hlater {u : TypeRef} (hu : u ∈ (firstOfEachKey rest).filter (·.key ≠ t.key)) :
          ((t :: rest).map TypeRef.key).idxOf u.key = (rest.map TypeRef.key).idxOf u.key + 1 := by
        have hne : u.key ≠ t.key := by simpa using (List.mem_filter.1 hu).2
        exact List.idxOf_cons_ne _ hne.symm
      refine List.pairwise_cons.2 ⟨fun u hu => ?_, (ih.filter _).imp_of_mem fun hu hv hlt => ?_⟩
      · rw [hlater hu, List.map_cons, List.idxOf_cons_self]
        exact Nat.succ_pos _
      · rw [hlater hu, hlater hv]
        exact Nat.succ_lt_succ hlt

/-- It makes no difference whether types are left out before or after. -/
lemma firstOfEachKey_filter (p : TypeKey → Bool) (ts : List TypeRef) :
    firstOfEachKey (ts.filter (p ·.key)) = (firstOfEachKey ts).filter (p ·.key) := by
  induction ts with
  | nil => rfl
  | cons t rest ih =>
      cases hp : p t.key with
      | true =>
          simp only [List.filter_cons, hp, if_true, firstOfEachKey, ih]
          rw [List.filter_comm]
      | false =>
          simp only [List.filter_cons, hp, Bool.false_eq_true, if_false, firstOfEachKey, ih,
            List.filter_filter]
          refine List.filter_congr fun u _ => ?_
          by_cases hu : u.key = t.key <;> simp [hu, hp]

namespace Component

variable {c : Component σ V}

/-! ### Imports -/

/-- The types that the recipes declare as dependencies, in the order of the recipes and of their
parameters, each as often and under the names that it is declared. -/
def declared (c : Component σ V) : List TypeRef :=
  (c.recipes.flatMap Recipe.dependencies).map Dependency.type

/-- The imports are the declared types that no recipe exports. Each of them is listed once, as it
is declared first, in the order of the first declarations. -/
structure ListsImports (c : Component σ V) : Prop where
  mem_iff : ∀ key, key ∈ c.imports.map TypeRef.key ↔
    (∃ r ∈ c.recipes, ∃ d ∈ r.dependencies, d.type.key = key) ∧
      key ∉ c.exports.map TypeRef.key
  once : (c.imports.map TypeRef.key).Nodup
  first : ∀ t ∈ c.imports, c.declared.find? (·.key = t.key) = some t
  ordered : c.imports.Pairwise fun t u =>
    (c.declared.map TypeRef.key).idxOf t.key < (c.declared.map TypeRef.key).idxOf u.key

/-- What a component exports is what it produces. -/
lemma mem_exports_iff {key : TypeKey} : key ∈ c.exports.map TypeRef.key ↔ c.produces key := by
  rw [produces_iff, exports, List.map_map, List.mem_map]
  rfl

lemma imports_eq (c : Component σ V) :
    c.imports = (firstOfEachKey c.declared).filter fun t => !c.produces t.key :=
  firstOfEachKey_filter (fun key => !c.produces key) c.declared

lemma listsImports (c : Component σ V) : c.ListsImports where
  mem_iff key := by
    rw [mem_imports_iff, mem_exports_iff, Bool.not_eq_true, and_comm]
  once := nodup_firstOfEachKey _
  first t ht := by
    rw [imports_eq] at ht
    exact find?_of_mem_firstOfEachKey (List.mem_filter.1 ht).1
  ordered := by
    rw [imports_eq]
    exact (pairwise_firstOfEachKey c.declared).filter _

end Component

/-! ### What is missing -/

namespace Book

/-- A recipe misses just the dependencies without a recipe that may not be absent. -/
lemma missingDependency_mem_defects_iff {b : Book σ V} (hb : b.Keyed)
    {dependency requiredBy : TypeRef} :
    .missingDependency dependency requiredBy ∈ b.defects ↔
      b.recipe? dependency.key = none ∧ ∃ r ∈ b.recipes, r.type = requiredBy ∧
        ∃ d ∈ r.dependencies, d.type = dependency ∧ d.optional = false := by
  constructor
  · intro hmem
    rcases List.mem_append.1 hmem with hexport | hstep
    · obtain ⟨t, -, ht⟩ := List.mem_map.1 hexport
      cases ht
    · obtain ⟨step, hstep, hdefect⟩ := List.mem_filterMap.1 hstep
      cases step with
      | lacking d requiredBy =>
          rw [Encounter.defect?] at hdefect
          split at hdefect
          · cases hdefect
          · rename_i hneeded
            cases hdefect
            obtain ⟨habsent, r, hr, hrequired, hd⟩ := (Survey.exists_lacking_iff hb).1 hstep
            exact ⟨habsent, r, hr, hrequired, d, hd, rfl, by simpa using hneeded⟩
      | circle | entered | known | left | cutOff => cases hdefect
  · rintro ⟨habsent, r, hr, hrequired, d, hd, rfl, hneeded⟩
    refine List.mem_append_right _ (List.mem_filterMap.2 ⟨.lacking d requiredBy, ?_, ?_⟩)
    · exact (Survey.exists_lacking_iff hb).2 ⟨habsent, r, hr, hrequired, hd⟩
    · simp [Encounter.defect?, hneeded]

/-- What a check reports is among the defects. -/
lemma exists_check_iff {b : Book σ V} {defect : Defect} :
    (∃ defects, b.check = .error defects ∧ defect ∈ defects) ↔ defect ∈ b.defects := by
  constructor
  · rintro ⟨defects, hcheck, hmem⟩
    rwa [(check_eq_error_iff.1 hcheck).2]
  · exact fun hmem => ⟨_, check_eq_error_iff.2 ⟨List.ne_nil_of_mem hmem, rfl⟩, hmem⟩

end Book

namespace Component

variable {c left right both : Component σ V} {name : String}

/-- **What the book of a component misses besides exports** are those of the imports that may not
be absent. -/
theorem Built.missing_iff (h : c.Built) (exports : List TypeRef) (key : TypeKey) :
    (∃ defects dependency requiredBy, (Book.of c exports).check = .error defects ∧
      .missingDependency dependency requiredBy ∈ defects ∧ dependency.key = key) ↔
    key ∈ c.imports.map TypeRef.key ∧
      ∃ r ∈ c.recipes, ∃ d ∈ r.dependencies, d.type.key = key ∧ d.optional = false := by
  have hb := Book.keyed_of c exports
  have hmissing (dependency requiredBy : TypeRef) :
      .missingDependency dependency requiredBy ∈ (Book.of c exports).defects ↔
        c.produces dependency.key = false ∧ ∃ r ∈ c.recipes, r.type = requiredBy ∧
          ∃ d ∈ r.dependencies, d.type = dependency ∧ d.optional = false := by
    rw [Book.missingDependency_mem_defects_iff hb, Book.recipes_of h.nodup,
      ← Book.produces_eq_false_iff, Book.produces_of h.nodup]
  rw [mem_imports_iff]
  constructor
  · rintro ⟨defects, dependency, requiredBy, hcheck, hmem, rfl⟩
    obtain ⟨hnone, r, hr, -, d, hd, rfl, hneeded⟩ :=
      (hmissing _ _).1 (Book.exists_check_iff.1 ⟨defects, hcheck, hmem⟩)
    exact ⟨⟨hnone, r, hr, d, hd, rfl⟩, r, hr, d, hd, rfl, hneeded⟩
  · rintro ⟨⟨hnone, -⟩, r, hr, d, hd, rfl, hneeded⟩
    obtain ⟨defects, hcheck, hmem⟩ := Book.exists_check_iff.2
      ((hmissing d.type r.type).2 ⟨hnone, r, hr, rfl, d, hd, rfl, hneeded⟩)
    exact ⟨defects, _, _, hcheck, hmem, rfl⟩

/-! ### Merges -/

/-- Whatever was added without a conflict, the recipe that stands for its type has its serial. -/
lemma serial_eq_of_build_merged (h : (merged name [left, right]).build = .ok both)
    {r r' : Recipe σ V} (hr : r ∈ left.recipes ++ right.recipes)
    (hr' : r' ∈ left.recipes ++ right.recipes) (hkey : r.key = r'.key) :
    r.serial = r'.serial := by
  have hentries : ([left, right].map (Addition.component .adding)).flatMap Addition.entries =
      Insertion.adding.each (left.recipes ++ right.recipes) := by
    simp [Addition.entries, Insertion.each]
  rw [merged, Draft.build_accumulate, hentries] at h
  split at h
  · rename_i hclashes
    obtain ⟨q, hq, hserial⟩ := exists_standing_of_added [] hclashes hr
    obtain ⟨q', hq', hserial'⟩ := exists_standing_of_added [] hclashes hr'
    rw [hkey, hq'] at hq
    rw [← hserial, ← hserial', Option.some.inj hq]
  · cases h

/-- **Components that can be merged agree**, if recipes with one serial are one and the same. -/
theorem agree_of_build_merged (hleft : left.Built) (hright : right.Built)
    (hserial : ∀ r ∈ left.recipes, ∀ r' ∈ right.recipes, r.serial = r'.serial → r = r')
    (h : (merged name [left, right]).build = .ok both) : Agree [left, right] := by
  have hacross : ∀ r ∈ left.recipes, ∀ r' ∈ right.recipes, r.key = r'.key → r = r' :=
    fun r hr r' hr' hkey => hserial r hr r' hr' (serial_eq_of_build_merged h
      (List.mem_append_left _ hr) (List.mem_append_right _ hr') hkey)
  intro c hc c' hc' r hr r' hr' hkey
  simp only [List.mem_cons, List.not_mem_nil, or_false] at hc hc'
  rcases hc with rfl | rfl <;> rcases hc' with rfl | rfl
  · exact List.inj_on_of_nodup_map hleft.nodup hr hr' hkey
  · exact hacross r hr r' hr' hkey
  · exact (hacross r' hr' r hr hkey.symm).symm
  · exact List.inj_on_of_nodup_map hright.nodup hr hr' hkey

/-- A merge of components that agree imports what one of them does and none exports. -/
lemma mem_imports_merged (hagree : Agree [left, right])
    (h : (merged name [left, right]).build = .ok both) (key : TypeKey) :
    key ∈ both.imports.map TypeRef.key ↔
      (key ∈ left.imports.map TypeRef.key ∨ key ∈ right.imports.map TypeRef.key) ∧
        key ∉ left.exports.map TypeRef.key ∧ key ∉ right.exports.map TypeRef.key := by
  obtain ⟨c, hc, -, hmem⟩ := exists_build_merged hagree name
  obtain rfl : c = both := Except.ok.inj (hc.symm.trans h)
  have hrecipes (r : Recipe σ V) : r ∈ c.recipes ↔ r ∈ left.recipes ∨ r ∈ right.recipes := by
    rw [hmem]
    simp
  have hproduces : c.produces key = (left.produces key || right.produces key) := by
    rw [Bool.eq_iff_iff, Bool.or_eq_true, produces_iff, produces_iff, produces_iff]
    simp only [hrecipes, or_and_right, exists_or]
  simp only [mem_imports_iff, mem_exports_iff, hproduces, hrecipes, or_and_right, exists_or,
    Bool.or_eq_false_iff, Bool.not_eq_true]
  constructor
  · rintro ⟨⟨hleft, hright⟩, hdeclared | hdeclared⟩
    · exact .inl ⟨⟨hleft, hdeclared⟩, hleft, hright⟩
    · exact .inr ⟨⟨hright, hdeclared⟩, hleft, hright⟩
  · rintro (⟨⟨-, hdeclared⟩, hneither⟩ | ⟨⟨-, hdeclared⟩, hneither⟩)
    · exact ⟨hneither, .inl hdeclared⟩
    · exact ⟨hneither, .inr hdeclared⟩

/-- **The imports of a component that was built.** They are the declared types that it does not
export, each once, as it is declared first. Those of them that some recipe declares as not
optional are what its book misses, whatever has to be produced. If it can be merged with another
one, recipes with one serial being one and the same, then the imports of both together are those
of each that neither exports. -/
theorem Built.imports (h : c.Built) :
    c.ListsImports ∧
    (∀ exports key,
      (∃ defects dependency requiredBy, (Book.of c exports).check = .error defects ∧
        .missingDependency dependency requiredBy ∈ defects ∧ dependency.key = key) ↔
      key ∈ c.imports.map TypeRef.key ∧
        ∃ r ∈ c.recipes, ∃ d ∈ r.dependencies, d.type.key = key ∧ d.optional = false) ∧
    ∀ other name both, other.Built →
      (∀ r ∈ c.recipes, ∀ r' ∈ other.recipes, r.serial = r'.serial → r = r') →
      (merged name [c, other]).build = .ok both → ∀ key,
        key ∈ both.imports.map TypeRef.key ↔
          (key ∈ c.imports.map TypeRef.key ∨ key ∈ other.imports.map TypeRef.key) ∧
            key ∉ c.exports.map TypeRef.key ∧ key ∉ other.exports.map TypeRef.key :=
  ⟨c.listsImports, h.missing_iff, fun _ _ _ hother hserial hbuild =>
    mem_imports_merged (agree_of_build_merged h hother hserial hbuild) hbuild⟩

/-- The recipe of a factory with some parameters. -/
def ware (serial index : ℕ) (parameters : List Parameter) : Recipe Unit Unit :=
  .ofFactory serial .retained (.product index) parameters fun _ world => (⟨.made (), []⟩, world)

/-- A recipe that two components share. -/
def wareShared : Recipe Unit Unit :=
  ware 1 1 [⟨.shared (.product 5), some "five"⟩, ⟨.optional (.shared (.product 7)), none⟩]

/-- A component that declares a type first as optional and then, under another name, not. -/
def wareLeft : Component Unit Unit := ⟨"left",
  [ware 0 0 [⟨.optional (.shared (.product 5)), some "maybe five"⟩,
    ⟨.shared (.product 1), none⟩, ⟨.shared (.product 6), some "six"⟩], wareShared]⟩

/-- A component that exports what the other one imports, and the other way round. -/
def wareRight : Component Unit Unit := ⟨"right",
  [wareShared, ware 2 6 [⟨.shared (.product 0), none⟩, ⟨.optional (.setting 8), none⟩]]⟩

/-- The two components can be merged. Alone the one misses a type that it declares as optional
first, but not the type that it declares only as optional. Together they import the types that
neither has. -/
theorem imports_wares :
    wareLeft.imports =
      [⟨"maybe five", .product 5⟩, ⟨"six", .product 6⟩, .of (.product 7)] ∧
    wareLeft.ListsImports ∧
    (∀ key, (∃ defects dependency requiredBy,
        (Book.of wareLeft []).check = .error defects ∧
        .missingDependency dependency requiredBy ∈ defects ∧ dependency.key = key) ↔
      key ∈ wareLeft.imports.map TypeRef.key ∧
        ∃ r ∈ wareLeft.recipes, ∃ d ∈ r.dependencies, d.type.key = key ∧ d.optional = false) ∧
    ∃ both, (merged "both" [wareLeft, wareRight]).build = .ok both ∧
      both.imports.map TypeRef.key = [.product 5, .product 7, .settings] ∧
      ∀ key, key ∈ both.imports.map TypeRef.key ↔
        (key ∈ wareLeft.imports.map TypeRef.key ∨ key ∈ wareRight.imports.map TypeRef.key) ∧
          key ∉ wareLeft.exports.map TypeRef.key ∧ key ∉ wareRight.exports.map TypeRef.key := by
  have hleft : wareLeft.Built := ⟨"left", wareLeft.recipes.map (.recipe .adding), rfl⟩
  have hright : wareRight.Built := ⟨"right", wareRight.recipes.map (.recipe .adding), rfl⟩
  have hserial : ∀ r ∈ wareLeft.recipes, ∀ r' ∈ wareRight.recipes,
      r.serial = r'.serial → r = r' := by
    simp only [wareLeft, wareRight, List.forall_mem_cons, List.not_mem_nil, false_imp_iff,
      implies_true, and_true]
    exact ⟨⟨nofun, nofun⟩, trivial, nofun⟩
  obtain ⟨hlists, hmissing, hmerged⟩ := Built.imports hleft
  exact ⟨by decide, hlists, hmissing [], _, rfl, by decide,
    hmerged wareRight "both" _ hright hserial rfl⟩

end Component

end Wiring
