/-
The order in which components are merged.

* `Component.Matches`: two components of which everything looked up by type is the same, as
  are the verdicts of the check and, up to their order, the missing types;
* `Component.matches_of_same_recipes`: components with the same recipes match;
* `Component.Agree.merge_order`: **components that agree come to matching components, in
  whatever order and however often each of them is merged**.
-/
import Wiring.Proofs.Book.Listing
import Wiring.Proofs.Component.Merging

namespace Wiring

variable {σ V : Type}

namespace Component

/-- The books of the two components are the same but for the order of the recipes, and so is
what a check finds, whatever has to be produced, but for the order and the circles that are
shown. -/
structure Matches (c c' : Component σ V) : Prop where
  recipe? : ∀ exports key, (Book.of c exports).recipe? key = (Book.of c' exports).recipe? key
  check : ∀ exports, (Book.of c exports).check = .ok () ↔ (Book.of c' exports).check = .ok ()
  hasCircle : ∀ exports, (Book.of c exports).hasCircle = (Book.of c' exports).hasCircle
  missing : ∀ exports, (Book.of c exports).missing.Perm (Book.of c' exports).missing
  imports : ∀ key, key ∈ c.imports.map TypeRef.key ↔ key ∈ c'.imports.map TypeRef.key

variable {c c' : Component σ V}

lemma perm_of_same_recipes (hn : (c.recipes.map Recipe.key).Nodup)
    (hn' : (c'.recipes.map Recipe.key).Nodup) (h : ∀ r, r ∈ c.recipes ↔ r ∈ c'.recipes) :
    c.recipes.Perm c'.recipes :=
  (List.perm_ext_iff_of_nodup (hn.of_map _) (hn'.of_map _)).2 h

/-- **Components with the same recipes match.** The checks of their books walk from the
recipes in different orders, but a circle is found exactly if there is one, and each recipe
has its own lacks whenever it is entered. -/
theorem matches_of_same_recipes (hn : (c.recipes.map Recipe.key).Nodup)
    (hn' : (c'.recipes.map Recipe.key).Nodup) (h : ∀ r, r ∈ c.recipes ↔ r ∈ c'.recipes) :
    c.Matches c' := by
  have hproduces : c.produces = c'.produces := by
    funext key
    rw [Bool.eq_iff_iff, produces_iff, produces_iff]
    exact exists_congr fun r => and_congr_left fun _ => h r
  have hcircle (exports) :
      (Book.of c exports).hasCircle = (Book.of c' exports).hasCircle := by
    rw [Bool.eq_iff_iff, Book.hasCircle_iff (Book.keyed_of _ _),
      Book.hasCircle_iff (Book.keyed_of _ _), Book.acyclic_of_congr hn hn' h]
  have hmissing (exports) :
      (Book.of c exports).missing.Perm (Book.of c' exports).missing := by
    refine (Book.missing_of_perm hn).trans (.trans ?_ (Book.missing_of_perm hn').symm)
    rw [unmet, unmet, hproduces]
    have hdependencies := (perm_of_same_recipes hn hn' h).flatMap_right Recipe.dependencies
    exact ((hdependencies.filter _).map _).append_left _
  refine ⟨fun exports key => Option.ext fun r => ?_, fun exports => ?_, hcircle, hmissing,
    fun key => ?_⟩
  · rw [Book.recipe?_of_iff hn, Book.recipe?_of_iff hn', h]
  · rw [Book.check_eq_ok_iff_missing, Book.check_eq_ok_iff_missing, hcircle,
      ← List.length_eq_zero_iff, ← List.length_eq_zero_iff, (hmissing exports).length_eq]
  · simp only [mem_imports_iff, hproduces, h]

/-- **The order of merging does not matter** for components that agree. Merged in any order,
each at least once, they come to a component that has the recipes of each of them, and what
they come to in another order matches it. -/
theorem Agree.merge_order {family cs cs' : List (Component σ V)} (h : Agree family)
    (hcs : ∀ x, x ∈ cs ↔ x ∈ family) (hcs' : ∀ x, x ∈ cs' ↔ x ∈ family) (name name' : String) :
    ∃ c c', (merged name cs).build = .ok c ∧ (merged name' cs').build = .ok c' ∧
      (∀ exports key r, (Book.of c exports).recipe? key = some r ↔
        ∃ x ∈ family, r ∈ x.recipes ∧ r.key = key) ∧
      (∀ t, t ∈ c.exports ↔ ∃ x ∈ family, t ∈ x.exports) ∧
      (∀ t, t ∈ c'.exports ↔ ∃ x ∈ family, t ∈ x.exports) ∧
      c.Matches c' := by
  obtain ⟨c, hbuild, hn, hmem⟩ :=
    exists_build_merged (h.subset fun x hx => (hcs x).1 hx) name
  obtain ⟨c', hbuild', hn', hmem'⟩ :=
    exists_build_merged (h.subset fun x hx => (hcs' x).1 hx) name'
  simp only [hcs] at hmem
  simp only [hcs'] at hmem'
  have hexports {d : Component σ V} (hd : ∀ r, r ∈ d.recipes ↔ ∃ x ∈ family, r ∈ x.recipes) (t) :
      t ∈ d.exports ↔ ∃ x ∈ family, t ∈ x.exports := by
    simp only [exports, List.mem_map, hd]
    constructor
    · rintro ⟨r, ⟨x, hx, hr⟩, rfl⟩
      exact ⟨x, hx, r, hr, rfl⟩
    · rintro ⟨x, hx, r, hr, rfl⟩
      exact ⟨r, ⟨x, hx, hr⟩, rfl⟩
  refine ⟨c, c', hbuild, hbuild', fun exports key r => ?_, hexports hmem, hexports hmem',
    matches_of_same_recipes hn hn' fun r => by rw [hmem, hmem']⟩
  rw [Book.recipe?_of_iff hn, hmem]
  constructor
  · rintro ⟨⟨x, hx, hr⟩, hkey⟩
    exact ⟨x, hx, hr, hkey⟩
  · rintro ⟨x, hx, hr, hkey⟩
    exact ⟨⟨x, hx, hr⟩, hkey⟩

/-- Recipes two of which need each other and a type without a recipe. -/
def ring (index : ℕ) : Recipe Unit Unit :=
  .ofFactory index .retained (.product index)
    ((if index = 1 then [0, 2] else [1]).map fun needed => ⟨.shared (.product needed), none⟩)
    fun _ world => (⟨.made (), []⟩, world)

/-- A component with both recipes of the circle. -/
def ringLeft : Component Unit Unit := ⟨"left", [0, 1].map ring⟩

/-- A component with one recipe of the circle, which it shares, and another recipe. -/
def ringRight : Component Unit Unit := ⟨"right", [1, 3].map ring⟩

lemma agree_ring : Agree [ringLeft, ringRight] := by
  have hring : ∀ c ∈ [ringLeft, ringRight], ∀ r ∈ c.recipes, ∃ i, ring i = r := by
    simp [ringLeft, ringRight]
  intro c hc c' hc' r hr r' hr' hkey
  obtain ⟨i, rfl⟩ := hring c hc r hr
  obtain ⟨j, rfl⟩ := hring c' hc' r' hr'
  exact congrArg ring (TypeKey.product.inj hkey)

/-- In two orders of merging the circle is shown from two sides, and yet the components
match. -/
theorem merge_order_ring :
    ∃ c c', (merged "one" [ringLeft, ringRight, ringLeft]).build = .ok c ∧
      (merged "other" [ringRight, ringLeft]).build = .ok c' ∧
      (Book.of c []).defects ≠ (Book.of c' []).defects ∧
      (Book.of c []).hasCircle = true ∧ (Book.of c []).missing = [.of (.product 2)] ∧
      c.Matches c' := by
  have hone (x) : x ∈ [ringLeft, ringRight, ringLeft] ↔ x ∈ [ringLeft, ringRight] := by grind
  have hother (x) : x ∈ [ringRight, ringLeft] ↔ x ∈ [ringLeft, ringRight] := by grind
  obtain ⟨c, c', hbuild, hbuild', -, -, -, hmatches⟩ :=
    agree_ring.merge_order hone hother "one" "other"
  refine ⟨c, c', hbuild, hbuild', ?_⟩
  obtain rfl : (⟨"one", [0, 1, 3].map ring⟩ : Component Unit Unit) = c := Except.ok.inj hbuild
  obtain rfl : (⟨"other", [1, 3, 0].map ring⟩ : Component Unit Unit) = c' := Except.ok.inj hbuild'
  exact ⟨by decide, by decide, by decide, hmatches⟩

end Component

end Wiring
