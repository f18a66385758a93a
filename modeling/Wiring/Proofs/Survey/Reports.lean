/-
What the check of a book tells about its defects.

* `Book.ShowsCircle`: a report on a circle that is as good as it can be: the types of the chain
  depend on each other in turn, from the target of the closing dependency back to it, and the
  chain passes no type twice before;
* `Book.circles_genuine`: **the check reports no other circles**;
* `Book.missing_reported`: **the check reports each lack just as often as it is declared**, the
  exports first, whatever circles the walk meets.
-/
import Wiring.Proofs.Survey.Circles

namespace Wiring

variable {σ V : Type}

namespace Book

/-! ### Circles -/

/-- The chain shows how the dependency of `origin` on `target` closes a circle of recipes of the
book. -/
structure ShowsCircle (b : Book σ V) (origin target : TypeRef) (chain : List TypeRef) :
    Prop where
  /-- There are two entries at least. -/
  two_le : 2 ≤ chain.length
  /-- The chain begins with the target. -/
  head : chain.head? = some target
  /-- It ends with the target. -/
  last : chain.getLast? = some target
  /-- The entry before the last one is the origin. -/
  closing : chain.dropLast.getLast? = some origin
  /-- The entries are the types of recipes, as these declare them. -/
  held : ∀ t ∈ chain, ∃ r ∈ b.recipes, r.type = t
  /-- The recipe of each entry declares a dependency on the next one. -/
  linked : b.IsPath (chain.map TypeRef.key)
  /-- No type occurs twice, but that the last entry repeats the first one. -/
  distinct : (chain.dropLast.map TypeRef.key).Nodup

variable {b : Book σ V} {origin target : TypeRef}

/-- A circle is shown by the types along it and the target once more. -/
lemma IsCircle.showsCircle (hb : b.Keyed) {path : List TypeRef}
    (h : b.IsCircle origin target path) : b.ShowsCircle origin target (path ++ [target]) := by
  obtain ⟨rest, rfl⟩ : ∃ rest, path = target :: rest := List.head?_eq_some_iff.1 h.head
  have hheld : ∀ t ∈ target :: rest, ∃ r ∈ b.recipes, r.type = t := by
    intro t ht
    obtain ⟨r, hr, htype⟩ := h.held t ht
    exact ⟨r, (hb.recipe?_eq_some_iff.1 hr).1, htype⟩
  refine ⟨by simp, rfl, List.getLast?_concat .., ?_, fun t ht => ?_, ?_, ?_⟩
  · rw [List.dropLast_concat]
    exact h.last
  · rcases List.mem_append.1 ht with ht | ht
    · exact hheld t ht
    · exact hheld t (List.mem_singleton.1 ht ▸ List.mem_cons_self ..)
  · -- the dependency that closes the circle leads from the end of the path to the target
    rw [IsPath, List.map_append, List.isChain_append]
    refine ⟨h.linked, List.isChain_singleton _, fun t ht u hu => ?_⟩
    rw [List.getLast?_map, h.last] at ht
    obtain rfl : origin.key = t := Option.some.inj ht
    obtain rfl : target.key = u := Option.some.inj hu
    exact h.closes
  · rw [List.dropLast_concat]
    exact h.nodup

/-- **Every circle that is reported is there, and none is longer than it has to be.** Whatever
else a book has or lacks, the chain of each circle that its check reports begins and ends with
the target of the dependency that closes it, which its last entry but one declares; all entries
are types of recipes, each of which declares a dependency on the next one, and up to the last
entry no type occurs twice. -/
theorem circles_genuine (c : Component σ V) (requiredExports : List TypeRef)
    {defects : List Defect} {origin target : TypeRef} {chain : List TypeRef}
    (hcheck : (Book.of c requiredExports).check = .error defects)
    (hmem : .circular origin target chain ∈ defects) :
    (Book.of c requiredExports).ShowsCircle origin target chain := by
  have hb := keyed_of c requiredExports
  obtain ⟨-, rfl⟩ := check_eq_error_iff.1 hcheck
  obtain ⟨path, rfl, hcircle⟩ :=
    (Survey.recorded_run hb).1.justified _ (circular_mem_defects_iff.1 hmem)
  exact hcircle.showsCircle hb

/-- A way into a circle, from which a way leads out to something that is missing. -/
def lasso : Component Unit Unit :=
  ⟨"lasso", [knot 0 [1], knot 1 [2], knot 2 [9, 3], knot 3 [1, 9]]⟩

/-- The chain does not show the way into the circle, and the type that is missing is reported
for both recipes that need it. -/
theorem circles_genuine_lasso :
    let circle : List TypeRef := [1, 2, 3, 1].map fun n => .of (.product n)
    (Book.of lasso []).check = .error
      [.missingDependency (.of (.product 9)) (.of (.product 2)),
        .circular (.of (.product 3)) (.of (.product 1)) circle,
        .missingDependency (.of (.product 9)) (.of (.product 3))] ∧
    (Book.of lasso []).ShowsCircle (.of (.product 3)) (.of (.product 1)) circle := by
  intro circle
  have hcheck : (Book.of lasso []).check = .error
      [.missingDependency (.of (.product 9)) (.of (.product 2)),
        .circular (.of (.product 3)) (.of (.product 1)) circle,
        .missingDependency (.of (.product 9)) (.of (.product 3))] := by
    rfl
  exact ⟨hcheck, circles_genuine lasso [] hcheck (.tail _ (.head _))⟩

/-! ### Lacks -/

/-- **Every lack is reported, and none more often than it is declared.** The check of a book
reports its defects, if it has any. They begin with the exports that have no recipe, in their
order and each as often as it has to be produced. Among the others there is one for each place
in the list of dependencies of a recipe where a dependency stands that has no recipe and may not
be absent, under the name that it is declared with, together with the type of the recipe; in
which order depends on the walk. The missing types are just those of these defects, in the
order of the defects. -/
theorem missing_reported (c : Component σ V) (requiredExports : List TypeRef) :
    let b := Book.of c requiredExports
    let unmade := requiredExports.filter fun t => !b.produces t.key
    ∃ found : List Defect,
      (b.check = if b.defects = [] then .ok () else .error b.defects) ∧
      b.defects = unmade.map .missingExport ++ found ∧
      (∀ t, .missingExport t ∉ found) ∧
      (found.filterMap Defect.lack?).Perm
        (b.recipes.flatMap fun r => (b.needs r.dependencies).map (·, r.type)) ∧
      b.missing = unmade ++ (found.filterMap Defect.lack?).map Prod.fst := by
  intro b unmade
  have hb : b.Keyed := keyed_of c requiredExports
  have hcheck : b.check = if b.defects = [] then .ok () else .error b.defects := by
    simp only [check, List.isEmpty_iff]
  exact ⟨(Survey.run b).steps.filterMap Encounter.defect?, hcheck, rfl,
    Survey.missingExport_notMem_steps _, lack_perm hb, b.missing_eq⟩

end Book

end Wiring
