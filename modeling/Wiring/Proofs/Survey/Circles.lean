/-
The dependencies that a survey reports to close circles.

* `Book.Closes`: a dependency that the check of a book reports to close a circle;
  `Book.closes_iff`: just those that the survey has noted;
* `Book.Closes.onCircle`: each of them lies on a circle;
* `Book.acyclic_of_not_closes`: nothing depends on itself without them;
* `Book.exists_closes_of_isPath`: so every way from a type back to it passes one of them;
* `Book.circles_closed`: **the check finds every circle of a book**, whatever else is wrong
  with it.
-/
import Wiring.Proofs.Survey.Lacks

namespace Wiring

open Relation

variable {σ V : Type}

namespace Book

/-- The check of the book reports that the dependency of `t` on `u` closes a circle. -/
def Closes (b : Book σ V) (t u : TypeKey) : Prop :=
  ∃ defects origin target chain, b.check = .error defects ∧
    .circular origin target chain ∈ defects ∧ origin.key = t ∧ target.key = u

/-- A dependency that is left if those are deleted that are reported to close circles. -/
def Remains (b : Book σ V) (t u : TypeKey) : Prop := b.DependsOn t u ∧ ¬ b.Closes t u

variable {b : Book σ V} {t u : TypeKey}

/-- The check reports just what the survey has noted. -/
lemma closes_iff : b.Closes t u ↔ (Survey.run b).Reports t u := by
  constructor
  · rintro ⟨defects, origin, target, chain, hcheck, hmem, ht, hu⟩
    obtain ⟨-, rfl⟩ := check_eq_error_iff.1 hcheck
    exact ⟨origin, target, chain, circular_mem_defects_iff.1 hmem, ht, hu⟩
  · rintro ⟨origin, target, chain, hmem, ht, hu⟩
    have hdefect := circular_mem_defects_iff.2 hmem
    exact ⟨b.defects, origin, target, chain,
      check_eq_error_iff.2 ⟨List.ne_nil_of_mem hdefect, rfl⟩, hdefect, ht, hu⟩

/-- What is reported to close a circle is a dependency from which the book leads back. -/
lemma Closes.onCircle (hb : b.Keyed) (h : b.Closes t u) :
    b.DependsOn t u ∧ ReflTransGen b.DependsOn u t := by
  obtain ⟨origin, target, chain, hmem, rfl, rfl⟩ := closes_iff.1 h
  obtain ⟨path, -, hcircle⟩ := (Survey.recorded_run hb).1.justified _ hmem
  exact ⟨hcircle.closes, hcircle.reflTransGen⟩

/-- **Nothing depends on itself along dependencies that are not reported.** All types with a
recipe are settled in the end, and no infinite walk along such dependencies starts from a
settled type. -/
lemma acyclic_of_not_closes (hb : b.Keyed) (t : TypeKey) : ¬ TransGen b.Remains t t := by
  intro ht
  obtain ⟨hrec, hall⟩ := Survey.recorded_run hb
  have hplain : b.Remains ≤ Function.swap (Survey.Plain b (Survey.run b)) :=
    fun u v h => ⟨h.1, fun hreports => h.2 (closes_iff.2 hreports)⟩
  obtain ⟨u, ⟨⟨-, r, hr, -⟩, -⟩, -⟩ := TransGen.head'_iff.1 ht
  obtain ⟨hmem, rfl⟩ := hb.recipe?_eq_some_iff.1 hr
  exact Survey.not_transGen_self_of_acc (hrec.grounded _ (hall r hmem))
    (transGen_swap.1 (TransGen.mono hplain _ _ ht))

/-- Every way from a type back to it passes a dependency that is reported. -/
lemma exists_closes_of_isPath (hb : b.Keyed) {t : TypeKey} {keys : List TypeKey}
    (h : b.IsPath (t :: keys ++ [t])) :
    ∃ u v, [u, v] <:+: t :: keys ++ [t] ∧ b.Closes u v := by
  by_contra hnone
  -- otherwise the whole way remains when the reported dependencies are deleted
  have hremains : (t :: keys ++ [t]).IsChain b.Remains := by
    rw [List.isChain_iff_forall_rel_of_append_cons_cons]
    intro u v before after hsplit
    refine ⟨List.isChain_iff_forall_rel_of_append_cons_cons.1 h hsplit,
      fun hcloses => hnone ⟨u, v, ⟨before, after, ?_⟩, hcloses⟩⟩
    rw [hsplit, List.append_assoc]
    rfl
  refine acyclic_of_not_closes hb t ?_
  have hpairs := (hremains.imp fun _ _ => TransGen.single).pairwise
  rw [List.cons_append, List.pairwise_cons] at hpairs
  exact hpairs.1 t (List.mem_append_right _ (List.mem_singleton_self t))

/-- **The check finds every circle.** Whatever else a book has or lacks, every way along its
declared dependencies from a type back to it passes a dependency that the check reports to
close a circle, so if all these are deleted, nothing depends on itself any more; and only
dependencies are reported that lie on a circle. -/
theorem circles_closed (c : Component σ V) (requiredExports : List TypeRef) :
    (∀ t keys, (Book.of c requiredExports).IsPath (t :: keys ++ [t]) →
      ∃ u v, [u, v] <:+: t :: keys ++ [t] ∧ (Book.of c requiredExports).Closes u v) ∧
    (∀ t, ¬ TransGen (Book.of c requiredExports).Remains t t) ∧
    ∀ t u, (Book.of c requiredExports).Closes t u →
      (Book.of c requiredExports).DependsOn t u ∧
        ReflTransGen (Book.of c requiredExports).DependsOn u t :=
  have hb := keyed_of c requiredExports
  ⟨fun _ _ h => exists_closes_of_isPath hb h, acyclic_of_not_closes hb,
    fun _ _ h => h.onCircle hb⟩

/-- The recipe of a type that needs the types with some numbers. -/
def knot (index : ℕ) (needs : List ℕ) : Recipe Unit Unit :=
  .ofFactory index .transient (.product index) (needs.map fun n => ⟨.shared (.product n), none⟩)
    fun _ world => (⟨.made (), []⟩, world)

/-- Two circles that share a dependency, and a third one apart from them. Something is missing
as well. -/
def tangle : Component Unit Unit :=
  ⟨"tangle", [knot 0 [1], knot 1 [0, 2], knot 2 [7, 0], knot 3 [0, 3]]⟩

/-- The longer one of the circles that share a dependency is not hidden by the shorter one,
which is found first. -/
theorem circles_closed_tangle :
    (Book.of tangle []).IsPath [.product 0, .product 1, .product 2, .product 0] ∧
    (Book.of tangle []).missing = [.of (.product 7)] ∧
    ∃ u v, [u, v] <:+: [.product 0, .product 1, .product 2, .product 0] ∧
      (Book.of tangle []).Closes u v := by
  have hpath : (Book.of tangle []).IsPath [.product 0, .product 1, .product 2, .product 0] :=
    .cons_cons ⟨rfl, knot 0 [1], rfl, _, .head _, rfl⟩ <|
      .cons_cons ⟨rfl, knot 1 [0, 2], rfl, _, .tail _ (.head _), rfl⟩ <|
        .cons_cons ⟨rfl, knot 2 [7, 0], rfl, _, .tail _ (.head _), rfl⟩ (.singleton _)
  exact ⟨hpath, by decide,
    (circles_closed tangle []).1 (.product 0) [.product 1, .product 2] hpath⟩

end Book

end Wiring
