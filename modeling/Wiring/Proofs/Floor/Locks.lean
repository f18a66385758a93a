/-
The locks that the workers of a floor hold.

* `Guards`: a lock is taken exactly if a worker holds it, and then only one does, once;
* `Floor.Guarded.move`: every move keeps this, since a worker takes only locks that are free
  and gives back only what it took.
-/
import Wiring.Proofs.Floor.Steps

namespace Wiring

open Relation

variable {ι σ V : Type}

/-- A lock is taken exactly if somebody holds it, and then only one does, once. -/
structure Guards (held : ι → List TypeKey) (locked : TypeKey → Bool) : Prop where
  nodup : ∀ i, (held i).Nodup
  alone : ∀ i j k, k ∈ held i → k ∈ held j → i = j
  locked_iff : ∀ k, locked k = true ↔ ∃ i, k ∈ held i

namespace Guards

variable {held : ι → List TypeKey} {locked : TypeKey → Bool}

lemma not_mem_of_free (h : Guards held locked) {k : TypeKey} (hk : locked k = false) (i : ι) :
    k ∉ held i := by
  intro hi
  rw [(h.locked_iff k).2 ⟨i, hi⟩] at hk
  cases hk

variable [DecidableEq ι]

/-- A lock that is free can be taken. -/
lemma take (h : Guards held locked) {k : TypeKey} (hk : locked k = false) (i : ι) :
    Guards (Function.update held i (k :: held i)) (Function.update locked k true) := by
  have hmem : ∀ j u, u ∈ Function.update held i (k :: held i) j ↔
      (j = i ∧ u = k) ∨ u ∈ held j := by
    intro j u
    by_cases hj : j = i
    · subst hj
      simp
    · simp [hj]
  refine ⟨?_, fun j l u hj hl => ?_, fun u => ?_⟩
  · exact (Function.forall_update_iff held fun _ => List.Nodup).2
      ⟨List.nodup_cons.2 ⟨h.not_mem_of_free hk i, h.nodup i⟩, fun j _ => h.nodup j⟩
  · rcases (hmem j u).1 hj with ⟨hji, hu⟩ | hold <;>
      rcases (hmem l u).1 hl with ⟨hli, hu'⟩ | hold'
    · exact hji.trans hli.symm
    · exact absurd hold' (hu ▸ h.not_mem_of_free hk l)
    · exact absurd hold (hu' ▸ h.not_mem_of_free hk j)
    · exact h.alone j l u hold hold'
  · by_cases hu : u = k
    · subst hu
      rw [Function.update_self]
      exact iff_of_true rfl ⟨i, (hmem i u).2 (.inl ⟨rfl, rfl⟩)⟩
    · rw [Function.update_of_ne hu, h.locked_iff u]
      simp [hmem, hu]

/-- The lock that was taken last can be given back. -/
lemma give (h : Guards held locked) {k : TypeKey} {i : ι} {rest : List TypeKey}
    (hi : held i = k :: rest) :
    Guards (Function.update held i rest) (Function.update locked k false) := by
  obtain ⟨hnot, hrest⟩ := List.nodup_cons.1 (hi ▸ h.nodup i)
  have hk : k ∈ held i := by simp [hi]
  have hmem : ∀ j u, u ∈ Function.update held i rest j ↔ u ≠ k ∧ u ∈ held j := by
    intro j u
    by_cases hj : j = i
    · subst hj
      rw [Function.update_self, hi, List.mem_cons]
      constructor
      · intro hu
        exact ⟨fun heq => hnot (heq ▸ hu), .inr hu⟩
      · rintro ⟨hne, rfl | hu⟩
        · exact absurd rfl hne
        · exact hu
    · rw [Function.update_of_ne hj]
      refine ⟨fun hu => ⟨?_, hu⟩, And.right⟩
      rintro rfl
      exact hj (h.alone j i u hu hk)
  refine ⟨?_, fun j l u hj hl => ?_, fun u => ?_⟩
  · exact (Function.forall_update_iff held fun _ => List.Nodup).2 ⟨hrest, fun j _ => h.nodup j⟩
  · exact h.alone j l u ((hmem j u).1 hj).2 ((hmem l u).1 hl).2
  · by_cases hu : u = k
    · simp [hmem, hu]
    · simp [hmem, hu, h.locked_iff u]

end Guards

namespace Floor

/-- The locks are those that the workers hold. -/
def Guarded (f : Floor ι σ V) : Prop := Guards (fun i => (f.workers i).held) f.hall.locked

variable {w : Workshop σ V} {f : Floor ι σ V}

/-- Where no lock is taken and nobody is busy, nobody holds a lock. -/
lemma guarded_of_idle (free : ∀ k, f.hall.locked k = false)
    (idle : ∀ i, (f.workers i).errands = []) : f.Guarded := by
  have hheld : ∀ i, (f.workers i).held = [] := by
    intro i
    rw [Worker.held, idle i]
    rfl
  refine ⟨fun i => ?_, fun i j k hk => ?_, fun k => ?_⟩
  · simp [hheld]
  · simp [hheld] at hk
  · simp [hheld, free]

variable [DecidableEq ι]

/-- **A move keeps the locks in order**, since a worker takes only locks that are free and
gives back only what it took last. -/
lemma Guarded.move (hg : f.Guarded) {i : ι} {x : Worker σ V} {h : Hall σ V}
    (hm : w.Move (f.workers i) f.hall x h) :
    Guarded ⟨h, Function.update f.workers i x⟩ := by
  have hheld : (fun j => (Function.update f.workers i x j).held) =
      Function.update (fun j => (f.workers j).held) i x.held := by
    funext j
    exact Function.apply_update (fun _ => Worker.held) f.workers i x j
  rw [Guarded, hheld]
  rcases hm.locks with ⟨hsame, hlocked⟩ | ⟨k, hfree, htaken, hlocked⟩ |
    ⟨k, hgiven, hlocked⟩
  · rw [hsame, hlocked, Function.update_eq_self]
    exact hg
  · rw [htaken, hlocked]
    exact hg.take hfree i
  · rw [hlocked]
    exact hg.give hgiven

end Floor

end Wiring
