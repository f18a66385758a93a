/-
The types that are under construction while a request is made.

* `Book.Descends`: types under construction of which none is there twice;
  `Workshop.Passes.descends`: **it is like this whenever a request is made**;
* `Workshop.Reached.no_reentrance`: **no request is ever made for a type that is under
  construction, and every request comes to an end**.
-/
import Wiring.Proofs.Workshop.Record

namespace Wiring

variable {σ V : Type}

/-- The types of `stack` are under construction, the innermost first, and a product of `key`
is requested. Each of them is a declared dependency of the one below it, no type is there
twice, and there are not more of them than recipes. -/
structure Book.Descends (b : Book σ V) (stack : List TypeKey) (key : TypeKey) : Prop where
  linked : (key :: stack).IsChain fun upper lower => b.DependsOn lower upper
  nodup : (key :: stack).Nodup
  depth : stack.length ≤ b.size
  /-- There is room for the type that is requested, too, if it has a recipe. -/
  room : b.produces key → (key :: stack).length ≤ b.size

/-- Below a stack every type that comes next descends further. -/
lemma Book.IsStack.descends {b : Book σ V} (ha : b.Acyclic) {stack : List TypeKey}
    {key : TypeKey} (hs : b.IsStack stack) (hn : b.IsNext stack key)
    (hp : stack ≠ [] → b.produces key) : b.Descends stack key := by
  have hlinked : (key :: stack).IsChain fun upper lower => b.DependsOn lower upper := by
    cases stack with
    | nil => exact List.isChain_singleton _
    | cons t stack =>
        have hstack : (t :: stack).IsChain fun upper lower => b.DependsOn lower upper := by
          rw [← List.isChain_reverse]
          exact hs.linked
        exact List.isChain_cons_cons.2 ⟨hn t rfl (hp (List.cons_ne_nil _ _)), hstack⟩
  refine ⟨hlinked, ?_, hs.length_le ha, fun hkey => (hs.push hkey hn).length_le ha⟩
  cases stack with
  | nil => exact List.nodup_singleton key
  | cons t stack =>
      have hpush := hs.push (hp (List.cons_ne_nil _ _)) hn
      exact List.nodup_reverse.1 (ha.nodup_of_isPath hpush.linked)

namespace Workshop

variable {w : Workshop σ V} {m : Moment σ V}

/-- Whenever a request is made, the types under construction descend to the type that it is
for. -/
lemma Passes.descends {stack : List TypeKey} {inner : TypeRef} {n : Moment σ V}
    (hn : w.Passes stack inner n) (h : w.Reached m) : w.book.Descends stack inner.key := by
  obtain ⟨hstack, hnext⟩ := hn.isStack
  obtain ⟨m₀, wanted, -, hnested⟩ := hn
  exact hstack.descends h.complete.acyclic hnext
    (hnested.produces h.keyed h.complete fun hne => absurd rfl hne)

/-- **No type is ever under construction twice, and every request comes to an end.** Whatever
is requested at a moment that is reached, each request that is made for it is for a type that
is not under construction, so that no place is locked again by those who hold its lock; the
types under construction are declared dependencies of each other and not more than there are
recipes. So it was with all constructions on record, those of the opening included. The bound
on the nesting is never met, and to raise it makes no difference. -/
theorem Reached.no_reentrance (h : w.Reached m) (wanted : TypeRef) :
    (∀ stack inner n, w.Nested [] wanted m stack inner n →
      w.book.Descends stack inner.key) ∧
    (∀ key stack, .began (key :: stack) ∈ m.trace → w.book.Descends stack key) ∧
    ((w.getInstance wanted).runFrom m).1 ≠ .error .tooDeep ∧
    ∀ room, w.room ≤ room → w.serve room [] wanted = w.getInstance wanted := by
  refine ⟨fun stack inner n hn => (h.rests.passes wanted).nested hn |>.descends h,
    fun key stack hbegan => ?_, (h.course wanted m).ne_tooDeep, fun room hroom => ?_⟩
  · obtain ⟨handed, hrecorded⟩ := h.recorded
    obtain ⟨inner, n, rfl, hpasses⟩ := hrecorded.passes hbegan
    exact hpasses.descends h
  · exact serve_eq_serveAt h.complete.acyclic Book.isStack_nil (Book.isNext_nil wanted.key)
      (by simpa using hroom)

/-- In the sample the second singleton requests the first one, below itself. -/
theorem no_reentrance_sample :
    (sample [needsFirst]).Nested [] (.of (.product 1)) (sampleStart [needsFirst])
        [.product 1] (.of (.product 0))
        ((sampleStart [needsFirst]).record (.began [.product 1])) ∧
      (∀ stack inner n, (sample [needsFirst]).Nested [] (.of (.product 1))
          (sampleStart [needsFirst]) stack inner n →
        (sample [needsFirst]).book.Descends stack inner.key) ∧
      (∀ key stack, .began (key :: stack) ∈ (sampleStart [needsFirst]).trace →
        (sample [needsFirst]).book.Descends stack key) ∧
      (((sample [needsFirst]).getInstance (.of (.product 1))).runFrom
        (sampleStart [needsFirst])).1 ≠ .error .tooDeep ∧
      ∀ room, (sample [needsFirst]).room ≤ room →
        (sample [needsFirst]).serve room [] (.of (.product 1)) =
          (sample [needsFirst]).getInstance (.of (.product 1)) :=
  ⟨.deeper rfl rfl rfl (List.nil_append [needsFirst]).symm rfl rfl .itself,
    Reached.no_reentrance ((opened_sample rfl).reached []) (.of (.product 1))⟩

end Workshop

end Wiring
