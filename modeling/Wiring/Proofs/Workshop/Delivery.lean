/-
What parameters receive that are for a type with an existing value.

* `Need.acceptOptional_nested`, `Need.accept_nested_shared`: what needs make of a product under
  any optional layers;
* `Workshop.Delivers`: all parameters with one need receive the same, whenever they are
  resolved;
* `Workshop.handed_of_resolved`: then all factories that were called got the same for them;
* `Workshop.delivers_of_given`: **a need for a type with an existing value is delivered what it
  takes of this value**, whatever is under construction and at any moment;
  `Workshop.runFrom_answer_of_given`: all gets of the type are answered it.
-/
import Wiring.Proofs.Workshop.Record

namespace Wiring

variable {σ V : Type}

/-- An argument under some optional layers. -/
def Argument.within (a : Argument V) : (layers : ℕ) → Argument V
  | 0 => a
  | layers + 1 => .present (a.within layers)

namespace Argument

/-- A further layer may be put inside or outside. -/
lemma within_present (a : Argument V) (layers : ℕ) :
    (Argument.present a).within layers = .present (a.within layers) := by
  induction layers with
  | zero => rfl
  | succ layers ih => rw [within, within, ih]

end Argument

namespace Need

/-- Only the innermost layer around a need depends on what the need itself makes of a
product. -/
lemma acceptOptional_nested {need : Need} {product : Instance V} {inner : Option (Argument V)}
    (h : need.acceptOptional product = .ok inner) (layers : ℕ) :
    ((need.nested layers).acceptOptional product).map .ofOption =
      .ok ((Argument.ofOption inner).within layers) := by
  induction layers with
  | zero => exact congrArg (Except.map Argument.ofOption) h
  | succ layers ih =>
      rw [nested, acceptOptional]
      rcases ho : (need.nested layers).acceptOptional product with failure | outer <;> rw [ho] at ih
      · cases ih
      · exact congrArg (Except.map Argument.present) ih

/-- A shared product is received under all layers. -/
lemma accept_nested_shared (key : TypeKey) (product : Instance V) (layers : ℕ) :
    ((Need.shared key).nested layers).accept product =
      .ok ((Argument.shared product).within layers) := by
  cases layers with
  | zero => rfl
  | succ layers =>
      have hinner : (Need.shared key).acceptOptional product = .ok (some (.shared product)) := rfl
      rw [nested, accept, acceptOptional_nested hinner]
      exact congrArg Except.ok (Argument.within_present _ layers)

end Need

namespace Workshop

variable {w : Workshop σ V}

/-- All parameters with this need receive the same, and this changes nothing: whatever is under
construction (`Passes.isStack`), at any moment. So all factories that are called get the same
for them, in whatever way the workshop is used (`Reached.rests`), and even if it could not be
opened (`rests_opening`). -/
structure Delivers (w : Workshop σ V) (need : Need) (received : Except Failure (Argument V)) :
    Prop where
  resolved : ∀ stack m, w.book.IsStack stack →
    (need.resolve w.book.produces (w.fetch stack)).runFrom m = (received.mapError .failed, m)
  handed : ∀ m, w.Rests m → ∀ serial t arguments call r,
    .called serial t arguments call ∈ m.trace → w.book.recipe? t = some r →
    List.Forall₂ (fun p a => p.need = need → received = .ok a) r.parameters arguments

section Delivers

variable (hb : w.book.Keyed) (ha : w.book.Acyclic)
  (hw : ∀ key r, w.book.recipe? key = some r → r.WellTyped) {need : Need}

include hb ha hw

/-- If all parameters with a need are resolved to the same, all calls on record got the same
for them. -/
lemma handed_of_resolved {received : Except Failure (Argument V)}
    (hresolved : ∀ stack m, w.book.IsStack stack →
      (need.resolve w.book.produces (w.fetch stack)).runFrom m = (received.mapError .failed, m))
    {m : Moment σ V} (h : w.Rests m) {serial : ℕ} {t : TypeKey} {arguments : List (Argument V)}
    {call : Call (Value V)} {r : Recipe σ V} (hcall : .called serial t arguments call ∈ m.trace)
    (hr : w.book.recipe? t = some r) :
    List.Forall₂ (fun p a => p.need = need → received = .ok a) r.parameters arguments := by
  obtain ⟨handed, hrecorded, -⟩ := h.recorded hb ha hw
  obtain ⟨before, after, htrace⟩ := List.append_of_mem hcall
  obtain ⟨stack, inner, q, products, n, n', rfl, hprepared⟩ := hrecorded.prepared htrace
  obtain ⟨make, hattempt, -⟩ := hprepared.attempt
  obtain rfl : q = r := Option.some.inj (hattempt.found.symm.trans hr)
  obtain ⟨hstack, hnext⟩ := hattempt.passes.isStack
  have hpush := hstack.push (Book.produces_iff.2 ⟨q, hr⟩) hnext
  refine hprepared.filled.resolved_each.imp fun p a ⟨m₁, m₂, hp⟩ hneed => ?_
  rw [hneed, hresolved _ m₁ hpush] at hp
  have hanswer : received.mapError Halt.failed = .ok a := congrArg Prod.fst hp
  cases received with
  | error failure => cases hanswer
  | ok b => exact congrArg Except.ok (Except.ok.inj hanswer)

/-- **A need for a type with an existing value** is delivered what it takes of this value. -/
theorem delivers_of_given {r : Recipe σ V} {product : Instance V}
    (hr : w.book.recipe? need.key = some r) (hsource : r.source = .given product) :
    w.Delivers need (need.take product) := by
  have hasks : w.Skips ⟨need, none⟩ = false := by
    simp [Skips, Book.produces_iff.2 ⟨r, hr⟩]
  have hresolved : ∀ stack m, w.book.IsStack stack →
      (need.resolve w.book.produces (w.fetch stack)).runFrom m =
        ((need.take product).mapError .failed, m) := by
    intro stack m hstack
    have hserve : w.serveAt stack (.of need.key) = pure product :=
      serveAt_of_given (hstack.length_le ha) hr hsource
    rw [runFrom_resolve_fetch hasks stack m, hserve]
    rfl
  exact ⟨hresolved, fun m h serial t arguments call r hcall hr =>
    handed_of_resolved hb ha hw hresolved h hcall hr⟩

end Delivers

/-- The existing value of a type is what all queries for the type get. -/
lemma runFrom_answer_of_given {key : TypeKey} {r : Recipe σ V} {p : Instance V}
    (hr : w.book.recipe? key = some r) (hsource : r.source = .given p) (hp : p.value.key = key)
    {q : Query} (hq : q = .get key ∨ ∃ name, q = .getInstance ⟨name, key⟩) (m : Moment σ V) :
    (w.answer q).runFrom m = (.ok (.shared p), m) := by
  have hserve (name : String) : w.serveAt [] ⟨name, key⟩ = pure p :=
    serveAt_of_given (Nat.zero_le _) hr hsource
  rcases hq with rfl | ⟨name, rfl⟩
  · have htake : (Need.shared key).take p = .ok (.shared p) := Need.take_of_key hp
    rw [runFrom_answer rfl, show Query.wanted (.get key) = ⟨key.name, key⟩ from rfl, hserve]
    simp only [Query.receive, Request.runFrom_pure, Need.receive, htake]
    rfl
  · rw [runFrom_answer rfl, show Query.wanted (.getInstance ⟨name, key⟩) = ⟨name, key⟩ from rfl,
      hserve]
    rfl

end Workshop

end Wiring
