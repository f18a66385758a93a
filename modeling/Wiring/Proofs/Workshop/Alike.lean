/-
What the answers of a workshop depend on.

* `Moment.Alike`: two moments with the same products in the same places, the same number of
  calls so far and the same world around, whatever the marks on the places and the record;
* `Request.Steady`: a computation that can not tell such moments apart;
  `Request.Steady.bind`: steady computations may be run one after the other;
* `Workshop.steady_serve`: every request is steady;
* `Moment.Alike.run`: **from moments that are alike all acts get the same replies**.
-/
import Wiring.Proofs.Workshop.Growth

namespace Wiring

variable {σ V α β : Type}

/-- Two moments that a workshop can not tell apart: they differ at most in the marks on
places and in the record of what happened. -/
structure Moment.Alike (m n : Moment σ V) : Prop where
  shelf : ∀ k, (m.shelf.get? k).map Place.product = (n.shelf.get? k).map Place.product
  calls : m.calls = n.calls
  world : m.world = n.world

namespace Moment

variable {m n : Moment σ V}

lemma Alike.symm (h : m.Alike n) : n.Alike m :=
  ⟨fun k => (h.shelf k).symm, h.calls.symm, h.world.symm⟩

lemma Alike.trans {o : Moment σ V} (h : m.Alike n) (h' : n.Alike o) : m.Alike o :=
  ⟨fun k => (h.shelf k).trans (h'.shelf k), h.calls.trans h'.calls, h.world.trans h'.world⟩

/-- A mark makes no difference. -/
lemma alike_poison (m : Moment σ V) (key : TypeKey) : m.Alike (m.poison key) := by
  refine ⟨fun k => ?_, rfl, rfl⟩
  rw [poison, Table.get?_modify]
  split
  · cases m.shelf.get? k <;> rfl
  · rfl

lemma Alike.record (h : m.Alike n) (e : Event V) : (m.record e).Alike (n.record e) :=
  ⟨h.shelf, h.calls, h.world⟩

lemma Alike.store (h : m.Alike n) (key : TypeKey) (product : Instance V) :
    (m.store key product).Alike (n.store key product) := by
  refine ⟨fun k => ?_, h.calls, h.world⟩
  simp only [Moment.store, Table.get?_modify]
  have hk := h.shelf k
  by_cases hkey : k = key
  · simp only [hkey, if_true] at hk ⊢
    cases hm : m.shelf.get? key <;> cases hn : n.shelf.get? key <;> simp_all
  · simpa [hkey] using hk

lemma Alike.poison (h : m.Alike n) (key : TypeKey) : (m.poison key).Alike (n.poison key) :=
  ((m.alike_poison key).symm.trans h).trans (n.alike_poison key)

end Moment

namespace Request

/-- A computation that answers the same at moments that are alike, and leaves moments that
are alike. -/
def Steady (x : Request σ V α) : Prop :=
  ∀ m n : Moment σ V, m.Alike n →
    (x.runFrom m).1 = (x.runFrom n).1 ∧ (x.runFrom m).2.Alike (x.runFrom n).2

lemma steady_pure (a : α) : Steady (pure a : Request σ V α) := fun _ _ h => ⟨rfl, h⟩

lemma steady_fail (failure : Failure) : Steady (fail failure : Request σ V α) :=
  fun _ _ h => ⟨rfl, h⟩

lemma steady_throw (halt : Halt) : Steady (throw halt : Request σ V α) :=
  fun _ _ h => ⟨rfl, h⟩

lemma steady_record (e : Event V) : Steady (record e : Request σ V Unit) :=
  fun _ _ h => ⟨rfl, h.record e⟩

lemma steady_store (key : TypeKey) (product : Instance V) :
    Steady (modify (·.store key product) : Request σ V Unit) :=
  fun _ _ h => ⟨rfl, h.store key product⟩

/-- Steady computations may be run one after the other. -/
lemma Steady.bind {x : Request σ V α} (hx : x.Steady) {f : α → Request σ V β}
    (hf : ∀ a, (f a).Steady) : (x >>= f).Steady := by
  intro m n h
  obtain ⟨hanswer, hafter⟩ := hx m n h
  rw [runFrom_bind, runFrom_bind]
  rcases hm : x.runFrom m with ⟨halt | a, m'⟩ <;> rcases hn : x.runFrom n with ⟨halt' | a', n'⟩
  all_goals
    rw [hm, hn] at hanswer hafter
    dsimp only at hanswer hafter ⊢
  · exact ⟨congrArg Except.error (Except.error.inj hanswer), hafter⟩
  · cases hanswer
  · cases hanswer
  · obtain rfl := Except.ok.inj hanswer
    exact hf a m' n' hafter

lemma Steady.map {x : Request σ V α} (hx : x.Steady) (f : α → β) : (f <$> x).Steady := by
  rw [← bind_pure_comp]
  exact hx.bind fun a => steady_pure (f a)

lemma Steady.reporting {x : Request σ V α} (hx : x.Steady) (name : String) :
    (reporting name x).Steady := by
  intro m n h
  obtain ⟨hanswer, hafter⟩ := hx m n h
  rw [runFrom_reporting, runFrom_reporting]
  rcases hm : x.runFrom m with ⟨answer, m'⟩
  rcases hn : x.runFrom n with ⟨answer', n'⟩
  rw [hm, hn] at hanswer hafter
  obtain rfl : answer = answer' := hanswer
  rcases answer with (failure | text | _) | a
  · exact ⟨rfl, hafter.record _⟩
  all_goals exact ⟨rfl, hafter⟩

lemma Steady.guarding {x : Request σ V α} (hx : x.Steady) (key : TypeKey) :
    (guarding key x).Steady := by
  intro m n h
  obtain ⟨hanswer, hafter⟩ := hx m n h
  rw [runFrom_guarding, runFrom_guarding]
  rcases hm : x.runFrom m with ⟨answer, m'⟩
  rcases hn : x.runFrom n with ⟨answer', n'⟩
  rw [hm, hn] at hanswer hafter
  obtain rfl : answer = answer' := hanswer
  rcases answer with (failure | text | _) | a
  · exact ⟨rfl, hafter⟩
  · exact ⟨rfl, hafter.poison key⟩
  all_goals exact ⟨rfl, hafter⟩

end Request

/-! ### Parameters -/

namespace Need

variable {produces : TypeKey → Bool} {obtain : TypeKey → Request σ V (Instance V)}

lemma steady_lookUp (ho : ∀ key, (obtain key).Steady) (index : ℕ) :
    (lookUp obtain index).Steady := by
  refine (ho .settings).bind fun holder => ?_
  split
  · exact Request.steady_fail _
  · split
    · exact Request.steady_pure _
    · exact Request.steady_fail _

lemma steady_resolveOptional (ho : ∀ key, (obtain key).Steady) (need : Need) :
    (need.resolveOptional produces obtain).Steady := by
  induction need with
  | shared key =>
      rw [resolveOptional]
      split
      · exact (ho key).map _
      · exact Request.steady_pure _
  | setting index =>
      rw [resolveOptional]
      split
      · exact (steady_lookUp ho index).map _
      · exact Request.steady_pure _
  | optional inner ih =>
      rw [resolveOptional]
      split
      · exact ih.map _
      · exact Request.steady_pure _

lemma steady_resolve (ho : ∀ key, (obtain key).Steady) (need : Need) :
    (need.resolve produces obtain).Steady := by
  cases need with
  | shared key => exact (ho key).map _
  | setting index =>
      refine (steady_lookUp ho index).bind fun value => ?_
      split
      · exact Request.steady_pure _
      · exact Request.steady_fail _
  | optional inner => exact (steady_resolveOptional ho inner).map _

end Need

lemma steady_resolveAll {produces : TypeKey → Bool}
    {obtain : TypeKey → Request σ V (Instance V)} (ho : ∀ key, (obtain key).Steady)
    (ps : List Parameter) : (resolveAll produces obtain ps).Steady := by
  induction ps with
  | nil => exact Request.steady_pure _
  | cons p rest ih =>
      exact (Need.steady_resolve ho p.need).bind fun first => ih.bind fun others =>
        Request.steady_pure _

namespace Workshop

/-! ### Requests -/

lemma steady_call (w : Workshop σ V) (r : Recipe σ V) (make : Factory σ V (Value V))
    (arguments : List (Argument V)) : (w.call r make arguments).Steady := by
  intro m n h
  rw [runFrom_call, runFrom_call, h.calls, h.world]
  exact ⟨rfl, h.shelf, rfl, rfl⟩

lemma steady_checked (key : TypeKey) (product : Instance V) :
    (checked key product : Request σ V (Instance V)).Steady := by
  rw [checked]
  split
  · exact Request.steady_pure _
  · exact Request.steady_fail _

lemma steady_construct (w : Workshop σ V) (stack : List TypeKey) (wanted : TypeRef)
    (r : Recipe σ V) (make : Factory σ V (Value V))
    {obtain : TypeKey → Request σ V (Instance V)} (ho : ∀ key, (obtain key).Steady) :
    (w.construct stack wanted r make obtain).Steady :=
  Request.Steady.reporting ((Request.steady_record _).bind fun _ =>
    (steady_resolveAll ho r.parameters).bind fun arguments => w.steady_call r make arguments) _

/-- The use of the shelf depends on what stands in a place, and not on its mark. -/
lemma steady_fromShelf (wanted : TypeRef) {attempt : Request σ V (Instance V)}
    (ha : attempt.Steady) : (fromShelf wanted attempt).Steady := by
  intro m n h
  have hplace := h.shelf wanted.key
  rw [fromShelf, Request.runFrom_bind, Request.runFrom_bind, Request.runFrom_get,
    Request.runFrom_get]
  dsimp only
  rcases hm : m.shelf.get? wanted.key with _ | ⟨_ | product, poisoned⟩ <;>
    rcases hn : n.shelf.get? wanted.key with _ | ⟨_ | product', poisoned'⟩ <;>
    simp only [hm, hn, Option.map_none, Option.map_some, Option.some.injEq, reduceCtorEq]
      at hplace
  · exact ha m n h
  · exact ((ha.guarding wanted.key).bind fun product => (Request.steady_record _).bind
      fun _ => (Request.steady_store _ _).bind fun _ => Request.steady_pure _) m n h
  · subst hplace
    exact ⟨rfl, h⟩

/-- Every request is steady. -/
lemma steady_serve (w : Workshop σ V) (room : ℕ) (stack : List TypeKey) (wanted : TypeRef) :
    (w.serve room stack wanted).Steady := by
  induction room generalizing stack wanted with
  | zero => exact Request.steady_throw _
  | succ room ih =>
      rw [serve_succ]
      split
      · exact Request.steady_fail _
      · split
        · exact Request.steady_pure _
        · exact steady_fromShelf wanted (w.steady_construct stack wanted _ _ fun key =>
            (ih _ _).bind (steady_checked key))

lemma steady_get (w : Workshop σ V) (key : TypeKey) : (w.get key).Steady :=
  (w.steady_serve _ _ _).bind (steady_checked key)

lemma steady_answer (w : Workshop σ V) (q : Query) : (w.answer q).Steady := by
  cases q with
  | getInstance wanted => exact (w.steady_serve _ _ wanted).map _
  | get key => exact (w.steady_get key).map _
  | resolve need => exact Need.steady_resolve w.steady_get need

end Workshop

namespace Moment

variable {m n : Moment σ V}

/-- An act gets the same reply at moments that are alike, and leaves moments that are. -/
lemma Alike.act (h : m.Alike n) (w : Workshop σ V) (a : Act σ) :
    (w.act a m).1 = (w.act a n).1 ∧ (w.act a m).2.Alike (w.act a n).2 := by
  cases a with
  | ask q =>
      obtain ⟨hanswer, hafter⟩ := w.steady_answer q m n h
      exact ⟨congrArg Reply.answered hanswer, hafter⟩
  | look key =>
      refine ⟨congrArg Reply.shown ?_, h⟩
      have hplace := h.shelf key
      simp only [Workshop.isConstructed]
      cases hm : m.shelf.get? key <;> cases hn : n.shelf.get? key <;> simp_all
  | elsewhere world => exact ⟨rfl, h.shelf, h.calls, rfl⟩

/-- **From moments that are alike all acts get the same replies.** -/
theorem Alike.run (h : m.Alike n) (w : Workshop σ V) (acts : List (Act σ)) :
    (w.run acts m).1 = (w.run acts n).1 ∧ (w.run acts m).2.Alike (w.run acts n).2 := by
  induction acts generalizing m n with
  | nil => exact ⟨rfl, h⟩
  | cons a rest ih =>
      obtain ⟨hreply, hafter⟩ := h.act w a
      obtain ⟨hreplies, hend⟩ := ih hafter
      exact ⟨congrArg₂ List.cons hreply hreplies, hend⟩

end Moment

end Wiring
