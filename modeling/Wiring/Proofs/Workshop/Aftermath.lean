/-
What a failed query leaves behind.

* `Workshop.Fails`: how a query fails: its request breaks down, or it has no use for the
  product;
* `Workshop.Aftermath`: the shelf after a failed query, compared with the shelf before it;
* `Workshop.Reached.aftermath`: **at every moment a query that fails leaves the shelf like
  this, and only what then stands in the places matters for the replies to all later acts**.
-/
import Wiring.Proofs.Workshop.Alike
import Wiring.Proofs.Workshop.Missing

namespace Wiring

variable {σ V : Type}

namespace Workshop

/-- How a query that is made at the moment `m` fails: the types whose construction is in
progress then, what the query ends in, and the moment after it. -/
inductive Fails (w : Workshop σ V) (q : Query) (m : Moment σ V) :
    List TypeKey → Halt → Moment σ V → Prop
  | request {path : List TypeKey} {cause : Cause σ V} {halt : Halt} {m' : Moment σ V}
      (breaks : Breakdown w [] q.wanted m path cause halt m') : Fails w q m path halt m'
  | unfit {product : Instance V} {halt : Halt} {m' : Moment σ V}
      (served : (w.serveAt [] q.wanted).runFrom m = (.ok product, m'))
      (refused : q.receive (.ok product) = .error halt) : Fails w q m [] halt m'

/-- The shelf at `m'`, after a query that failed at `m` while the types of `path` were under
construction, when the events `new` happened meanwhile. -/
structure Aftermath (w : Workshop σ V) (q : Query) (path : List TypeKey)
    (new : List (Event V)) (m m' : Moment σ V) : Prop where
  trace : m'.trace = m.trace ++ new
  places : ∀ k, m'.shelf.contains k = m.shelf.contains k
  /-- Products stay in their places. -/
  keeps : ∀ k i, m.shelf.product? k = some i → m'.shelf.product? k = some i
  /-- What was under construction is not there. -/
  unfinished : ∀ k ∈ path, m'.shelf.product? k = none
  /-- The singleton that a get is for was under construction. -/
  requested : q.isGet = true → w.book.keeps q.wanted.key = true → q.wanted.key ∈ path
  /-- Places that were filled are those of types that the query leads to, and the products
  were made during the query. -/
  fresh : ∀ k i, m.shelf.product? k = none → m'.shelf.product? k = some i →
    w.book.Reaches q.wanted.key k ∧ i ∈ w.made k new
  /-- All other places are as before. -/
  others : ∀ k, ¬ w.book.Reaches q.wanted.key k →
    m'.shelf.product? k = m.shelf.product? k

variable {w : Workshop σ V} {m m' : Moment σ V}

/-- A query that fails at a moment that is reached does so in one of the two ways. -/
lemma Reached.exists_fails (h : w.Reached m) {q : Query} {halt : Halt}
    (he : (w.answer q).runFrom m = (.error halt, m')) : ∃ path, w.Fails q m path halt m' := by
  cases hidle : w.Idle q with
  | true =>
      rw [runFrom_answer_of_idle hidle] at he
      cases congrArg Prod.fst he
  | false =>
      rw [runFrom_answer hidle] at he
      obtain ⟨hanswer, rfl⟩ := Prod.mk.inj he
      rcases hserved : (w.serveAt [] q.wanted).runFrom m with ⟨halt' | product, m'⟩
      · obtain ⟨path, cause, hbreaks⟩ := h.exists_breakdown hserved
        rw [hserved] at hanswer
        have hhalt : halt' = halt := by
          cases q <;> exact Except.error.inj hanswer
        exact ⟨path, .request (hhalt ▸ hbreaks)⟩
      · rw [hserved] at hanswer
        exact ⟨[], .unfit hserved hanswer⟩

/-- A get has use for every product that its request answers. -/
lemma Reached.receive_ok (h : w.Reached m) {q : Query} (hq : q.isGet = true)
    {product : Instance V} (hs : (w.serveAt [] q.wanted).runFrom m = (.ok product, m')) :
    ∃ a, q.receive (.ok product) = .ok a := by
  have hcourse := h.course q.wanted m
  rw [hs] at hcourse
  obtain ⟨-, htyped⟩ := hcourse.typed h.keyed (fun _ _ => h.wellTyped) trivial h.typed
  have hkey : product.value.key = q.wanted.key := htyped product rfl
  cases q with
  | getInstance wanted => exact ⟨.shared product, rfl⟩
  | get key =>
      refine ⟨.shared product, ?_⟩
      rw [Query.receive, Need.receive, Need.take_of_key hkey]
      rfl
  | resolve need => cases hq

/-- The type that a failing get of a singleton is for was under construction. -/
lemma Reached.mem_path (h : w.Reached m) {q : Query} {path : List TypeKey} {halt : Halt}
    (hf : w.Fails q m path halt m') (hq : q.isGet = true)
    (hk : w.book.keeps q.wanted.key = true) : q.wanted.key ∈ path := by
  cases hf with
  | request breaks =>
      cases breaks with
      | unknown absent => simp [Book.keeps, absent] at hk
      | factory | unfit | deeper => exact List.mem_cons_self ..
  | unfit served refused =>
      obtain ⟨a, ha⟩ := h.receive_ok hq served
      rw [ha] at refused
      cases refused

/-- **A failed query does not spoil the shelf.** At every moment that is reached, if a query
ends in a failure or a panic, then either its request breaks down, so that in each of the
abandoned constructions the parameters after the failing one are not resolved and the factory
is not called, or it has no use for the product. In both cases all products stay, nothing is
put in the places of the types under construction, and other places are filled only by what
factories made meanwhile, for types that the query leads to. Whatever acts come later, the
replies are the same at every other moment with the same products in the same places. -/
theorem Reached.aftermath (h : w.Reached m) {q : Query} {halt : Halt}
    (he : (w.answer q).runFrom m = (.error halt, m')) :
    (∃ path new, w.Fails q m path halt m' ∧ w.Aftermath q path new m m') ∧
      ∀ n, m'.Alike n → ∀ acts, (w.run acts m').1 = (w.run acts n).1 := by
  refine ⟨?_, fun n hn acts => (hn.run w acts).1⟩
  obtain ⟨path, hfails⟩ := h.exists_fails he
  obtain ⟨new, hgrows⟩ := h.grows q
  rw [he] at hgrows
  have hunfinished : ∀ k ∈ path, m'.shelf.product? k = none := by
    cases hfails with
    | request breaks =>
        exact breaks.unfinished h.keyed h.complete.acyclic Book.isStack_nil
          (Book.isNext_nil q.wanted.key)
    | unfit served refused => exact fun k hk => by cases hk
  refine ⟨path, new, hfails, hgrows.trace, hgrows.places, hgrows.keeps, hunfinished,
    h.mem_path hfails, hgrows.fresh, fun k hk => ?_⟩
  cases hm : m.shelf.product? k with
  | none => exact hgrows.eq_none hm hk
  | some i => exact hgrows.keeps k i hm

/-- In the sample a get of the second singleton fails when the first one is on the shelf
already. -/
theorem aftermath_sample :
    ∃ m', ((sample [needsFirst, needsSetting]).answer (.get (.product 1))).runFrom
        (sampleStart [needsFirst, needsSetting]) =
          (.error (.failed (.missing (TypeKey.product 7).name)), m') ∧
      m'.shelf.product? (.product 0) =
        some ⟨.of (.product 0), .built 0 0, .product 0 ()⟩ ∧
      (∃ path new, (sample [needsFirst, needsSetting]).Fails (.get (.product 1))
          (sampleStart [needsFirst, needsSetting]) path
          (.failed (.missing (TypeKey.product 7).name)) m' ∧
        (sample [needsFirst, needsSetting]).Aftermath (.get (.product 1)) path new
          (sampleStart [needsFirst, needsSetting]) m') ∧
      ∀ n, m'.Alike n → ∀ acts, ((sample [needsFirst, needsSetting]).run acts m').1 =
        ((sample [needsFirst, needsSetting]).run acts n).1 :=
  ⟨_, rfl, by decide, Reached.aftermath ((opened_sample rfl).reached []) rfl⟩

end Workshop

end Wiring
