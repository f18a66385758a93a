/-
Requests that are made for other requests.

* `Workshop.Nested`: the requests that are made, directly or through others, to serve a
  request, each with the types under construction and the moment when it is made;
  `Workshop.Nested.isStack`: each is for something that the innermost of these types depends
  on;
* `Workshop.Rests`, `Workshop.Passes`: the moments when nothing is under construction, and the
  requests that are made from such a moment on; `Workshop.Reached.rests`,
  `Workshop.rests_opening`: **nothing is under construction at the moments that are reached, or
  after an opening that failed**;
* `Workshop.Passes.keeps`: **what every request leaves true is true whenever one is made**;
  `Workshop.Passes.supplied`: a property of all products that the recipes come up with is one
  of all that is answered.
-/
import Wiring.Proofs.Workshop.Missing
import Wiring.Proofs.Workshop.Performance

namespace Wiring

variable {σ V : Type}

namespace Workshop

variable {w : Workshop σ V} {m m' : Moment σ V}

/-! ### Requests below requests -/

/-- To serve a request for `wanted` that is made at the moment `m`, while the types of the
first stack are under construction, a request for `inner` is made at the moment `n`, while the
types of the second stack are: it is the same request, or one made for a parameter of an
attempt to make a product of `wanted`, when the parameters before it are resolved. -/
inductive Nested (w : Workshop σ V) : List TypeKey → TypeRef → Moment σ V →
    List TypeKey → TypeRef → Moment σ V → Prop
  | itself {stack : List TypeKey} {wanted : TypeRef} {m : Moment σ V} :
      Nested w stack wanted m stack wanted m
  | deeper {stack below : List TypeKey} {wanted inner : TypeRef} {m m₁ n : Moment σ V}
      {r : Recipe σ V} {make : Factory σ V (Value V)} {arguments : List (Argument V)}
      {before after : List Parameter} {p : Parameter}
      (found : w.book.recipe? wanted.key = some r) (source : r.source = .factory make)
      (empty : m.shelf.product? wanted.key = none)
      (parameters : r.parameters = before ++ p :: after)
      (resolved : (resolveAll w.book.produces (w.fetch (wanted.key :: stack))
        before).runFrom (m.record (.began (wanted.key :: stack))) = (.ok arguments, m₁))
      (asks : w.Skips p = false)
      (nested : Nested w (wanted.key :: stack) (.of p.need.key) m₁ below inner n) :
      Nested w stack wanted m below inner n

/-- What is requested for a nested request is requested for the outer one. -/
lemma Nested.trans {stack below lower : List TypeKey} {wanted inner innermost : TypeRef}
    {n n' : Moment σ V} (h : w.Nested stack wanted m below inner n)
    (h' : w.Nested below inner n lower innermost n') :
    w.Nested stack wanted m lower innermost n' := by
  induction h with
  | itself => exact h'
  | deeper found source empty parameters resolved asks nested ih =>
      exact .deeper found source empty parameters resolved asks (ih h')

/-- A nested request is for something that the innermost type under construction depends
on. -/
lemma Nested.isStack {stack below : List TypeKey} {wanted inner : TypeRef} {n : Moment σ V}
    (h : w.Nested stack wanted m below inner n) (hs : w.book.IsStack stack)
    (hn : w.book.IsNext stack wanted.key) :
    w.book.IsStack below ∧ w.book.IsNext below inner.key := by
  induction h with
  | itself => exact ⟨hs, hn⟩
  | deeper found source empty parameters resolved asks nested ih =>
      exact ih (hs.push (Book.produces_iff.2 ⟨_, found⟩) hn)
        (Book.isNext_parameter found (by simp [parameters]))

/-- A request for a parameter is for a type with a recipe, if the book is complete. -/
lemma Nested.produces (hb : w.book.Keyed) (hc : w.book.Complete) {stack below : List TypeKey}
    {wanted inner : TypeRef} {n : Moment σ V} (h : w.Nested stack wanted m below inner n)
    (hp : stack ≠ [] → w.book.produces wanted.key) : below ≠ [] → w.book.produces inner.key := by
  induction h with
  | itself => exact hp
  | deeper found source empty parameters resolved asks nested ih =>
      exact ih fun _ => produces_of_asks hb hc found (by simp [parameters]) asks

/-! ### What requests leave true -/

/-- Something that is left true by the beginning of a construction, and by every request, those
for parameters included. -/
structure Lasting (w : Workshop σ V) (P : Moment σ V → Prop) : Prop where
  began : ∀ m stack, P m → P (m.record (.began stack))
  served : ∀ stack wanted m answer m', P m → Course w stack (.serve wanted) m answer m' → P m'

section Lasting

variable {P : Moment σ V → Prop} {stack : List TypeKey}

/-- What the requests for some parameters leave true when they are served, the parameters leave
true when they are resolved. -/
lemma keeps_resolveAll {ps : List Parameter} {as : List (Argument V)}
    (hserved : ∀ p ∈ ps, ∀ m product m', P m →
      (w.serveAt stack (.of p.need.key)).runFrom m = (.ok product, m') → P m') (hm : P m)
    (h : (Wiring.resolveAll w.book.produces (w.fetch stack) ps).runFrom m = (.ok as, m')) :
    P m' := by
  induction ps generalizing as m with
  | nil =>
      obtain ⟨-, rfl⟩ : [] = as ∧ m = m' := by simpa [Wiring.resolveAll] using h
      exact hm
  | cons p rest ih =>
      rw [runFrom_resolveAll_cons] at h
      rcases hp : (p.need.resolve w.book.produces (w.fetch stack)).runFrom m with
        ⟨halt | a, m₁⟩
      · simp [hp] at h
      · have hmid : P m₁ := by
          cases hskips : w.Skips p with
          | true =>
              rw [Need.runFrom_resolve_of_not p.need hskips] at hp
              obtain ⟨-, rfl⟩ := Prod.mk.inj hp
              exact hm
          | false =>
              rw [runFrom_resolve_fetch hskips] at hp
              obtain ⟨hreceived, rfl⟩ := Prod.mk.inj hp
              obtain ⟨product, hproduct, -⟩ := Need.exists_of_receive_eq_ok hreceived
              exact hserved p (List.mem_cons_self ..) m product _ hm (Prod.ext hproduct rfl)
        rw [hp] at h
        rcases hr : (Wiring.resolveAll w.book.produces (w.fetch stack) rest).runFrom m₁ with
          ⟨halt | others, m₂⟩
        · simp [hr] at h
        · obtain ⟨-, rfl⟩ : a :: others = as ∧ m₂ = m' := by simpa [hr] using h
          exact ih (fun q hq => hserved q (List.mem_cons_of_mem p hq)) hmid hr

/-- Parameters that are resolved leave it true. -/
lemma Lasting.resolveAll (hP : w.Lasting P) (ha : w.book.Acyclic) {ps : List Parameter}
    {as : List (Argument V)} (hs : w.book.IsStack stack)
    (hn : ∀ p ∈ ps, w.book.IsNext stack (TypeRef.of p.need.key).key) (hm : P m)
    (h : (resolveAll w.book.produces (w.fetch stack) ps).runFrom m = (.ok as, m')) : P m' := by
  refine keeps_resolveAll (fun p hp n product n' hn' hserved => ?_) hm h
  have hcourse := course_serveAt ha hs (hn p hp) n
  rw [hserved] at hcourse
  exact hP.served stack _ n _ n' hn' hcourse

lemma Lasting.nested (hP : w.Lasting P) (ha : w.book.Acyclic) {below : List TypeKey}
    {wanted inner : TypeRef} {n : Moment σ V} (h : w.Nested stack wanted m below inner n)
    (hs : w.book.IsStack stack) (hn : w.book.IsNext stack wanted.key) (hm : P m) : P n := by
  induction h with
  | itself => exact hm
  | @deeper stack below wanted inner m m₁ n r make arguments before after p found source empty
      parameters resolved asks nested ih =>
      have hpush := hs.push (Book.produces_iff.2 ⟨r, found⟩) hn
      have hmem : ∀ q ∈ before ++ [p], q ∈ r.parameters := by
        intro q hq
        rw [parameters]
        simp only [List.mem_append, List.mem_cons, List.not_mem_nil, or_false] at hq ⊢
        tauto
      have hmid : P m₁ := hP.resolveAll ha hpush (fun q hq =>
        Book.isNext_parameter found (hmem q (List.mem_append_left _ hq))) (hP.began m _ hm) resolved
      exact ih hpush (Book.isNext_parameter found (hmem p (by simp))) hmid

end Lasting

/-! ### The life of a workshop -/

/-- The moments when nothing is under construction, from before anything is made on. -/
inductive Rests (w : Workshop σ V) : Moment σ V → Prop
  | blank {m : Moment σ V} (shelf : m.shelf = w.emptyShelf) (calls : m.calls = 0)
      (quiet : ∀ e ∈ m.trace, ∃ notice, e = .noted notice) : Rests w m
  | noted {m : Moment σ V} (rests : Rests w m) (notice : Notice) :
      Rests w (m.record (.noted notice))
  | served {m : Moment σ V} (rests : Rests w m) (wanted : TypeRef) :
      Rests w ((w.getInstance wanted).runFrom m).2
  | elsewhere {m : Moment σ V} (rests : Rests w m) (world : σ) :
      Rests w { m with world := world }

/-- At the moment `n` of its life a workshop is asked for `inner`, from outside or for a
parameter, while the types of `stack` are under construction. -/
def Passes (w : Workshop σ V) (stack : List TypeKey) (inner : TypeRef) (n : Moment σ V) :
    Prop :=
  ∃ m wanted, w.Rests m ∧ w.Nested [] wanted m stack inner n

/-- A request from outside takes a course. -/
lemma course_getInstance (ha : w.book.Acyclic) (wanted : TypeRef) (m : Moment σ V) :
    Course w [] (.serve wanted) m ((w.getInstance wanted).runFrom m).1
      ((w.getInstance wanted).runFrom m).2 :=
  course_serveAt ha Book.isStack_nil (Book.isNext_nil wanted.key) m

/-- All invariants hold when nothing is under construction. -/
lemma Rests.invariant (ha : w.book.Acyclic) {P : Moment σ V → Prop} (hP : w.Invariant P)
    (h : w.Rests m) : P m := by
  induction h with
  | blank shelf calls quiet => exact hP.blank _ shelf calls quiet
  | noted rests notice ih => exact hP.noted _ notice ih
  | served rests wanted ih => exact hP.served _ wanted _ _ ih (course_getInstance ha wanted _)
  | elsewhere rests world ih => exact hP.elsewhere _ world ih

lemma invariant_rests (hb : w.book.Keyed) (ha : w.book.Acyclic) : w.Invariant w.Rests where
  blank m hshelf hcalls hquiet := .blank hshelf hcalls hquiet
  noted m notice hm := hm.noted notice
  served m wanted answer m' hm hc := by
    have hrun : (w.getInstance wanted).runFrom m = (answer, m') :=
      hc.runFrom_eq hb ha Book.isStack_nil (Book.isNext_nil wanted.key)
    have hserved := hm.served wanted
    rwa [hrun] at hserved
  elsewhere m world hm := hm.elsewhere world

/-- **Nothing is under construction at the moments that are reached.** -/
theorem Reached.rests (h : w.Reached m) : w.Rests m :=
  h.invariant (invariant_rests h.keyed h.complete.acyclic)

/-- **Nothing is under construction after an opening** that found no defects, whatever it ended
in. -/
theorem rests_opening (hb : w.book.Keyed) (hc : w.book.check = .ok ()) (world : σ)
    (notices : List Notice) :
    w.Rests (w.opening.run.run ⟨.empty, 0, world, notices.map .noted⟩).2 :=
  (invariant_rests hb ((Book.check_eq_ok_iff hb).1 hc).acyclic).opening hb hc rfl fun e he => by
    obtain ⟨notice, -, rfl⟩ := List.mem_map.1 he
    exact ⟨notice, rfl⟩

/-- Nor is anything after any acts that follow such a moment. -/
lemma Rests.run (hb : w.book.Keyed) (ha : w.book.Acyclic) (h : w.Rests m)
    (acts : List (Act σ)) : w.Rests (w.run acts m).2 :=
  (invariant_rests hb ha).run ha h acts

/-- Whatever is requested when nothing is under construction is requested in the life of the
workshop. -/
lemma Rests.passes (h : w.Rests m) (wanted : TypeRef) : w.Passes [] wanted m :=
  ⟨m, wanted, h, .itself⟩

lemma Passes.nested {stack below : List TypeKey} {wanted inner : TypeRef} {n : Moment σ V}
    (h : w.Passes stack wanted m) (hn : w.Nested stack wanted m below inner n) :
    w.Passes below inner n := by
  obtain ⟨m₀, wanted₀, hrests, houter⟩ := h
  exact ⟨m₀, wanted₀, hrests, houter.trans hn⟩

lemma Passes.isStack {stack : List TypeKey} {inner : TypeRef} {n : Moment σ V}
    (h : w.Passes stack inner n) : w.book.IsStack stack ∧ w.book.IsNext stack inner.key := by
  obtain ⟨m, wanted, -, hnested⟩ := h
  exact hnested.isStack Book.isStack_nil (Book.isNext_nil wanted.key)

/-- **What every request leaves true is true whenever one is made**, if it is an invariant of
the life of the workshop. -/
theorem Passes.keeps {P : Moment σ V → Prop} (hP : w.Lasting P) (hi : w.Invariant P)
    (ha : w.book.Acyclic) {stack : List TypeKey} {inner : TypeRef} {n : Moment σ V}
    (h : w.Passes stack inner n) : P n := by
  obtain ⟨m, wanted, hrests, hnested⟩ := h
  exact hP.nested ha hnested Book.isStack_nil (Book.isNext_nil wanted.key)
    (hrests.invariant ha hi)

/-! ### What products have in common -/

section Supplies

variable {P : TypeKey → Instance V → Prop} {stack : List TypeKey} {wanted : TypeRef}

lemma Supplies.lasting (hP : w.Supplies P) (hb : w.book.Keyed) : w.Lasting (Furnished P) where
  began _ _ hm := hm
  served _ _ _ _ _ hm hc := (hc.furnished hb hP trivial hm).1

/-- Whenever a request is made, what all recipes supply is all that is on the shelf. -/
lemma Passes.furnished (h : w.Passes stack wanted m) (hb : w.book.Keyed) (ha : w.book.Acyclic)
    (hP : w.Supplies P) : Furnished P m :=
  h.keeps (hP.lasting hb) (hP.invariant hb) ha

/-- It is all that is answered while that is so. -/
lemma Supplies.served (hP : w.Supplies P) (hb : w.book.Keyed) (ha : w.book.Acyclic)
    (hs : w.book.IsStack stack) (hn : w.book.IsNext stack wanted.key) (hm : Furnished P m)
    {product : Instance V} (hserved : (w.serveAt stack wanted).runFrom m = (.ok product, m')) :
    P wanted.key product := by
  have hcourse := course_serveAt ha hs hn m
  rw [hserved] at hcourse
  exact (hcourse.furnished hb hP trivial hm).2 product rfl

lemma Passes.supplied (h : w.Passes stack wanted m) (hb : w.book.Keyed) (ha : w.book.Acyclic)
    (hP : w.Supplies P) {product : Instance V}
    (hserved : (w.serveAt stack wanted).runFrom m = (.ok product, m')) : P wanted.key product :=
  hP.served hb ha h.isStack.1 h.isStack.2 (h.furnished hb ha hP) hserved

end Supplies

end Workshop

end Wiring
