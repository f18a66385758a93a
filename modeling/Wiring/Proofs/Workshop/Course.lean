/-
The course that a request takes, as a relation between the moments before and after it
that knows no bound on the nesting.

* `Workshop.Course`: the course of a request and of the making of a product, one rule for
  each way it can go on;
* `Book.IsStack`: types under construction, each of which depends on the one begun after
  it; in a book without circles they are different, so that there are never more of them
  than the book has (`Book.IsStack.length_le`);
* `Workshop.course_serveAt`: **in a book without circles every request takes such a
  course**, and never runs out of room for nested requests.
-/
import Mathlib.Data.List.Nodup
import Wiring.Proofs.Book.Graph
import Wiring.Proofs.Workshop.Supply

namespace Wiring

open Relation

variable {σ V : Type}

namespace Book

variable {b : Book σ V}

/-- Types with recipes, each of which the one after it depends on: the types under
construction, the innermost first. -/
structure IsStack (b : Book σ V) (stack : List TypeKey) : Prop where
  linked : b.IsPath stack.reverse
  produced : ∀ k ∈ stack, b.produces k

/-- The type that a request below `stack` is for: the innermost type depends on it. -/
def IsNext (b : Book σ V) (stack : List TypeKey) (key : TypeKey) : Prop :=
  ∀ t ∈ stack.head?, b.produces key → b.DependsOn t key

lemma isStack_nil : b.IsStack [] := ⟨List.isChain_nil, fun _ h => by cases h⟩

lemma isNext_nil (key : TypeKey) : b.IsNext [] key := fun _ h => by simp at h

lemma IsStack.push {stack : List TypeKey} (h : b.IsStack stack) {key : TypeKey}
    (hp : b.produces key) (hn : b.IsNext stack key) : b.IsStack (key :: stack) := by
  refine ⟨?_, List.forall_mem_cons.2 ⟨hp, h.produced⟩⟩
  rw [IsPath, List.reverse_cons, List.isChain_append]
  refine ⟨h.linked, List.isChain_singleton _, fun t ht u hu => ?_⟩
  rw [List.getLast?_reverse] at ht
  obtain rfl : key = u := by simpa using hu
  exact hn t ht hp

/-- Without circles not more types are under construction than the book has. -/
lemma IsStack.length_le (hb : b.Acyclic) {stack : List TypeKey} (h : b.IsStack stack) :
    stack.length ≤ b.size :=
  length_le_size (List.nodup_reverse.1 (hb.nodup_of_isPath h.linked)) h.produced

/-- Without circles stacks can not grow forever: what holds of a stack whenever it holds of
all stacks with one more type holds of every stack. -/
lemma IsStack.induction (ha : b.Acyclic) {P : ∀ stack, b.IsStack stack → Prop}
    (step : ∀ stack h, (∀ key h, P (key :: stack) h) → P stack h)
    {stack : List TypeKey} (h : b.IsStack stack) : P stack h := by
  -- no stack is longer than the book, so what is left up to its size gets less and less
  obtain ⟨left, hleft⟩ : ∃ left, b.size < left + stack.length := ⟨b.size + 1, by omega⟩
  induction left generalizing stack with
  | zero =>
      have hle := h.length_le ha
      omega
  | succ left ih =>
      refine step stack h fun key hkey => ih hkey ?_
      rw [List.length_cons]
      omega

/-- Every type under construction leads to the innermost one. -/
lemma IsStack.transGen {t u : TypeKey} {stack : List TypeKey} (h : b.IsStack (t :: stack))
    (hu : u ∈ stack) : TransGen b.DependsOn u t := by
  have hpairs := h.linked.pairwise
  rw [List.reverse_cons, List.pairwise_append] at hpairs
  exact hpairs.2.2 u (List.mem_reverse.2 hu) t (List.mem_singleton_self t)

/-- Without circles nobody can go from a type to one that it depends on forever. -/
lemma Acyclic.wellFounded (ha : b.Acyclic) : WellFounded (Function.swap b.DependsOn) := by
  have hacc : ∀ {stack : List TypeKey}, b.IsStack stack →
      ∀ t ∈ stack.head?, Acc (Function.swap b.DependsOn) t := by
    intro stack hs
    induction hs using IsStack.induction ha with
    | step stack hs ih =>
        intro t ht
        obtain ⟨below, rfl⟩ : ∃ below, stack = t :: below := by
          cases stack <;> simp_all
        refine ⟨t, fun u hu => ih u (hs.push hu.1 ?_) u rfl⟩
        rintro _ ⟨⟩ -
        exact hu
  refine ⟨fun t => ⟨t, fun u hu => ?_⟩⟩
  exact hacc (isStack_nil.push hu.1 (isNext_nil u)) u rfl

/-- A recipe depends on what its parameters use. -/
lemma dependsOn_of_parameter {t : TypeKey} {r : Recipe σ V} {p : Parameter}
    (hr : b.recipe? t = some r) (hp : p ∈ r.parameters) (hk : b.produces p.need.key) :
    b.DependsOn t p.need.key :=
  ⟨hk, r, hr, p.dependency, List.mem_map_of_mem hp, rfl⟩

/-- What a parameter uses comes next while its recipe's type is under construction. -/
lemma isNext_parameter {t : TypeKey} {r : Recipe σ V} {p : Parameter}
    (hr : b.recipe? t = some r) (hp : p ∈ r.parameters) {stack : List TypeKey} :
    b.IsNext (t :: stack) (TypeRef.of p.need.key).key := by
  intro u hu hk
  obtain rfl : t = u := by simpa using hu
  exact dependsOn_of_parameter hr hp hk

end Book

namespace Workshop

/-- A part of a request. -/
inductive Task (σ V : Type) where
  /-- To serve a request for a type. -/
  | serve (wanted : TypeRef)
  /-- To make a product of a recipe with a factory, when some arguments are there and the
  rest of the parameters is not resolved yet. -/
  | build (r : Recipe σ V) (make : Factory σ V (Value V)) (ready : List (Argument V))
      (rest : List Parameter)

/-- The course of a task while the types of a stack are under construction, from one moment
to its answer and the moment after it. -/
inductive Course (w : Workshop σ V) : List TypeKey → Task σ V → Moment σ V →
    Except Halt (Instance V) → Moment σ V → Prop
  | missing {stack : List TypeKey} {wanted : TypeRef} {m : Moment σ V}
      (absent : w.book.recipe? wanted.key = none) :
      Course w stack (.serve wanted) m (.error (.failed (.missing wanted.name))) m
  | given {stack : List TypeKey} {wanted : TypeRef} {m : Moment σ V} {r : Recipe σ V}
      {product : Instance V} (found : w.book.recipe? wanted.key = some r)
      (source : r.source = .given product) :
      Course w stack (.serve wanted) m (.ok product) m
  | shelved {stack : List TypeKey} {wanted : TypeRef} {m : Moment σ V} {r : Recipe σ V}
      {make : Factory σ V (Value V)} {product : Instance V}
      (found : w.book.recipe? wanted.key = some r) (source : r.source = .factory make)
      (there : m.shelf.product? wanted.key = some product) :
      Course w stack (.serve wanted) m (.ok product) m
  | passed {stack : List TypeKey} {wanted : TypeRef} {m m' : Moment σ V} {r : Recipe σ V}
      {make : Factory σ V (Value V)} {answer : Except Halt (Instance V)}
      (found : w.book.recipe? wanted.key = some r) (source : r.source = .factory make)
      (placeless : m.shelf.contains wanted.key = false)
      (built : Course w (wanted.key :: stack) (.build r make [] r.parameters)
        (m.record (.began (wanted.key :: stack))) answer m') :
      Course w stack (.serve wanted) m answer (m'.reported wanted.name answer)
  | kept {stack : List TypeKey} {wanted : TypeRef} {m m' : Moment σ V} {r : Recipe σ V}
      {make : Factory σ V (Value V)} {answer : Except Halt (Instance V)}
      (found : w.book.recipe? wanted.key = some r) (source : r.source = .factory make)
      (placed : m.shelf.contains wanted.key = true)
      (empty : m.shelf.product? wanted.key = none)
      (built : Course w (wanted.key :: stack) (.build r make [] r.parameters)
        (m.record (.began (wanted.key :: stack))) answer m') :
      Course w stack (.serve wanted) m answer
        ((m'.reported wanted.name answer).released wanted answer)
  | called {stack : List TypeKey} {r : Recipe σ V} {make : Factory σ V (Value V)}
      {ready : List (Argument V)} {m m' : Moment σ V} {answer : Except Halt (Instance V)}
      (ended : (w.call r make ready).runFrom m = (answer, m')) :
      Course w stack (.build r make ready []) m answer m'
  | skipped {stack : List TypeKey} {r : Recipe σ V} {make : Factory σ V (Value V)}
      {ready : List (Argument V)} {p : Parameter} {rest : List Parameter}
      {m m' : Moment σ V} {answer : Except Halt (Instance V)} (skips : w.Skips p = true)
      (others : Course w stack (.build r make (ready ++ [.absent]) rest) m answer m') :
      Course w stack (.build r make ready (p :: rest)) m answer m'
  | supplied {stack : List TypeKey} {r : Recipe σ V} {make : Factory σ V (Value V)}
      {ready : List (Argument V)} {p : Parameter} {rest : List Parameter}
      {m m₁ m' : Moment σ V} {given answer : Except Halt (Instance V)}
      {argument : Argument V} (asks : w.Skips p = false)
      (served : Course w stack (.serve (.of p.need.key)) m given m₁)
      (fits : p.need.receive given = .ok argument)
      (others : Course w stack (.build r make (ready ++ [argument]) rest) m₁ answer m') :
      Course w stack (.build r make ready (p :: rest)) m answer m'
  | stopped {stack : List TypeKey} {r : Recipe σ V} {make : Factory σ V (Value V)}
      {ready : List (Argument V)} {p : Parameter} {rest : List Parameter}
      {m m' : Moment σ V} {given : Except Halt (Instance V)} {halt : Halt}
      (asks : w.Skips p = false)
      (served : Course w stack (.serve (.of p.need.key)) m given m')
      (unfit : p.need.receive given = .error halt) :
      Course w stack (.build r make ready (p :: rest)) m (.error halt) m'

variable {w : Workshop σ V}

/-! ### Every request takes a course -/

/-- If the requests for the parameters take their courses, the making of the product does. -/
lemma course_build {stack : List TypeKey} {r : Recipe σ V} {make : Factory σ V (Value V)}
    {rest : List Parameter}
    (hserve : ∀ p ∈ rest, ∀ m, Course w stack (.serve (.of p.need.key)) m
      ((w.serveAt stack (.of p.need.key)).runFrom m).1
      ((w.serveAt stack (.of p.need.key)).runFrom m).2)
    {ready : List (Argument V)} {m m' : Moment σ V} {answer : Except Halt (Instance V)}
    (h : (resolveAll w.book.produces (w.fetch stack) rest >>= fun others =>
      w.call r make (ready ++ others)).runFrom m = (answer, m')) :
    Course w stack (.build r make ready rest) m answer m' := by
  induction rest generalizing ready m with
  | nil =>
      rw [Request.runFrom_bind] at h
      refine .called ?_
      simpa [resolveAll] using h
  | cons p rest ih =>
      have ih' := fun ready m => @ih (fun q hq => hserve q (List.mem_cons_of_mem _ hq)) ready m
      rw [Request.runFrom_bind, runFrom_resolveAll_cons] at h
      cases hskip : w.Skips p with
      | true =>
          rw [Need.runFrom_resolve_of_not p.need hskip] at h
          refine .skipped hskip (ih' _ _ ?_)
          rw [Request.runFrom_bind]
          rcases hr : (resolveAll w.book.produces (w.fetch stack) rest).runFrom m with
            ⟨halt | others, m₁⟩ <;> simpa [hr] using h
      | false =>
          rw [runFrom_resolve_fetch hskip] at h
          have hserved := hserve p (by simp) m
          rcases hs : (w.serveAt stack (.of p.need.key)).runFrom m with ⟨given, m₁⟩
          rw [hs] at h hserved
          cases hfit : p.need.receive given with
          | error halt =>
              obtain ⟨rfl, rfl⟩ : .error halt = answer ∧ m₁ = m' := by simpa [hfit] using h
              exact .stopped hskip hserved hfit
          | ok argument =>
              refine .supplied hskip hserved hfit (ih' _ _ ?_)
              rw [Request.runFrom_bind]
              rcases hr : (resolveAll w.book.produces (w.fetch stack) rest).runFrom m₁ with
                ⟨halt | others, m₂⟩ <;> simpa [hfit, hr] using h

/-- An attempt takes a course if the requests for its parameters do. -/
lemma course_construct {stack : List TypeKey} {wanted : TypeRef} {r : Recipe σ V}
    (make : Factory σ V (Value V))
    (hserve : ∀ p ∈ r.parameters, ∀ m,
      Course w (wanted.key :: stack) (.serve (.of p.need.key)) m
      ((w.serveAt (wanted.key :: stack) (.of p.need.key)).runFrom m).1
      ((w.serveAt (wanted.key :: stack) (.of p.need.key)).runFrom m).2)
    (m : Moment σ V) :
    ∃ answer m', Course w (wanted.key :: stack) (.build r make [] r.parameters)
        (m.record (.began (wanted.key :: stack))) answer m' ∧
      (w.construct stack wanted r make (w.fetch (wanted.key :: stack))).runFrom m =
        (answer, m'.reported wanted.name answer) := by
  rw [runFrom_construct]
  rcases h : (resolveAll w.book.produces (w.fetch (wanted.key :: stack)) r.parameters >>=
    w.call r make).runFrom (m.record (.began (wanted.key :: stack))) with ⟨answer, m'⟩
  exact ⟨answer, m', course_build hserve h, rfl⟩

/-- If an attempt takes a course, so does the request that makes it for the shelf. -/
lemma course_fromShelf {stack : List TypeKey} {wanted : TypeRef} {r : Recipe σ V}
    {make : Factory σ V (Value V)} {attempt : Request σ V (Instance V)}
    {m m' : Moment σ V} {answer : Except Halt (Instance V)}
    (hr : w.book.recipe? wanted.key = some r) (hsource : r.source = .factory make)
    (hbuilt : Course w (wanted.key :: stack) (.build r make [] r.parameters)
      (m.record (.began (wanted.key :: stack))) answer m')
    (hattempt : attempt.runFrom m = (answer, m'.reported wanted.name answer)) :
    Course w stack (.serve wanted) m ((fromShelf wanted attempt).runFrom m).1
      ((fromShelf wanted attempt).runFrom m).2 := by
  cases hplace : m.shelf.get? wanted.key with
  | none =>
      rw [runFrom_fromShelf_of_none hplace, hattempt]
      exact .passed hr hsource (by simp [Table.contains, hplace]) hbuilt
  | some place =>
      have hplaced : m.shelf.contains wanted.key = true := by
        simp [Table.contains, hplace]
      have hproduct : m.shelf.product? wanted.key = place.product := by
        simp [Shelf.product?, hplace]
      cases hthere : place.product with
      | none =>
          rw [runFrom_fromShelf_of_empty hplace hthere, hattempt]
          exact .kept hr hsource hplaced (hproduct.trans hthere) hbuilt
      | some product =>
          rw [runFrom_fromShelf_of_product (hproduct.trans hthere)]
          exact .shelved hr hsource (hproduct.trans hthere)

/-- **Every request takes a course**, whatever is under construction, if there are no
circles of dependencies. -/
theorem course_serveAt (ha : w.book.Acyclic) {stack : List TypeKey} {wanted : TypeRef}
    (hs : w.book.IsStack stack) (hn : w.book.IsNext stack wanted.key) (m : Moment σ V) :
    Course w stack (.serve wanted) m ((w.serveAt stack wanted).runFrom m).1
      ((w.serveAt stack wanted).runFrom m).2 := by
  induction hs using Book.IsStack.induction ha generalizing wanted m with
  | step stack hs ih =>
      have hle := hs.length_le ha
      cases hr : w.book.recipe? wanted.key with
      | none =>
          rw [serveAt_of_none hle hr]
          exact .missing hr
      | some r =>
          cases hsource : r.source with
          | given product =>
              rw [serveAt_of_given hle hr hsource]
              exact .given hr hsource
          | factory make =>
              rw [serveAt_of_factory hle hr hsource]
              have hpush := hs.push (Book.produces_iff.2 ⟨r, hr⟩) hn
              obtain ⟨answer, m', hbuilt, hattempt⟩ := course_construct make
                (fun p hmem m => ih wanted.key hpush (Book.isNext_parameter hr hmem) m) m
              exact course_fromShelf hr hsource hbuilt hattempt

end Workshop

end Wiring
