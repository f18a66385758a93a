/-
How tasks are carried out.

* `Workshop.Task.request`: what a task comes to when it is carried out;
  `Workshop.Course.runFrom_eq`: **a task takes just one course**, the one that it is carried
  out by;
* `Workshop.serve_eq_serveAt`: **more room for nested requests makes no difference**, and
  `Workshop.Course.ne_tooDeep`: none of them ends for lack of room.
-/
import Wiring.Proofs.Workshop.Course

namespace Wiring

open Relation

variable {σ V : Type}

namespace Workshop

variable {w : Workshop σ V} {m m' : Moment σ V} {answer : Except Halt (Instance V)}

/-! ### One course for each task -/

/-- What a task comes to when it is carried out while the types of `stack` are under
construction. -/
def Task.request (w : Workshop σ V) (stack : List TypeKey) : Task σ V → Request σ V (Instance V)
  | .serve wanted => w.serveAt stack wanted
  | .build r make ready rest =>
    resolveAll w.book.produces (w.fetch stack) rest >>= fun others =>
      w.call r make (ready ++ others)

/-- A task that can come up while the types of `stack` are under construction: a request for
something that the innermost type depends on, or the making of a product of that type. -/
def Task.Below (b : Book σ V) (stack : List TypeKey) : Task σ V → Prop
  | .serve wanted => b.IsNext stack wanted.key
  | .build r _ _ rest => b.recipe? r.key = some r ∧ stack.head? = some r.key ∧
    ∀ p ∈ rest, p ∈ r.parameters

section Below

variable {b : Book σ V} {stack : List TypeKey} {r : Recipe σ V}
  {make : Factory σ V (Value V)} {ready ready' : List (Argument V)} {p : Parameter}
  {rest : List Parameter}

lemma Task.below_start {wanted : TypeRef} (hb : b.Keyed)
    (hr : b.recipe? wanted.key = some r) :
    (Task.build r make [] r.parameters).Below b (wanted.key :: stack) := by
  have hkey := hb.key_of_recipe? hr
  exact ⟨hkey ▸ hr, by rw [hkey]; rfl, fun p hp => hp⟩

lemma Task.Below.parameter (h : (Task.build r make ready (p :: rest)).Below b stack) :
    (Task.serve (σ := σ) (V := V) (.of p.need.key)).Below b stack := by
  obtain ⟨hr, hhead, hrest⟩ := h
  intro t ht hp
  obtain rfl : r.key = t := Option.some.inj (hhead.symm.trans ht)
  exact Book.dependsOn_of_parameter hr (hrest p (List.mem_cons_self ..)) hp

lemma Task.Below.next (h : (Task.build r make ready (p :: rest)).Below b stack) :
    (Task.build r make ready' rest).Below b stack :=
  ⟨h.1, h.2.1, fun q hq => h.2.2 q (List.mem_cons_of_mem p hq)⟩

end Below

/-- What a parameter receives, given the answer to the request that is made for it. -/
lemma runFrom_resolve_of_served {stack : List TypeKey} {p : Parameter}
    (asks : w.Skips p = false)
    (h : ((Task.serve (.of p.need.key)).request w stack).runFrom m = (answer, m')) :
    (p.need.resolve w.book.produces (w.fetch stack)).runFrom m =
      (p.need.receive answer, m') := by
  rw [Task.request] at h
  rw [runFrom_resolve_fetch asks, h]

/-- If the first parameter is resolved, the rest of the task is carried out with what it
receives. -/
lemma runFrom_build_cons {stack : List TypeKey} {r : Recipe σ V}
    {make : Factory σ V (Value V)} {ready : List (Argument V)} {p : Parameter}
    {rest : List Parameter} {m₁ : Moment σ V} {argument : Argument V}
    (h : (p.need.resolve w.book.produces (w.fetch stack)).runFrom m = (.ok argument, m₁)) :
    ((Task.build r make ready (p :: rest)).request w stack).runFrom m =
      ((Task.build r make (ready ++ [argument]) rest).request w stack).runFrom m₁ := by
  rw [Task.request, Task.request, Request.runFrom_bind, Request.runFrom_bind,
    runFrom_resolveAll_cons, h]
  dsimp only
  rcases (resolveAll w.book.produces (w.fetch stack) rest).runFrom m₁ with ⟨halt | others, m₂⟩
  · rfl
  · simp

/-- **A task takes just one course**, the one that it is carried out by. -/
theorem Course.runFrom_eq (hb : w.book.Keyed) (ha : w.book.Acyclic) {stack : List TypeKey}
    {task : Task σ V} (hc : Course w stack task m answer m') (hs : w.book.IsStack stack)
    (ht : task.Below w.book stack) : (task.request w stack).runFrom m = (answer, m') := by
  induction hc with
  | missing absent =>
      rw [Task.request, serveAt_of_none (hs.length_le ha) absent]
      rfl
  | given found source =>
      rw [Task.request, serveAt_of_given (hs.length_le ha) found source]
      rfl
  | shelved found source there =>
      rw [Task.request, serveAt_of_factory (hs.length_le ha) found source]
      exact runFrom_fromShelf_of_product there
  | @passed stack wanted m m' r make answer found source placeless built ih =>
      have hbuilt := ih (hs.push (Book.produces_iff.2 ⟨r, found⟩) ht) (Task.below_start hb found)
      have hnone : m.shelf.get? wanted.key = none := by simpa [Table.contains] using placeless
      rw [Task.request, serveAt_of_factory (hs.length_le ha) found source,
        runFrom_fromShelf_of_none hnone, runFrom_construct]
      rw [Task.request] at hbuilt
      simp only [List.nil_append] at hbuilt
      rw [hbuilt]
  | @kept stack wanted m m' r make answer found source placed empty built ih =>
      have hbuilt := ih (hs.push (Book.produces_iff.2 ⟨r, found⟩) ht) (Task.below_start hb found)
      obtain ⟨place, hplace⟩ := Option.isSome_iff_exists.1 placed
      have hproduct : place.product = none := by
        simpa [Shelf.product?, hplace] using empty
      rw [Task.request, serveAt_of_factory (hs.length_le ha) found source,
        runFrom_fromShelf_of_empty hplace hproduct, runFrom_construct]
      rw [Task.request] at hbuilt
      simp only [List.nil_append] at hbuilt
      rw [hbuilt]
  | called ended =>
      rw [Task.request, resolveAll, Request.runFrom_bind, Request.runFrom_pure]
      simpa using ended
  | skipped skips others ih =>
      rw [runFrom_build_cons (Need.runFrom_resolve_of_not _ skips _)]
      exact ih hs ht.next
  | supplied asks served fits others ihs iho =>
      rw [runFrom_build_cons (fits ▸ runFrom_resolve_of_served asks (ihs hs ht.parameter))]
      exact iho hs ht.next
  | stopped asks served unfit ih =>
      rw [Task.request, Request.runFrom_bind, runFrom_resolveAll_cons,
        runFrom_resolve_of_served asks (ih hs ht.parameter), unfit]

/-! ### Room for nested requests -/

end Workshop

/-- What a need receives depends on the requests for the type that it uses only. -/
lemma Need.resolve_congr {produces : TypeKey → Bool}
    {obtain obtain' : TypeKey → Request σ V (Instance V)} {need : Need}
    (h : obtain need.key = obtain' need.key) :
    need.resolve produces obtain = need.resolve produces obtain' := by
  have hoptional : ∀ need : Need, obtain need.key = obtain' need.key →
      need.resolveOptional produces obtain = need.resolveOptional produces obtain' := by
    intro need h
    induction need with
    | shared key => rw [resolveOptional, resolveOptional, show obtain key = obtain' key from h]
    | setting index =>
        rw [resolveOptional, resolveOptional, lookUp, lookUp,
          show obtain .settings = obtain' .settings from h]
    | optional inner ih => rw [resolveOptional, resolveOptional, ih h]
  cases need with
  | shared key => rw [resolve, resolve, show obtain key = obtain' key from h]
  | setting index =>
      rw [resolve, resolve, lookUp, lookUp, show obtain .settings = obtain' .settings from h]
  | optional inner => rw [resolve, resolve, hoptional inner h]

lemma resolveAll_congr {produces : TypeKey → Bool}
    {obtain obtain' : TypeKey → Request σ V (Instance V)} {ps : List Parameter}
    (h : ∀ p ∈ ps, obtain p.need.key = obtain' p.need.key) :
    resolveAll produces obtain ps = resolveAll produces obtain' ps := by
  induction ps with
  | nil => rfl
  | cons p rest ih =>
      rw [resolveAll, resolveAll, Need.resolve_congr (h p (List.mem_cons_self ..)),
        ih fun q hq => h q (List.mem_cons_of_mem p hq)]

namespace Workshop

variable {w : Workshop σ V} {m m' : Moment σ V}

/-- **More room for nested requests makes no difference.** -/
theorem serve_eq_serveAt (ha : w.book.Acyclic) {stack : List TypeKey} {wanted : TypeRef}
    (hs : w.book.IsStack stack) (hn : w.book.IsNext stack wanted.key) {room : ℕ}
    (hroom : w.room ≤ room + stack.length) :
    w.serve room stack wanted = w.serveAt stack wanted := by
  induction hs using Book.IsStack.induction ha generalizing wanted room with
  | step stack hs ih =>
      have hle := hs.length_le ha
      obtain ⟨room, rfl⟩ : ∃ left, room = left + 1 := by
        refine ⟨room - 1, ?_⟩
        rw [Workshop.room] at hroom
        omega
      rw [serve_succ]
      cases hr : w.book.recipe? wanted.key with
      | none => rw [serveAt_of_none hle hr]
      | some r =>
          cases hsource : r.source with
          | given product =>
              rw [serveAt_of_given hle hr hsource]
              dsimp only
              rw [hsource]
          | factory make =>
              have hbelow : ∀ p ∈ r.parameters,
                  (w.serve room (wanted.key :: stack) (.of p.need.key) >>=
                    checked p.need.key) = w.fetch (wanted.key :: stack) p.need.key := by
                intro p hp
                rw [fetch, ih wanted.key (hs.push (Book.produces_iff.2 ⟨r, hr⟩) hn)
                  (Book.isNext_parameter hr hp)]
                rw [List.length_cons]
                omega
              rw [serveAt_of_factory hle hr hsource]
              dsimp only
              rw [hsource]
              dsimp only
              rw [construct, construct, resolveAll_congr hbelow]

/-- No course ends for lack of room. -/
lemma Course.ne_tooDeep {stack : List TypeKey} {task : Task σ V}
    {answer : Except Halt (Instance V)} (hc : Course w stack task m answer m') :
    answer ≠ .error .tooDeep := by
  induction hc with
  | missing absent => simp
  | given found source => simp
  | shelved found source there => simp
  | passed found source placeless built ih => exact ih
  | kept found source placed empty built ih => exact ih
  | @called stack r make ready m m' answer ended =>
      rw [runFrom_call] at ended
      obtain ⟨rfl, -⟩ := Prod.mk.inj ended
      rcases (make ready m.world).1.outcome with value | cause | text <;> simp [answerOf]
  | skipped skips others ih => exact ih
  | supplied asks served fits others ihs iho => exact iho
  | @stopped stack r make ready p rest m m' given halt asks served unfit ih =>
      rcases given with halt' | product
      · obtain rfl : halt' = halt := Except.error.inj unfit
        exact ih
      · rw [Need.receive] at unfit
        cases htake : p.need.take product with
        | error failure =>
            rw [htake] at unfit
            obtain rfl : .failed failure = halt := Except.error.inj unfit
            simp
        | ok argument =>
            rw [htake] at unfit
            cases unfit

end Workshop

end Wiring
