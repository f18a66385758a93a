/-
What the record of a workshop tells.

* `Workshop.Filled`: parameters that are resolved one after the other, with the products that
  the requests for them are served with;
* `Workshop.Prepared`: how a factory comes to be called;
* `Workshop.Recorded`: a record in which every construction was begun for a request, and every
  call was prepared, together with all products that were handed to factories;
  `Workshop.Reached.recorded`: **the record is like this at every moment**;
* `Workshop.Conserves`: the products that are made anew are not multiplied: what is handed over
  and what is answered was made in the meantime, or was there before;
* `Workshop.Course.recorded`: **every task keeps both**;
* `Workshop.Reached.precedence`: **all factories on record were called after those of the types
  that they depend on**.
-/
import Wiring.Proofs.Workshop.Nesting
import Wiring.Proofs.Workshop.Renewal

namespace Wiring

variable {σ V : Type}

/-- Without a place nothing is kept. -/
lemma Shelf.product?_of_contains_eq_false {s : Shelf V} {key : TypeKey}
    (h : s.contains key = false) : s.product? key = none := by
  rw [Option.eq_none_iff_forall_ne_some]
  intro i hi
  rw [contains_of_product? hi] at h
  cases h

namespace Workshop

variable {w : Workshop σ V} {m m' : Moment σ V}

/-! ### Parameters that are filled -/

/-- The parameters are resolved from left to right, one after the other, while the types of
`stack` are under construction. Each that is not left out receives what it makes of the
product that a request for it is served with. -/
inductive Filled (w : Workshop σ V) (stack : List TypeKey) : List Parameter →
    List (Argument V) → List (Instance V) → Moment σ V → Moment σ V → Prop
  | nil {m : Moment σ V} : Filled w stack [] [] [] m m
  | skipped {p : Parameter} {ps : List Parameter} {as : List (Argument V)}
      {products : List (Instance V)} {m m' : Moment σ V} (skips : w.Skips p = true)
      (others : Filled w stack ps as products m m') :
      Filled w stack (p :: ps) (.absent :: as) products m m'
  | supplied {p : Parameter} {ps : List Parameter} {a : Argument V} {as : List (Argument V)}
      {product : Instance V} {products : List (Instance V)} {m m₁ m' : Moment σ V}
      (asks : w.Skips p = false) (serves : w.Serves stack (.of p.need.key) product m m₁)
      (fits : p.need.receive (.ok product) = .ok a)
      (others : Filled w stack ps as products m₁ m') :
      Filled w stack (p :: ps) (a :: as) (product :: products) m m'

section Filled

variable {stack : List TypeKey} {ps qs : List Parameter} {as bs : List (Argument V)}
  {products others : List (Instance V)}

/-- More parameters may be filled later. -/
lemma Filled.append {m₁ : Moment σ V} (h : w.Filled stack ps as products m m₁)
    (h' : w.Filled stack qs bs others m₁ m') :
    w.Filled stack (ps ++ qs) (as ++ bs) (products ++ others) m m' := by
  induction h with
  | nil => exact h'
  | skipped skips others ih => exact .skipped skips (ih h')
  | supplied asks serves fits others ih => exact .supplied asks serves fits (ih h')

/-- One more parameter is left out. -/
lemma Filled.skip (h : w.Filled stack ps as products m m') {p : Parameter}
    (skips : w.Skips p = true) :
    w.Filled stack (ps ++ [p]) (as ++ [.absent]) products m m' := by
  simpa using h.append (.skipped skips .nil)

/-- One more parameter is supplied. -/
lemma Filled.supply {m₁ : Moment σ V} (h : w.Filled stack ps as products m m₁) {p : Parameter}
    {a : Argument V} {product : Instance V} (asks : w.Skips p = false)
    (serves : w.Serves stack (.of p.need.key) product m₁ m')
    (fits : p.need.receive (.ok product) = .ok a) :
    w.Filled stack (ps ++ [p]) (as ++ [a]) (products ++ [product]) m m' :=
  h.append (.supplied asks serves fits .nil)

/-- Parameters that are filled are resolved. -/
lemma Filled.resolved (h : w.Filled stack ps as products m m') :
    (resolveAll w.book.produces (w.fetch stack) ps).runFrom m = (.ok as, m') := by
  induction h with
  | nil => rfl
  | skipped skips others ih =>
      rw [runFrom_resolveAll_cons, Need.runFrom_resolve_of_not _ skips]
      dsimp only
      rw [ih]
  | supplied asks serves fits others ih =>
      rw [runFrom_resolveAll_cons, runFrom_resolve_fetch asks, serves.served]
      dsimp only
      rw [fits]
      dsimp only
      rw [ih]

/-- Each argument is what its parameter was resolved to, at some moment. -/
lemma Filled.resolved_each (h : w.Filled stack ps as products m m') :
    List.Forall₂ (fun p a => ∃ n n', (p.need.resolve w.book.produces (w.fetch stack)).runFrom n =
      (.ok a, n')) ps as := by
  induction h with
  | nil => exact .nil
  | @skipped p ps as products m m' skips others ih =>
      exact .cons ⟨m, m, Need.runFrom_resolve_of_not p.need skips m⟩ ih
  | @supplied p ps a as product products m m₁ m' asks serves fits others ih =>
      refine .cons ⟨m, m₁, ?_⟩ ih
      rw [runFrom_resolve_fetch asks, serves.served]
      dsimp only
      rw [fits]

/-- What happened before is still on record when the parameters are filled. -/
lemma Filled.trace_prefix (h : w.Filled stack ps as products m m') : m.trace <+: m'.trace := by
  induction h with
  | nil => exact List.prefix_rfl
  | skipped skips others ih => exact ih
  | supplied asks serves fits others ih => exact serves.grows.trans ih

/-- The singletons that the parameters use are made by the time that all are filled. -/
lemma Filled.made_ne_nil (h : w.Filled stack ps as products m m') {p : Parameter} (hp : p ∈ ps)
    (hk : w.book.keeps p.need.key) : w.made p.need.key m'.trace ≠ [] := by
  induction h with
  | nil => cases hp
  | @skipped q ps as products m m' skips others ih =>
      rcases List.mem_cons.1 hp with rfl | hp
      · -- a singleton has a recipe, so no parameter for it is left out
        have hproduces : w.book.produces p.need.key = false := by
          simpa using (Bool.and_eq_true_iff.1 skips).2
        rw [Book.produces_of_keeps hk] at hproduces
        cases hproduces
      · exact ih hp
  | @supplied q ps a as product products m m₁ m' asks serves fits others ih =>
      rcases List.mem_cons.1 hp with rfl | hp
      · obtain ⟨new, hnew⟩ := others.trace_prefix
        have hmade : w.made p.need.key m₁.trace = [product] := serves.kept hk
        rw [← hnew, made_append, hmade]
        exact List.cons_ne_nil product _
      · exact ih hp

end Filled

/-! ### Calls that are prepared -/

/-- An entry of a list is the last one, or it stands before the last one. -/
lemma eq_or_exists_of_concat_eq {α : Type} {as before after : List α} {a b : α}
    (h : as ++ [a] = before ++ b :: after) :
    (as = before ∧ a = b) ∨ ∃ after', as = before ++ b :: after' := by
  rcases List.eq_nil_or_concat after with rfl | ⟨after', c, rfl⟩
  · obtain ⟨has, ha⟩ := List.append_inj' h rfl
    exact .inl ⟨has, List.singleton_inj.1 ha⟩
  · rw [List.concat_eq_append, ← List.cons_append, ← List.append_assoc] at h
    exact .inr ⟨after', (List.append_inj' h rfl).1⟩

/-- At the moment `n` a request for `inner` is made, while the types of `stack` are under
construction, that comes to an attempt to make a product by the recipe `r`. -/
structure Attempt (w : Workshop σ V) (stack : List TypeKey) (inner : TypeRef)
    (r : Recipe σ V) (make : Factory σ V (Value V)) (n : Moment σ V) : Prop where
  passes : w.Passes stack inner n
  found : w.book.recipe? inner.key = some r
  source : r.source = .factory make
  empty : n.shelf.product? inner.key = none

/-- How a factory comes to be called after the events `before`: an attempt is made from the
moment `n` on, and all its parameters are filled, from the given products, at the moment
`n'`. -/
structure Prepared (w : Workshop σ V) (before : List (Event V)) (serial : ℕ)
    (arguments : List (Argument V)) (call : Call (Value V)) (stack : List TypeKey)
    (inner : TypeRef) (r : Recipe σ V) (products : List (Instance V)) (n n' : Moment σ V) :
    Prop where
  attempt : ∃ make, w.Attempt stack inner r make n ∧ call = (make arguments n'.world).1
  filled : w.Filled (inner.key :: stack) r.parameters arguments products
    (n.record (.began (inner.key :: stack))) n'
  serial : n'.calls = serial
  trace : n'.trace = before

/-- A record in which each construction was begun for a request and each call was prepared.
Here `handed` are all products that the parameters of the calls were filled from, in order. -/
inductive Recorded (w : Workshop σ V) : List (Event V) → List (Instance V) → Prop
  | nil : Recorded w [] []
  | began {trace : List (Event V)} {handed : List (Instance V)} {stack : List TypeKey}
      {inner : TypeRef} {n : Moment σ V} (before : Recorded w trace handed)
      (passes : w.Passes stack inner n) (now : n.trace = trace) :
      Recorded w (trace ++ [.began (inner.key :: stack)]) handed
  | called {trace : List (Event V)} {handed : List (Instance V)} {serial : ℕ}
      {arguments : List (Argument V)} {call : Call (Value V)} {stack : List TypeKey}
      {inner : TypeRef} {r : Recipe σ V} {products : List (Instance V)} {n n' : Moment σ V}
      (before : Recorded w trace handed)
      (prepared : w.Prepared trace serial arguments call stack inner r products n n') :
      Recorded w (trace ++ [.called serial inner.key arguments call]) (handed ++ products)
  | closing {trace : List (Event V)} {handed : List (Instance V)} {e : Event V}
      (before : Recorded w trace handed) (closes : e.IsClosing) :
      Recorded w (trace ++ [e]) handed

section Recorded

variable {trace : List (Event V)} {handed : List (Instance V)}

lemma Recorded.closings (h : w.Recorded trace handed) {closing : List (Event V)}
    (hclosing : ∀ e ∈ closing, e.IsClosing) : w.Recorded (trace ++ closing) handed := by
  induction closing generalizing trace with
  | nil => simpa using h
  | cons e rest ih =>
      rw [List.append_cons]
      exact ih (h.closing (hclosing e (List.mem_cons_self ..)))
        fun f hf => hclosing f (List.mem_cons_of_mem e hf)

lemma Recorded.reported (h : w.Recorded m.trace handed) (name : String)
    (answer : Except Halt (Instance V)) : w.Recorded (m.reported name answer).trace handed := by
  obtain ⟨closing, htrace, hclosing⟩ := m.exists_closing_reported name answer
  rw [htrace]
  exact h.closings hclosing

lemma Recorded.released (h : w.Recorded m.trace handed) (wanted : TypeRef)
    (answer : Except Halt (Instance V)) :
    w.Recorded (m.released wanted answer).trace handed := by
  obtain ⟨closing, htrace, hclosing⟩ := m.exists_closing_released wanted answer
  rw [htrace]
  exact h.closings hclosing

/-- Every construction on record was begun for a request. -/
lemma Recorded.passes (h : w.Recorded trace handed) {key : TypeKey} {stack : List TypeKey}
    (hbegan : .began (key :: stack) ∈ trace) :
    ∃ inner n, inner.key = key ∧ w.Passes stack inner n := by
  induction h with
  | nil => cases hbegan
  | @began trace handed below inner n before passes now ih =>
      rcases List.mem_append.1 hbegan with hbegan | hbegan
      · exact ih hbegan
      · obtain ⟨rfl, rfl⟩ : key = inner.key ∧ stack = below := by simpa using hbegan
        exact ⟨inner, n, rfl, passes⟩
  | called before prepared ih => exact ih (by simpa using hbegan)
  | closing before closes ih =>
      rcases List.mem_append.1 hbegan with hbegan | hbegan
      · exact ih hbegan
      · rw [← List.mem_singleton.1 hbegan] at closes
        cases closes

/-- Every call on record was prepared, whatever its outcome. -/
lemma Recorded.prepared (h : w.Recorded trace handed) {before after : List (Event V)}
    {serial : ℕ} {key : TypeKey} {arguments : List (Argument V)} {call : Call (Value V)}
    (ht : trace = before ++ .called serial key arguments call :: after) :
    ∃ stack inner r products n n', inner.key = key ∧
      w.Prepared before serial arguments call stack inner r products n n' := by
  -- the call is the last event on record, or it was on record before the last one
  induction h generalizing after with
  | nil => simp at ht
  | began earlier passes now ih =>
      rcases eq_or_exists_of_concat_eq ht with ⟨-, he⟩ | ⟨after', htrace⟩
      · cases he
      · exact ih htrace
  | @called trace handed serial' arguments' call' stack inner r products n n' earlier prepared ih =>
      rcases eq_or_exists_of_concat_eq ht with ⟨rfl, he⟩ | ⟨after', htrace⟩
      · obtain ⟨rfl, rfl, rfl, rfl⟩ : serial' = serial ∧ inner.key = key ∧
            arguments' = arguments ∧ call' = call := by simpa using he
        exact ⟨stack, inner, r, products, n, n', rfl, prepared⟩
      · exact ih htrace
  | closing earlier closes ih =>
      rcases eq_or_exists_of_concat_eq ht with ⟨-, rfl⟩ | ⟨after', htrace⟩
      · cases closes
      · exact ih htrace

end Recorded

/-! ### Products that are made anew -/

/-- How often a product of the type `key` with this origin is among some products. -/
def copies (key : TypeKey) (origin : Origin) (products : List (Instance V)) : ℕ :=
  products.countP fun i => i.value.key = key ∧ i.origin = origin

@[simp] lemma copies_nil (key : TypeKey) (origin : Origin) :
    copies key origin ([] : List (Instance V)) = 0 := rfl

@[simp] lemma copies_append (key : TypeKey) (origin : Origin)
    (products others : List (Instance V)) :
    copies key origin (products ++ others) =
      copies key origin products + copies key origin others := List.countP_append

lemma copies_eq_zero {key : TypeKey} {products : List (Instance V)}
    (h : ∀ i ∈ products, i.value.key ≠ key) (origin : Origin) : copies key origin products = 0 :=
  List.countP_eq_zero.2 fun i hi => by simp [h i hi]

/-- Products that are made anew are not multiplied between two moments: what is handed to
factories meanwhile, and what is answered, was `held` at the beginning or is made meanwhile, and
nothing of it counts twice. -/
def Conserves (w : Workshop σ V) (held handed : List (Instance V))
    (answer : Except Halt (Instance V)) (m m' : Moment σ V) : Prop :=
  ∀ key origin, w.book.renews key →
    copies key origin handed + copies key origin answer.toOption.toList +
        copies key origin (w.made key m.trace) ≤
      copies key origin held + copies key origin (w.made key m'.trace)

/-! ### Tasks -/

/-- A task that comes up at the moment `m`. An attempt that is under way holds the products
that its parameters were filled from so far. -/
def Task.Due (w : Workshop σ V) (stack : List TypeKey) (held : List (Instance V))
    (m : Moment σ V) : Task σ V → Prop
  | .serve wanted => held = [] ∧ w.Passes stack wanted m
  | .build r make ready rest => ∃ below inner n done, stack = inner.key :: below ∧
    w.Attempt below inner r make n ∧ r.parameters = done ++ rest ∧
    w.Filled stack done ready held (n.record (.began stack)) m

section Due

variable {stack : List TypeKey} {r : Recipe σ V} {make : Factory σ V (Value V)}
  {ready : List (Argument V)} {p : Parameter} {rest : List Parameter}
  {held : List (Instance V)}

/-- An attempt begins without any arguments. -/
lemma Attempt.due {inner : TypeRef} (h : w.Attempt stack inner r make m) :
    (Task.build r make [] r.parameters).Due w (inner.key :: stack) []
      (m.record (.began (inner.key :: stack))) :=
  ⟨stack, inner, m, [], rfl, h, rfl, .nil⟩

/-- A request for a parameter comes up when those before it are filled. -/
lemma Task.Due.parameter (h : (Task.build r make ready (p :: rest)).Due w stack held m)
    (asks : w.Skips p = false) :
    (Task.serve (σ := σ) (V := V) (.of p.need.key)).Due w stack [] m := by
  obtain ⟨below, inner, n, done, rfl, hattempt, hsplit, hfilled⟩ := h
  exact ⟨rfl, hattempt.passes.nested (.deeper hattempt.found hattempt.source hattempt.empty
    hsplit hfilled.resolved asks .itself)⟩

/-- One more parameter is left out. -/
lemma Task.Due.skip (h : (Task.build r make ready (p :: rest)).Due w stack held m)
    (skips : w.Skips p = true) :
    (Task.build r make (ready ++ [.absent]) rest).Due w stack held m := by
  obtain ⟨below, inner, n, done, rfl, hattempt, hsplit, hfilled⟩ := h
  exact ⟨below, inner, n, done ++ [p], rfl, hattempt, by simpa using hsplit,
    hfilled.skip skips⟩

/-- One more parameter is supplied. -/
lemma Task.Due.supply (h : (Task.build r make ready (p :: rest)).Due w stack held m)
    {product : Instance V} {a : Argument V} (asks : w.Skips p = false)
    (serves : w.Serves stack (.of p.need.key) product m m')
    (fits : p.need.receive (.ok product) = .ok a) :
    (Task.build r make (ready ++ [a]) rest).Due w stack (held ++ [product]) m' := by
  obtain ⟨below, inner, n, done, rfl, hattempt, hsplit, hfilled⟩ := h
  exact ⟨below, inner, n, done ++ [p], rfl, hattempt, by simpa using hsplit,
    hfilled.supply asks serves fits⟩

/-- When all parameters are filled, the call is prepared. -/
lemma Task.Due.prepared (h : (Task.build r make ready []).Due w stack held m) :
    ∃ below inner n, w.Attempt below inner r make n ∧ w.Prepared m.trace m.calls ready
      (make ready m.world).1 below inner r held n m := by
  obtain ⟨below, inner, n, done, rfl, hattempt, hsplit, hfilled⟩ := h
  rw [List.append_nil] at hsplit
  exact ⟨below, inner, n, hattempt, ⟨make, hattempt, rfl⟩, hsplit ▸ hfilled, rfl, rfl⟩

end Due

/-- A call hands over what the attempt held, and answers what it makes. -/
lemma conserves_called {r : Recipe σ V} {make : Factory σ V (Value V)}
    {ready : List (Argument V)} {held : List (Instance V)}
    {answer : Except Halt (Instance V)} (hmake : ∀ arguments world value,
      (make arguments world).1.outcome = .made value → value.key = r.key)
    (ended : (w.call r make ready).runFrom m = (answer, m')) :
    w.Conserves held held answer m m' := by
  rw [runFrom_call] at ended
  obtain ⟨hanswer, rfl⟩ := Prod.mk.inj ended
  intro key origin hrenews
  dsimp only
  rw [made_append, copies_append]
  have hcount : copies key origin answer.toOption.toList ≤ copies key origin
      (w.made key [.called m.calls r.key ready (make ready m.world).1]) := by
    cases answer with
    | error halt => simp [Except.toOption]
    | ok product =>
        by_cases hkey : r.key = key
        · subst hkey
          rw [made_called hanswer]
          exact le_rfl
        · -- a product of another factory is of another type
          have hother : product.value.key ≠ key := by
            cases houtcome : (make ready m.world).1.outcome with
            | made value =>
                rw [houtcome] at hanswer
                obtain rfl := Except.ok.inj hanswer
                exact fun h => hkey ((hmake ready m.world value houtcome).symm.trans h)
            | failed cause =>
                rw [houtcome] at hanswer
                cases hanswer
            | panicked text =>
                rw [houtcome] at hanswer
                cases hanswer
          rw [copies_eq_zero (by simpa [Except.toOption] using hother)]
          exact Nat.zero_le _
  omega

lemma conserves_nothing (halt : Halt) (m : Moment σ V) {held : List (Instance V)} :
    w.Conserves held [] (.error halt) m m := by
  intro key origin hrenews
  simp [Except.toOption]

/-- Nothing is said of products that are not made anew. -/
lemma conserves_of_not_renews {product : Instance V} {held : List (Instance V)}
    (h : ¬ w.book.renews product.value.key) : w.Conserves held [] (.ok product) m m := by
  intro key origin hrenews
  have hne : product.value.key ≠ key := by
    rintro rfl
    exact h hrenews
  have hnone : copies key origin [product] = 0 :=
    copies_eq_zero (by simpa using hne) origin
  simp [Except.toOption, hnone]

/-- What is answered to a request for a parameter is held from then on. -/
lemma Conserves.trans {m₁ : Moment σ V} {product : Instance V}
    {held more others : List (Instance V)} {answer : Except Halt (Instance V)} (h : w.Conserves [] more (.ok product) m m₁)
    (h' : w.Conserves (held ++ [product]) others answer m₁ m') :
    w.Conserves held (more ++ others) answer m m' := by
  intro key origin hrenews
  have hfirst := h key origin hrenews
  have hsecond := h' key origin hrenews
  have hproduct : (Except.ok product : Except Halt (Instance V)).toOption.toList = [product] := rfl
  rw [hproduct, copies_nil] at hfirst
  rw [copies_append] at hsecond ⊢
  omega

/-- What was answered, and what was held, may be lost. -/
lemma Conserves.drop {given : Except Halt (Instance V)} {held more : List (Instance V)}
    {halt : Halt} (h : w.Conserves [] more given m m') :
    w.Conserves held more (.error halt) m m' := by
  intro key origin hrenews
  have hless := h key origin hrenews
  have hnone : (Except.error halt : Except Halt (Instance V)).toOption.toList = [] := rfl
  rw [copies_nil] at hless
  rw [hnone, copies_nil]
  omega

/-- **Every task leaves the record as it should be, and multiplies no products.** -/
theorem Course.recorded (hb : w.book.Keyed) (ha : w.book.Acyclic)
    (hw : ∀ key r, w.book.recipe? key = some r → r.WellTyped) {stack : List TypeKey}
    {task : Task σ V} {answer : Except Halt (Instance V)}
    (hc : Course w stack task m answer m') {held handed : List (Instance V)}
    (hd : task.Due w stack held m) (hl : w.Ledger settled m) (ht : Typed m)
    (hr : w.Recorded m.trace handed) :
    ∃ more, w.Recorded m'.trace (handed ++ more) ∧ w.Conserves held more answer m m' := by
  -- what an attempt holds and what is on record differ at each nested task
  induction hc generalizing held handed with
  | missing absent => exact ⟨[], by simpa using hr, conserves_nothing _ _⟩
  | @given stack wanted m r product found source =>
      have hcourse : Course w stack (.serve wanted) m (.ok product) m := .given found source
      have htyped : product.value.key = wanted.key :=
        (hcourse.typed hb hw trivial ht).2 product rfl
      refine ⟨[], by simpa using hr, conserves_of_not_renews ?_⟩
      rw [htyped]
      exact Book.not_renews_of_given found source
  | @shelved stack wanted m r make product found source there =>
      have htyped : product.value.key = wanted.key := ht _ _ there
      refine ⟨[], by simpa using hr, conserves_of_not_renews ?_⟩
      rw [htyped]
      exact hl.placed.not_renews (Shelf.contains_of_product? there)
  | @passed stack wanted m m' r make answer found source placeless built ih =>
      obtain ⟨rfl, hpasses⟩ := hd
      have hempty : m.shelf.product? wanted.key = none :=
        Shelf.product?_of_contains_eq_false placeless
      obtain ⟨more, hrecorded, hconserves⟩ :=
        ih (Attempt.due ⟨hpasses, found, source, hempty⟩) (hl.began _) ht (hr.began hpasses rfl)
      refine ⟨more, hrecorded.reported _ _, fun key origin hrenews => ?_⟩
      simpa using hconserves key origin hrenews
  | @kept stack wanted m m' r make answer found source placed empty built ih =>
      obtain ⟨rfl, hpasses⟩ := hd
      obtain ⟨more, hrecorded, hconserves⟩ :=
        ih (Attempt.due ⟨hpasses, found, source, empty⟩) (hl.began _) ht (hr.began hpasses rfl)
      refine ⟨more, (hrecorded.reported _ _).released _ _, fun key origin hrenews => ?_⟩
      simpa using hconserves key origin hrenews
  | @called stack r make ready m m' answer ended =>
      obtain ⟨below, inner, n, hattempt, hprepared⟩ := hd.prepared
      have hsound := Task.sound_of_wellTyped (hw _ r hattempt.found) hattempt.source
      refine ⟨held, ?_, conserves_called hsound ended⟩
      rw [runFrom_call] at ended
      obtain ⟨-, rfl⟩ := Prod.mk.inj ended
      dsimp only
      rw [hb.key_of_recipe? hattempt.found]
      exact hr.called hprepared
  | skipped skips others ih => exact ih (hd.skip skips) hl ht hr
  | @supplied stack r make ready p rest m m₁ m' given answer argument asks served fits others
      ihs iho =>
      -- the attempt holds the product of the request from here on, until the call hands it over
      obtain ⟨product, rfl, -⟩ := Need.exists_of_receive_eq_ok fits
      have hdue := hd.parameter asks
      obtain ⟨hs, hn⟩ := hdue.2.isStack
      have hserves := served.serves hb ha hw hs hn hl ht
      have hledger := (served.ledger hb ha trivial hl).1
      have htyped := (served.typed hb hw trivial ht).1
      obtain ⟨more, hrecorded, hconserves⟩ := ihs hdue hl ht hr
      obtain ⟨others, hrecorded', hconserves'⟩ :=
        iho (hd.supply asks hserves fits) hledger htyped hrecorded
      rw [List.append_assoc] at hrecorded'
      exact ⟨more ++ others, hrecorded', hconserves.trans hconserves'⟩
  | stopped asks served unfit ih =>
      obtain ⟨more, hrecorded, hconserves⟩ := ih (hd.parameter asks) hl ht hr
      exact ⟨more, hrecorded, hconserves.drop⟩

/-! ### The life of a workshop -/

/-- A request from outside leaves the record as it should be, and multiplies no products. -/
lemma Rests.serve_recorded (hb : w.book.Keyed) (ha : w.book.Acyclic)
    (hw : ∀ key r, w.book.recipe? key = some r → r.WellTyped) (h : w.Rests m)
    {handed : List (Instance V)} (hr : w.Recorded m.trace handed) (wanted : TypeRef) :
    ∃ more, w.Recorded ((w.getInstance wanted).runFrom m).2.trace (handed ++ more) ∧
      w.Conserves [] more ((w.getInstance wanted).runFrom m).1 m
        ((w.getInstance wanted).runFrom m).2 :=
  (course_getInstance ha wanted m).recorded hb ha hw ⟨rfl, h.passes wanted⟩
    (h.invariant ha (invariant_ledger hb ha)) (h.invariant ha (invariant_typed hb hw)) hr

/-- When nothing is under construction, the record is as it should be, and no product that is
made anew was handed over twice. -/
lemma Rests.recorded (hb : w.book.Keyed) (ha : w.book.Acyclic)
    (hw : ∀ key r, w.book.recipe? key = some r → r.WellTyped) (h : w.Rests m) :
    ∃ handed, w.Recorded m.trace handed ∧ ∀ key origin, w.book.renews key →
      copies key origin handed ≤ copies key origin (w.made key m.trace) := by
  induction h with
  | @blank m shelf calls quiet =>
      have hrecorded : w.Recorded ([] ++ m.trace) [] := Recorded.nil.closings fun e he => by
        obtain ⟨notice, rfl⟩ := quiet e he
        trivial
      exact ⟨[], hrecorded, fun key origin hrenews => Nat.zero_le _⟩
  | noted rests notice ih =>
      obtain ⟨handed, hrecorded, hcopies⟩ := ih
      refine ⟨handed, hrecorded.closing trivial, fun key origin hrenews => ?_⟩
      simpa using hcopies key origin hrenews
  | @served m rests wanted ih =>
      obtain ⟨handed, hrecorded, hcopies⟩ := ih
      obtain ⟨more, hrecorded', hconserves⟩ :=
        rests.serve_recorded hb ha hw hrecorded wanted
      refine ⟨handed ++ more, hrecorded', fun key origin hrenews => ?_⟩
      have hbefore := hcopies key origin hrenews
      have hmeanwhile := hconserves key origin hrenews
      rw [copies_nil] at hmeanwhile
      rw [copies_append]
      omega
  | elsewhere rests world ih => exact ih

/-- **The record is as it should be at every moment that is reached.** -/
theorem Reached.recorded (h : w.Reached m) : ∃ handed, w.Recorded m.trace handed := by
  obtain ⟨handed, hrecorded, -⟩ :=
    h.rests.recorded h.keyed h.complete.acyclic fun _ _ => h.wellTyped
  exact ⟨handed, hrecorded⟩

/-! ### What comes before a call -/

/-- **Factories are called after those that they depend on.** At every moment that is reached,
for every call on record, whatever its outcome: it ended an attempt in which all parameters
were resolved before, from left to right. For each declared dependency on a singleton that is
made by a factory, this factory had made it by then. Each parameter for a product that is made
anew received the product of a call that its factory made just for it, after the parameters to
its left and before those to its right were resolved. -/
theorem Reached.precedence (h : w.Reached m) {before after : List (Event V)} {serial : ℕ}
    {key : TypeKey} {arguments : List (Argument V)} {call : Call (Value V)}
    (ht : m.trace = before ++ .called serial key arguments call :: after) :
    ∃ stack inner r products n n', inner.key = key ∧ w.book.recipe? key = some r ∧
      w.Prepared before serial arguments call stack inner r products n n' ∧
      (resolveAll w.book.produces (w.fetch (key :: stack)) r.parameters).runFrom
        (n.record (.began (key :: stack))) = (.ok arguments, n') ∧
      ∀ d ∈ r.dependencies, w.book.keeps d.type.key → w.made d.type.key before ≠ [] := by
  obtain ⟨handed, hrecorded⟩ := h.recorded
  obtain ⟨stack, inner, r, products, n, n', rfl, hprepared⟩ := hrecorded.prepared ht
  obtain ⟨make, hattempt, -⟩ := hprepared.attempt
  refine ⟨stack, inner, r, products, n, n', rfl, hattempt.found, hprepared,
    hprepared.filled.resolved, fun d hd hk => ?_⟩
  obtain ⟨p, hp, rfl⟩ := List.mem_map.1 hd
  rw [← hprepared.trace]
  exact hprepared.filled.made_ne_nil hp hk

/-- In the sample the factory of the second singleton is called with the first one, which was
made and put on the shelf before. -/
theorem precedence_sample :
    let w := sample [needsFirst]
    let first : Instance Unit := ⟨.of (.product 0), .built 0 0, .product 0 ()⟩
    let before : List (Event Unit) := [.began [.product 1], .began [.product 0, .product 1],
      .called 0 (.product 0) [] ⟨.made (.product 0 ()), []⟩,
      .noted (.constructed (TypeRef.of (.product 0)).name), .shelved (.product 0) first]
    let call : Call (Value Unit) := ⟨.made (.product 1 ()), []⟩
    (∃ after, (w.run [.ask (.get (.product 1))] (sampleStart [needsFirst])).2.trace =
      before ++ .called 1 (.product 1) [.shared first] call :: after) ∧
    ∃ stack inner r products n n', inner.key = .product 1 ∧
      w.book.recipe? (.product 1) = some r ∧
      w.Prepared before 1 [.shared first] call stack inner r products n n' ∧
      (resolveAll w.book.produces (w.fetch (.product 1 :: stack)) r.parameters).runFrom
        (n.record (.began (.product 1 :: stack))) = (.ok [.shared first], n') ∧
      ∀ d ∈ r.dependencies, w.book.keeps d.type.key → w.made d.type.key before ≠ [] := by
  intro w first before call
  have htrace : (w.run [.ask (.get (.product 1))] (sampleStart [needsFirst])).2.trace =
      before ++ .called 1 (.product 1) [.shared first] call ::
        [.noted (.constructed (TypeRef.of (.product 1)).name),
          .shelved (.product 1) ⟨.of (.product 1), .built 0 1, .product 1 ()⟩] := rfl
  exact ⟨⟨_, htrace⟩,
    Reached.precedence ((opened_sample rfl).reached [.ask (.get (.product 1))]) htrace⟩

end Workshop

end Wiring
