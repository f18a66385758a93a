/-
The factories that a request calls.

* `Book.renews`: whether the products of a type are made anew for every request;
* `Workshop.callsOf`: the calls of the factory of a type during some events;
  `Workshop.Course.callsOf_eq`: **a task calls only factories of types that it leads to**;
  `Workshop.Course.made_build`: **an attempt calls its own factory just once**, at the end;
* `Workshop.Serves`: a request that is served with a product, and how its factory came to make
  it; `Workshop.Course.serves`: every request that succeeds is like this.
-/
import Wiring.Proofs.Workshop.Performance
import Wiring.Proofs.Workshop.Singleton

namespace Wiring

open Relation

variable {σ V : Type}

namespace Book

/-- Whether the products of a type are made by a factory, anew for every request. -/
def renews (b : Book σ V) (key : TypeKey) : Bool :=
  (b.recipe? key).any fun r => r.lifetime = .transient && !r.isGiven

variable {b : Book σ V} {key : TypeKey}

/-- The products of a type that are made anew are made by a factory, and not kept. -/
lemma exists_of_renews (h : b.renews key) :
    ∃ r make, b.recipe? key = some r ∧ r.source = .factory make ∧ r.isKept = false := by
  obtain ⟨r, hr, hrenews⟩ := (Option.any_eq_true _ _).1 h
  obtain ⟨htransient, hmade⟩ := Bool.and_eq_true_iff.1 hrenews
  have hlifetime : r.lifetime = .transient := of_decide_eq_true htransient
  cases hsource : r.source with
  | given product => simp [Recipe.isGiven, hsource] at hmade
  | factory make => exact ⟨r, make, hr, hsource, by simp [Recipe.isKept, hlifetime]⟩

lemma keeps_of_renews (h : b.renews key) : b.keeps key = false := by
  obtain ⟨r, make, hr, -, hkept⟩ := exists_of_renews h
  rw [keeps, hr]
  exact hkept

/-- What a factory makes is kept, if it is not made anew. -/
lemma keeps_of_not_renews {r : Recipe σ V} {make : Factory σ V (Value V)}
    (hr : b.recipe? key = some r) (hs : r.source = .factory make) (h : b.renews key = false) :
    b.keeps key = true := by
  have hmade : r.isGiven = false := by rw [Recipe.isGiven, hs]
  cases hlifetime : r.lifetime with
  | singleton => simp [keeps, hr, Recipe.isKept, hlifetime, hmade]
  | transient => simp [renews, hr, hlifetime, hmade] at h

/-- A value that exists already is not made. -/
lemma not_renews_of_given {r : Recipe σ V} {product : Instance V}
    (hr : b.recipe? key = some r) (hs : r.source = .given product) : ¬ b.renews key := by
  intro h
  obtain ⟨q, make, hq, hmake, -⟩ := exists_of_renews h
  obtain rfl := Option.some.inj (hr.symm.trans hq)
  rw [hs] at hmake
  cases hmake

lemma produces_of_keeps (h : b.keeps key) : b.produces key := by
  obtain ⟨r, hr, -⟩ := (Option.any_eq_true _ _).1 h
  exact produces_iff.2 ⟨r, hr⟩

end Book

/-- Neither the beginning of a construction nor the call of a factory. -/
def Event.IsClosing : Event V → Prop
  | .shelved .. | .noted _ => True
  | _ => False

/-- Whether an event is a call of the factory of `key`. -/
def Event.isCallOf (key : TypeKey) : Event V → Bool
  | .called _ k _ _ => k = key
  | _ => false

namespace Moment

variable (m : Moment σ V)

lemma exists_closing_reported (name : String) (answer : Except Halt (Instance V)) :
    ∃ closing, (m.reported name answer).trace = m.trace ++ closing ∧
      ∀ e ∈ closing, e.IsClosing := by
  obtain ⟨notices, htrace⟩ := m.exists_trace_reported name answer
  refine ⟨_, htrace, fun e he => ?_⟩
  obtain ⟨notice, -, rfl⟩ := List.mem_map.1 he
  trivial

lemma exists_closing_released (wanted : TypeRef) (answer : Except Halt (Instance V)) :
    ∃ closing, (m.released wanted answer).trace = m.trace ++ closing ∧
      ∀ e ∈ closing, e.IsClosing := by
  cases answer with
  | error halt =>
      exact ⟨[], by rw [m.trace_released_error, List.append_nil], fun e he => by cases he⟩
  | ok product =>
      refine ⟨[.noted (.constructed wanted.name), .shelved wanted.key product], ?_, ?_⟩
      · simp [released, store, record]
      · simp [Event.IsClosing]

end Moment

namespace Workshop

variable {w : Workshop σ V} {m m' : Moment σ V} {answer : Except Halt (Instance V)}

/-! ### The calls of a task -/

/-- A task that has no use for the factory of `key`. -/
def Task.Spares (b : Book σ V) (key : TypeKey) : Task σ V → Prop
  | .serve wanted => ¬ b.Reaches wanted.key key
  | .build r _ _ rest => r.key ≠ key ∧ ∀ p ∈ rest, ¬ b.Reaches p.need.key key

/-- The calls of the factory of `key` during some events, in order. -/
def callsOf (key : TypeKey) (events : List (Event V)) : List (Event V) :=
  events.filter (Event.isCallOf key)

/-- What a factory made shows in its calls. -/
lemma made_callsOf (key : TypeKey) (events : List (Event V)) :
    w.made key (callsOf key events) = w.made key events := by
  rw [callsOf, made, made, List.filterMap_filter]
  refine List.filterMap_congr fun e _ => ?_
  rcases e with stack | ⟨serial, k, arguments, value | cause | text, notices⟩ | _ | notice <;>
    simp [madeBy, Event.isCallOf]

lemma made_eq_of_callsOf {key : TypeKey} {events events' : List (Event V)}
    (h : callsOf key events' = callsOf key events) : w.made key events' = w.made key events := by
  rw [← made_callsOf, h, made_callsOf]

lemma callsOf_of_closing {closing : List (Event V)} (h : ∀ e ∈ closing, e.IsClosing)
    (key : TypeKey) : callsOf key closing = [] := by
  refine List.filter_eq_nil_iff.2 fun e he => ?_
  cases e with
  | called serial k arguments call => cases h _ he
  | began stack | shelved k product | noted notice => exact Bool.false_ne_true

@[simp] lemma callsOf_append (key : TypeKey) (before after : List (Event V)) :
    callsOf key (before ++ after) = callsOf key before ++ callsOf key after :=
  List.filter_append ..

@[simp] lemma callsOf_reported (key : TypeKey) (m : Moment σ V) (name : String)
    (answer : Except Halt (Instance V)) :
    callsOf key (m.reported name answer).trace = callsOf key m.trace := by
  obtain ⟨closing, htrace, hclosing⟩ := m.exists_closing_reported name answer
  rw [htrace, callsOf_append, callsOf_of_closing hclosing, List.append_nil]

@[simp] lemma callsOf_released (key : TypeKey) (m : Moment σ V) (wanted : TypeRef)
    (answer : Except Halt (Instance V)) :
    callsOf key (m.released wanted answer).trace = callsOf key m.trace := by
  obtain ⟨closing, htrace, hclosing⟩ := m.exists_closing_released wanted answer
  rw [htrace, callsOf_append, callsOf_of_closing hclosing, List.append_nil]

@[simp] lemma callsOf_record_began (key : TypeKey) (m : Moment σ V) (stack : List TypeKey) :
    callsOf key (m.record (.began stack)).trace = callsOf key m.trace := by
  rw [Moment.record, callsOf_append]
  exact List.append_nil _

@[simp] lemma made_reported (key : TypeKey) (m : Moment σ V) (name : String)
    (answer : Except Halt (Instance V)) :
    w.made key (m.reported name answer).trace = w.made key m.trace :=
  made_eq_of_callsOf (callsOf_reported ..)

@[simp] lemma made_released (key : TypeKey) (m : Moment σ V) (wanted : TypeRef)
    (answer : Except Halt (Instance V)) :
    w.made key (m.released wanted answer).trace = w.made key m.trace :=
  made_eq_of_callsOf (callsOf_released ..)

@[simp] lemma made_record_began (key : TypeKey) (m : Moment σ V) (stack : List TypeKey) :
    w.made key (m.record (.began stack)).trace = w.made key m.trace :=
  made_eq_of_callsOf (callsOf_record_began ..)

@[simp] lemma made_record_noted (key : TypeKey) (m : Moment σ V) (notice : Notice) :
    w.made key (m.record (.noted notice)).trace = w.made key m.trace := by
  rw [Moment.record, made_append]
  exact List.append_nil _

/-- **A task calls no factory of a type that it does not lead to.** -/
theorem Course.callsOf_eq (hb : w.book.Keyed) {stack : List TypeKey} {task : Task σ V}
    (hc : Course w stack task m answer m') {key : TypeKey} (hkey : task.Spares w.book key) :
    callsOf key m'.trace = callsOf key m.trace := by
  have hparameters : ∀ {wanted : TypeRef} {r : Recipe σ V} {make : Factory σ V (Value V)},
      w.book.recipe? wanted.key = some r →
      (Task.serve (σ := σ) (V := V) wanted).Spares w.book key →
      (Task.build r make [] r.parameters).Spares w.book key := by
    intro wanted r make hr hwanted
    refine ⟨fun heq => hwanted ?_, fun p hp hreach => hwanted ?_⟩
    · rw [← heq, hb.key_of_recipe? hr]
      exact ⟨Book.produces_iff.2 ⟨r, hr⟩, .refl⟩
    · exact ⟨hreach.1, (hreach.of_parameter hr hp).to_reflTransGen⟩
  induction hc with
  | missing absent => rfl
  | given found source => rfl
  | shelved found source there => rfl
  | passed found source placeless built ih =>
      rw [callsOf_reported, ih (hparameters found hkey), callsOf_record_began]
  | kept found source placed empty built ih =>
      rw [callsOf_released, callsOf_reported, ih (hparameters found hkey), callsOf_record_began]
  | @called stack r make ready m m' answer ended =>
      rw [runFrom_call] at ended
      obtain ⟨-, rfl⟩ := Prod.mk.inj ended
      have hother : callsOf key
          [.called m.calls r.key ready (make ready m.world).1] = [] := by
        simp [callsOf, Event.isCallOf, hkey.1]
      dsimp only
      rw [callsOf_append, hother, List.append_nil]
  | skipped skips others ih =>
      exact ih ⟨hkey.1, fun q hq => hkey.2 q (List.mem_cons_of_mem _ hq)⟩
  | supplied asks served fits others ihs iho =>
      rw [iho ⟨hkey.1, fun q hq => hkey.2 q (List.mem_cons_of_mem _ hq)⟩,
        ihs (hkey.2 _ (List.mem_cons_self ..))]
  | stopped asks served unfit ih => exact ih (hkey.2 _ (List.mem_cons_self ..))

/-- So it makes no product of such a type. -/
lemma Course.made_eq (hb : w.book.Keyed) {stack : List TypeKey} {task : Task σ V}
    (hc : Course w stack task m answer m') {key : TypeKey} (hkey : task.Spares w.book key) :
    w.made key m'.trace = w.made key m.trace :=
  made_eq_of_callsOf (hc.callsOf_eq hb hkey)

/-- **An attempt calls its own factory just once**, for the product that it answers. -/
theorem Course.made_build (hb : w.book.Keyed) {stack : List TypeKey} {r : Recipe σ V}
    {make : Factory σ V (Value V)} {ready : List (Argument V)} {rest : List Parameter}
    (hc : Course w stack (.build r make ready rest) m answer m')
    (hrest : ∀ p ∈ rest, ¬ w.book.Reaches p.need.key r.key) :
    w.made r.key m'.trace = w.made r.key m.trace ++ answer.toOption.toList := by
  induction rest generalizing ready m with
  | nil =>
      cases hc with
      | called ended =>
          rw [runFrom_call] at ended
          obtain ⟨hanswer, rfl⟩ := Prod.mk.inj ended
          dsimp only
          rw [made_append]
          cases answer with
          | error halt => rw [made_called_error _ hanswer]; rfl
          | ok product => rw [made_called hanswer]; rfl
  | cons p rest ih =>
      have hothers : ∀ q ∈ rest, ¬ w.book.Reaches q.need.key r.key :=
        fun q hq => hrest q (List.mem_cons_of_mem p hq)
      have hserved : (Task.serve (σ := σ) (V := V) (.of p.need.key)).Spares w.book r.key :=
        hrest p (List.mem_cons_self ..)
      cases hc with
      | skipped skips others => exact ih others hothers
      | supplied asks served fits others => rw [ih others hothers, served.made_eq hb hserved]
      | stopped asks served unfit => rw [served.made_eq hb hserved]; simp [Except.toOption]

/-- No parameter of a recipe leads back to its type. -/
lemma not_reaches_of_parameter (ha : w.book.Acyclic) {t : TypeKey} {r : Recipe σ V}
    (hr : w.book.recipe? t = some r) {p : Parameter} (hp : p ∈ r.parameters) :
    ¬ w.book.Reaches p.need.key t :=
  fun hreach => ha t (hreach.of_parameter hr hp)

/-- A type with a place is kept, so its products are not made anew. -/
lemma Placed.not_renews (hm : w.Placed m) {key : TypeKey} (h : m.shelf.contains key = true) :
    ¬ w.book.renews key := by
  intro hrenews
  have hk : w.book.keeps key = true := (hm key).symm.trans h
  rw [Book.keeps_of_renews hrenews] at hk
  cases hk

/-- A product that is made anew was made by the one call that its request came to. -/
lemma Course.made_renewed (hb : w.book.Keyed) (ha : w.book.Acyclic) (hm : w.Placed m)
    {stack : List TypeKey} {wanted : TypeRef} {product : Instance V}
    (hc : Course w stack (.serve wanted) m (.ok product) m')
    (hrenews : w.book.renews wanted.key) :
    w.made wanted.key m'.trace = w.made wanted.key m.trace ++ [product] := by
  cases hc with
  | given found source => exact absurd hrenews (Book.not_renews_of_given found source)
  | shelved found source there =>
      exact absurd hrenews (hm.not_renews (Shelf.contains_of_product? there))
  | kept found source placed empty built => exact absurd hrenews (hm.not_renews placed)
  | @passed _ _ _ m₁ q _ _ found source placeless built =>
      have hkey : q.key = wanted.key := hb.key_of_recipe? found
      have hbuilt := built.made_build hb fun p hp => by
        rw [hkey]
        exact not_reaches_of_parameter ha found hp
      rw [hkey, made_record_began] at hbuilt
      rw [made_reported, hbuilt]
      rfl

/-- A singleton that is answered was made by its factory, now or before. -/
lemma Course.made_kept (hb : w.book.Keyed) (ha : w.book.Acyclic) (hl : w.Ledger settled m)
    {stack : List TypeKey} {wanted : TypeRef} {product : Instance V}
    (hc : Course w stack (.serve wanted) m (.ok product) m') (hk : w.book.keeps wanted.key) :
    w.made wanted.key m'.trace = [product] := by
  obtain ⟨hledger, hplace⟩ := hc.ledger hb ha trivial hl
  rw [hledger.made wanted.key hk, hplace product rfl hk]
  rfl

/-! ### Requests that succeed -/

/-- Between the moments `m` and `m'`, while the types of `stack` are under construction, the
request for `wanted` is served with `product`. If the products of its type are made by a
factory and then kept, this is the only one so far; if they are made anew for every request,
it is the one that was made meanwhile. -/
structure Serves (w : Workshop σ V) (stack : List TypeKey) (wanted : TypeRef)
    (product : Instance V) (m m' : Moment σ V) : Prop where
  served : (w.serveAt stack wanted).runFrom m = (.ok product, m')
  typed : product.value.key = wanted.key
  grows : m.trace <+: m'.trace
  kept : w.book.keeps wanted.key → w.made wanted.key m'.trace = [product]
  renewed : w.book.renews wanted.key →
    w.made wanted.key m'.trace = w.made wanted.key m.trace ++ [product]

/-- **A request that succeeds is served like this.** -/
theorem Course.serves (hb : w.book.Keyed) (ha : w.book.Acyclic)
    (hw : ∀ key r, w.book.recipe? key = some r → r.WellTyped) {stack : List TypeKey}
    {wanted : TypeRef} {product : Instance V} (hs : w.book.IsStack stack)
    (hn : w.book.IsNext stack wanted.key) (hl : w.Ledger settled m) (ht : Typed m)
    (hc : Course w stack (.serve wanted) m (.ok product) m') :
    w.Serves stack wanted product m m' := by
  obtain ⟨new, hgrows, -⟩ := hc.grows hb ha
  exact ⟨hc.runFrom_eq hb ha hs hn, (hc.typed hb hw trivial ht).2 product rfl,
    ⟨new, hgrows.trace.symm⟩, hc.made_kept hb ha hl, hc.made_renewed hb ha hl.placed⟩

end Workshop

end Wiring
