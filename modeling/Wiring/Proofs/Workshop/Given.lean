/-
Values that exist already, as arguments of factories.

* `Book.Gives`: a type whose recipe is an existing value;
* `Workshop.Granted`: a parameter for such a type received this value, under any optional
  layers;
* `Workshop.Course.handsOut`: every course of a request hands these values to all factories
  that it calls, and answers them;
* `Workshop.Reached.handsOut`: **at every moment all factories that were called received the
  existing values of the types that they share**.
-/
import Wiring.Proofs.Workshop.Singleton

namespace Wiring

variable {σ V : Type}

/-- The recipe of `key` is the existing value `product`. -/
def Book.Gives (b : Book σ V) (key : TypeKey) (product : Instance V) : Prop :=
  ∃ r, b.recipe? key = some r ∧ r.source = .given product

/-- A type with an existing value is the type of this value only, and has no factory. -/
lemma Book.Gives.source_eq {b : Book σ V} {key : TypeKey} {product : Instance V}
    (h : b.Gives key product) {r : Recipe σ V} (hr : b.recipe? key = some r) :
    r.source = .given product := by
  obtain ⟨q, hq, hsource⟩ := h
  obtain rfl := Option.some.inj (hq.symm.trans hr)
  exact hsource

namespace Workshop

/-- If a parameter is for a type with an existing value, it received this value. -/
def Granted (w : Workshop σ V) (p : Parameter) (a : Argument V) : Prop :=
  ∀ k product, w.book.Gives k product → p.need.shares = some k → a.product? = some product

/-- The answer to a request for a type with an existing value is this value. -/
def Grants (w : Workshop σ V) (key : TypeKey) (answer : Except Halt (Instance V)) : Prop :=
  ∀ i product, answer = .ok i → w.book.Gives key product → i = product

/-- All factories that were called received the existing values. -/
def HandsOut (w : Workshop σ V) (events : List (Event V)) : Prop :=
  ∀ serial t arguments call, .called serial t arguments call ∈ events →
    ∀ r, w.book.recipe? t = some r → List.Forall₂ w.Granted r.parameters arguments

/-- The shared product of a type: the value that exists already, or what stands in its place. -/
def shared? (w : Workshop σ V) (s : Shelf V) (key : TypeKey) : Option (Instance V) :=
  match (w.book.recipe? key).map Recipe.source with
  | some (.given product) => some product
  | _ => s.product? key

variable {w : Workshop σ V} {m m' : Moment σ V} {answer : Except Halt (Instance V)}

lemma shared?_of_gives {key : TypeKey} {product : Instance V}
    (h : w.book.Gives key product) (s : Shelf V) : w.shared? s key = some product := by
  obtain ⟨r, hr, hsource⟩ := h
  simp [shared?, hr, hsource]

lemma shared?_of_keeps {key : TypeKey} (h : w.book.keeps key) (s : Shelf V) :
    w.shared? s key = s.product? key := by
  obtain ⟨r, hr, hkept⟩ := (Option.any_eq_true _ _).1 h
  cases hsource : r.source with
  | given product => simp [Recipe.isKept, Recipe.isGiven, hsource] at hkept
  | factory make => simp [shared?, hr, hsource]

lemma granted_of_skips {p : Parameter} (hs : w.Skips p = true) (a : Argument V) :
    w.Granted p a := by
  rintro k product ⟨r, hr, -⟩ hshares
  have hskips : w.book.produces p.need.key = false := by
    simpa using (Bool.and_eq_true_iff.1 hs).2
  rw [Need.key_of_shares hshares, Book.produces_eq_false_iff, hr] at hskips
  cases hskips

lemma granted_of_receive {p : Parameter} {a : Argument V}
    (hfits : p.need.receive answer = .ok a) (hgrants : w.Grants p.need.key answer) :
    w.Granted p a := by
  intro k product hgives hshares
  obtain ⟨i, rfl, hargument⟩ := Need.product?_of_receive hshares hfits
  rw [← Need.key_of_shares hshares] at hgives
  rw [hargument, hgrants i product rfl hgives]

/-- A type with a factory has no existing value. -/
lemma grants_of_factory {key : TypeKey} {r : Recipe σ V} {make : Factory σ V (Value V)}
    (hr : w.book.recipe? key = some r) (hs : r.source = .factory make) : w.Grants key answer := by
  intro i product _ hgives
  rw [hgives.source_eq hr] at hs
  cases hs

/-- Neither has a type whose products are kept. -/
lemma grants_of_keeps {key : TypeKey} (hk : w.book.keeps key) : w.Grants key answer := by
  rintro i product _ ⟨r, hr, hsource⟩
  simp [Book.keeps, hr, Recipe.isKept, Recipe.isGiven, hsource] at hk

lemma HandsOut.append {before after : List (Event V)} (h : w.HandsOut before)
    (hafter : w.HandsOut after) : w.HandsOut (before ++ after) := by
  intro serial t arguments call hcall
  rcases List.mem_append.1 hcall with hcall | hcall
  · exact h serial t arguments call hcall
  · exact hafter serial t arguments call hcall

lemma handsOut_of_quiet {events : List (Event V)} (h : Quiet events) : w.HandsOut events :=
  fun _ _ _ _ hcall => absurd hcall (not_called_of_quiet h)

lemma HandsOut.began (h : w.HandsOut m.trace) (stack : List TypeKey) :
    w.HandsOut (m.record (.began stack)).trace :=
  h.append (handsOut_of_quiet fun _ he => .inl ⟨stack, List.mem_singleton.1 he⟩)

lemma HandsOut.reported (h : w.HandsOut m.trace) (name : String)
    (answer : Except Halt (Instance V)) : w.HandsOut (m.reported name answer).trace := by
  obtain ⟨notices, htrace⟩ := m.exists_trace_reported name answer
  rw [htrace]
  exact h.append (handsOut_of_quiet (quiet_noted notices))

lemma HandsOut.released (h : w.HandsOut m.trace) (wanted : TypeRef)
    (answer : Except Halt (Instance V)) : w.HandsOut (m.released wanted answer).trace := by
  cases answer with
  | error halt => rwa [Moment.trace_released_error]
  | ok product =>
      intro serial t arguments call hcall
      refine h serial t arguments call ?_
      simpa [Moment.released, Moment.store, Moment.record] using hcall

/-- A factory is called with what its parameters received. -/
lemma HandsOut.called (h : w.HandsOut m.trace) {r : Recipe σ V}
    {make : Factory σ V (Value V)} {ready : List (Argument V)}
    (hr : w.book.recipe? r.key = some r) (hready : List.Forall₂ w.Granted r.parameters ready)
    (ended : (w.call r make ready).runFrom m = (answer, m')) : w.HandsOut m'.trace := by
  rw [runFrom_call] at ended
  obtain ⟨-, rfl⟩ := Prod.mk.inj ended
  refine h.append fun serial t arguments call hcall q hq => ?_
  obtain ⟨-, rfl, rfl, -⟩ : serial = _ ∧ t = r.key ∧ arguments = ready ∧ call = _ := by
    simpa using hcall
  obtain rfl : r = q := Option.some.inj (hr.symm.trans hq)
  exact hready

/-- What a task answers for a type with an existing value. -/
def Task.Grants (w : Workshop σ V) (answer : Except Halt (Instance V)) : Task σ V → Prop
  | .serve wanted => w.Grants wanted.key answer
  | .build .. => True

/-- **Every course of a request hands the existing values out.** -/
theorem Course.handsOut (hb : w.book.Keyed) {stack : List TypeKey} {task : Task σ V}
    (hc : Course w stack task m answer m') (hu : task.Underway w w.Granted)
    (hm : w.HandsOut m.trace) :
    w.HandsOut m'.trace ∧ task.Grants w answer := by
  induction hc with
  | missing absent => exact ⟨hm, fun i product hi => by cases hi⟩
  | given found source =>
      refine ⟨hm, fun i product hi hgives => ?_⟩
      obtain rfl := Except.ok.inj hi
      exact Source.given.inj (source.symm.trans (hgives.source_eq found))
  | shelved found source there => exact ⟨hm, grants_of_factory found source⟩
  | @passed stack wanted m m' r make answer found source placeless built ih =>
      obtain ⟨hbuilt, -⟩ := ih (Task.underway_start hb found) (hm.began _)
      exact ⟨hbuilt.reported _ _, grants_of_factory found source⟩
  | @kept stack wanted m m' r make answer found source placed empty built ih =>
      obtain ⟨hbuilt, -⟩ := ih (Task.underway_start hb found) (hm.began _)
      exact ⟨(hbuilt.reported _ _).released _ _, grants_of_factory found source⟩
  | called ended => exact ⟨hm.called hu.1 hu.forall₂ ended, trivial⟩
  | skipped skips others ih => exact ih (hu.next (granted_of_skips skips _)) hm
  | supplied asks served fits others ihs iho =>
      obtain ⟨hserved, hgrants⟩ := ihs trivial hm
      exact iho (hu.next (granted_of_receive fits hgrants)) hserved
  | stopped asks served unfit ih => exact ⟨(ih trivial hm).1, trivial⟩

lemma invariant_handsOut (hb : w.book.Keyed) : w.Invariant fun m => w.HandsOut m.trace where
  blank _ _ _ htrace := handsOut_of_quiet fun e he => .inr (htrace e he)
  noted _ notice hm :=
    hm.append (handsOut_of_quiet fun _ he => .inr ⟨notice, List.mem_singleton.1 he⟩)
  served _ _ _ _ hm hc := (hc.handsOut hb trivial hm).1
  elsewhere _ _ hm := hm

/-- **All factories that were called received the existing values** of the types they share. -/
theorem Reached.handsOut (h : w.Reached m) : w.HandsOut m.trace :=
  h.invariant (invariant_handsOut h.keyed)

end Workshop

end Wiring
