/-
Which singletons a workshop makes.

* `Recipe.Issued`: recipes that are made in one of the two ways there are;
* `Workshop.Stocked`, `Workshop.Covers`: a type whose place is filled, and one that leads to
  filled places only; `Workshop.Closed`: all types with a filled place are like this;
  `Workshop.Course.closed`: **every task keeps it, and a request that succeeds fills all places
  that its type leads to**;
* `Workshop.Gathers`: what is added to the shelf while some types are requested;
* `Workshop.Requested`: the types that are requested during the opening and by some acts;
  `Workshop.Opened.extent`: **just the places are filled that these types lead to**.
-/
import Wiring.Proofs.Workshop.Nesting

namespace Wiring

open Relation

variable {σ V : Type}

/-- A recipe of a typed factory or of a typed value. -/
inductive Recipe.Issued : Recipe σ V → Prop
  | factory (serial : ℕ) (role : Role) (key : TypeKey) (parameters : List Parameter)
      (make : Factory σ V (key.Payload V)) : Issued (.ofFactory serial role key parameters make)
  | value (serial : ℕ) (key : TypeKey) (origin : Origin) (payload : key.Payload V) :
      Issued (.ofValue serial key origin payload)

/-- A value that exists already depends on nothing. -/
lemma Recipe.Issued.parameters_eq_nil {r : Recipe σ V} (h : r.Issued) {product : Instance V}
    (hs : r.source = .given product) : r.parameters = [] := by
  cases h with
  | factory serial role key parameters make => cases hs
  | value serial key origin payload => rfl

namespace Book

variable {b : Book σ V} {t u : TypeKey}

/-- A type leads to itself, or on from the parameters of its recipe. -/
lemma Reaches.cases {r : Recipe σ V} (hr : b.recipe? t = some r) (h : b.Reaches t u) :
    u = t ∨ ∃ p ∈ r.parameters, b.Reaches p.need.key u := by
  rcases h.2.cases_head with heq | ⟨v, ⟨hv, q, hq, d, hd, rfl⟩, hvu⟩
  · exact .inl heq.symm
  · obtain rfl := Option.some.inj (hr.symm.trans hq)
    obtain ⟨p, hp, rfl⟩ := List.mem_map.1 hd
    exact .inr ⟨p, hp, h.1, hvu⟩

/-- A type without a recipe leads nowhere. -/
lemma Reaches.produces (h : b.Reaches t u) : b.produces t := by
  rcases h.2.cases_head with rfl | ⟨v, ⟨-, r, hr, -⟩, -⟩
  · exact h.1
  · exact produces_iff.2 ⟨r, hr⟩

end Book

namespace Workshop

variable {w : Workshop σ V} {m m₁ m' : Moment σ V}

/-! ### Places that are filled -/

/-- The place of the type `k` is filled. -/
def Stocked (m : Moment σ V) (k : TypeKey) : Prop := ∃ i, m.shelf.product? k = some i

/-- All places are filled that the type `t` leads to. -/
def Covers (w : Workshop σ V) (m : Moment σ V) (t : TypeKey) : Prop :=
  ∀ u, w.book.Reaches t u → w.book.keeps u → Stocked m u

/-- Whenever a place is filled, so are all that its type leads to. -/
def Closed (w : Workshop σ V) (m : Moment σ V) : Prop := ∀ t, Stocked m t → w.Covers m t

/-- The types that a task is about lead to filled places only. -/
def Task.Covered (w : Workshop σ V) (m : Moment σ V) : Task σ V → Prop
  | .serve wanted => w.Covers m wanted.key
  | .build _ _ _ rest => ∀ p ∈ rest, w.Covers m p.need.key

lemma Covers.mono {t : TypeKey} (h : w.Covers m t) (hkeeps : ∀ k, Stocked m k → Stocked m' k) :
    w.Covers m' t := fun u hu hk => hkeeps u (h u hu hk)

/-- What is not on the shelf does not matter. -/
lemma Covers.congr {t : TypeKey} (h : w.Covers m t)
    (hsame : ∀ k, m'.shelf.product? k = m.shelf.product? k) : w.Covers m' t :=
  h.mono fun k ⟨i, hi⟩ => ⟨i, (hsame k).trans hi⟩

lemma Closed.congr (h : w.Closed m) (hsame : ∀ k, m'.shelf.product? k = m.shelf.product? k) :
    w.Closed m' :=
  fun t ⟨i, hi⟩ => (h t ⟨i, (hsame t).symm.trans hi⟩).congr hsame

lemma Covers.reported {t : TypeKey} (h : w.Covers m t) (name : String)
    (answer : Except Halt (Instance V)) : w.Covers (m.reported name answer) t :=
  h.congr fun k => by rw [Moment.shelf_reported]

lemma Closed.reported (h : w.Closed m) (name : String) (answer : Except Halt (Instance V)) :
    w.Closed (m.reported name answer) :=
  h.congr fun k => by rw [Moment.shelf_reported]

/-- Nothing is filled for a type without a recipe. -/
lemma covers_of_not_produces {t : TypeKey} (h : w.book.produces t = false) : w.Covers m t := by
  intro u hu
  rw [hu.produces] at h
  cases h

/-- If a type is not kept, or its place is filled, it leads to filled places only as soon as
its parameters do. -/
lemma covers_of_parameters {t : TypeKey} {r : Recipe σ V} (hr : w.book.recipe? t = some r)
    (hp : ∀ p ∈ r.parameters, w.Covers m p.need.key)
    (hself : w.book.keeps t → Stocked m t) : w.Covers m t := by
  intro u hu hk
  rcases hu.cases hr with rfl | ⟨p, hmem, hreach⟩
  · exact hself hk
  · exact hp p hmem u hreach hk

/-- Filling a place does not empty another one. -/
lemma stocked_store {key k : TypeKey} (hplace : m.shelf.contains key = true)
    (product : Instance V) (h : Stocked m k) : Stocked (m.store key product) k := by
  obtain ⟨i, hi⟩ := h
  by_cases hkey : k = key
  · subst hkey
    exact ⟨product, m.product?_store_self hplace product⟩
  · exact ⟨i, (m.product?_store_of_ne hkey product).trans hi⟩

/-- The product of an attempt may be put in its place when all places are filled that the
parameters lead to. -/
lemma Closed.released {wanted : TypeRef} {r : Recipe σ V} {answer : Except Halt (Instance V)}
    (h : w.Closed m) (hr : w.book.recipe? wanted.key = some r)
    (hplace : m.shelf.contains wanted.key = true)
    (hp : ∀ product, answer = .ok product → ∀ p ∈ r.parameters, w.Covers m p.need.key) :
    w.Closed (m.released wanted answer) ∧
      ∀ product, answer = .ok product → w.Covers (m.released wanted answer) wanted.key := by
  cases answer with
  | error halt =>
      exact ⟨h.congr (m.product?_released_error wanted halt), fun product hproduct => by
        cases hproduct⟩
  | ok product =>
      have hkeeps : ∀ k, Stocked m k → Stocked (m.released wanted (.ok product)) k :=
        fun k hk => stocked_store hplace product hk
      have hself : Stocked (m.released wanted (.ok product)) wanted.key :=
        ⟨product, Moment.product?_store_self _ hplace product⟩
      have hcovers : w.Covers (m.released wanted (.ok product)) wanted.key :=
        covers_of_parameters hr (fun p hmem => (hp product rfl p hmem).mono hkeeps) fun _ => hself
      refine ⟨?_, fun _ _ => hcovers⟩
      rintro t ⟨i, hi⟩
      by_cases hkey : t = wanted.key
      · rw [hkey]
        exact hcovers
      · have hbefore : Stocked m t :=
          ⟨i, (Moment.product?_store_of_ne _ hkey product).symm.trans hi⟩
        exact (h t hbefore).mono hkeeps

/-- A task empties no place. -/
lemma Course.stocked (hb : w.book.Keyed) (ha : w.book.Acyclic) {stack : List TypeKey}
    {task : Task σ V} {answer : Except Halt (Instance V)}
    (hc : Course w stack task m answer m') {k : TypeKey} (h : Stocked m k) : Stocked m' k := by
  obtain ⟨i, hi⟩ := h
  obtain ⟨new, hgrows, -⟩ := hc.grows hb ha
  exact ⟨i, hgrows.keeps k i hi⟩

/-- **Every task leaves the shelf closed, and if it succeeds, all places are filled that its
types lead to.** -/
theorem Course.closed (hb : w.book.Keyed) (ha : w.book.Acyclic)
    (hi : ∀ key r, w.book.recipe? key = some r → r.Issued) {stack : List TypeKey}
    {task : Task σ V} {answer : Except Halt (Instance V)}
    (hc : Course w stack task m answer m') (hp : w.Placed m) (hm : w.Closed m) :
    w.Closed m' ∧ ∀ product, answer = .ok product → task.Covered w m' := by
  induction hc with
  | missing absent => exact ⟨hm, fun product h => by cases h⟩
  | @given stack wanted m r product found source =>
      -- a value that exists already has no parameters and no place
      refine ⟨hm, fun _ _ => covers_of_parameters found ?_ fun hk => ?_⟩
      · rw [(hi _ r found).parameters_eq_nil source]
        exact fun p hmem => by cases hmem
      · simp [Book.keeps, found, Recipe.isKept, Recipe.isGiven, source] at hk
  | @shelved stack wanted m r make product found source there =>
      exact ⟨hm, fun _ _ => hm _ ⟨product, there⟩⟩
  | @passed stack wanted m m' r make answer found source placeless built ih =>
      obtain ⟨hclosed, hcovered⟩ := ih hp (hm.congr fun _ => rfl)
      refine ⟨hclosed.reported _ _, fun product hproduct => ?_⟩
      refine covers_of_parameters found (fun p hmem => ?_) fun hk => ?_
      · exact (hcovered product hproduct p hmem).reported _ _
      · have hplaceless := (hp wanted.key).symm.trans placeless
        rw [hk] at hplaceless
        cases hplaceless
  | @kept stack wanted m m' r make answer found source placed empty built ih =>
      obtain ⟨hclosed, hcovered⟩ := ih hp (hm.congr fun _ => rfl)
      obtain ⟨new, hgrows, -⟩ := built.grows hb ha
      have hplaces : m'.shelf.contains wanted.key = m.shelf.contains wanted.key :=
        hgrows.places wanted.key
      have hplace : (m'.reported wanted.name answer).shelf.contains wanted.key = true := by
        rw [Moment.shelf_reported, hplaces]
        exact placed
      exact (hclosed.reported _ _).released found hplace fun product hproduct p hmem =>
        (hcovered product hproduct p hmem).reported _ _
  | @called stack r make ready m m' answer ended =>
      rw [runFrom_call] at ended
      obtain ⟨-, rfl⟩ := Prod.mk.inj ended
      exact ⟨hm.congr fun k => rfl, fun _ _ p hmem => by cases hmem⟩
  | @skipped stack r make ready p rest m m' answer skips others ih =>
      obtain ⟨hclosed, hcovered⟩ := ih hp hm
      refine ⟨hclosed, fun product hproduct => List.forall_mem_cons.2
        ⟨covers_of_not_produces ?_, hcovered product hproduct⟩⟩
      simpa using (Bool.and_eq_true_iff.1 skips).2
  | @supplied stack r make ready p rest m m₁ m' given answer argument asks served fits others
      ihs iho =>
      obtain ⟨product, rfl, -⟩ := Need.exists_of_receive_eq_ok fits
      obtain ⟨hclosed, hcovered⟩ := ihs hp hm
      obtain ⟨new, hgrows, -⟩ := served.grows hb ha
      obtain ⟨hclosed', hcovered'⟩ := iho (hgrows.placed hp) hclosed
      -- what the request for this parameter filled is still there when the others are resolved
      refine ⟨hclosed', fun product' hproduct => List.forall_mem_cons.2
        ⟨?_, hcovered' product' hproduct⟩⟩
      exact (hcovered product rfl).mono fun k => others.stocked hb ha
  | stopped asks served unfit ih => exact ⟨(ih hp hm).1, fun _ h => by cases h⟩

/-! ### Requests for some types -/

/-- Between two moments types of one kind are requested: no place is emptied, those that are
filled are for types that these types lead to, and the shelf stays closed. -/
structure Gathers (w : Workshop σ V) (kind : TypeKey → Prop) (m m' : Moment σ V) : Prop where
  placed : w.Placed m → w.Placed m'
  closed : w.Placed m → w.Closed m → w.Closed m'
  stays : ∀ k, Stocked m k → Stocked m' k
  within : ∀ k, Stocked m' k → Stocked m k ∨ ∃ t, kind t ∧ w.book.Reaches t k

section Gathers

variable {kind wider : TypeKey → Prop}

/-- Nothing is requested as long as the shelf stays the same. -/
lemma gathers_of_shelf (kind : TypeKey → Prop) (h : m'.shelf = m.shelf) :
    w.Gathers kind m m' := by
  refine ⟨fun hp k => ?_, fun _ hm => hm.congr fun k => by rw [h], fun k ⟨i, hi⟩ => ⟨i, ?_⟩,
    fun k ⟨i, hi⟩ => .inl ⟨i, ?_⟩⟩
  · rw [h]
    exact hp k
  · rw [h]
    exact hi
  · rw [← h]
    exact hi

lemma Gathers.mono (h : w.Gathers kind m m') (hw : ∀ t, kind t → wider t) :
    w.Gathers wider m m' :=
  ⟨h.placed, h.closed, h.stays,
    fun k hk => (h.within k hk).imp_right fun ⟨t, ht, hreach⟩ => ⟨t, hw t ht, hreach⟩⟩

lemma Gathers.trans (h : w.Gathers kind m m₁) (h' : w.Gathers kind m₁ m') :
    w.Gathers kind m m' where
  placed hp := h'.placed (h.placed hp)
  closed hp hm := h'.closed (h.placed hp) (h.closed hp hm)
  stays k hk := h'.stays k (h.stays k hk)
  within k hk := by
    rcases h'.within k hk with hk | hreach
    · exact h.within k hk
    · exact .inr hreach

/-- A request is for its type only. -/
lemma Course.gathers (hb : w.book.Keyed) (ha : w.book.Acyclic)
    (hi : ∀ key r, w.book.recipe? key = some r → r.Issued) {stack : List TypeKey}
    {wanted : TypeRef} {answer : Except Halt (Instance V)}
    (hc : Course w stack (.serve wanted) m answer m') :
    w.Gathers (fun t => t = wanted.key) m m' := by
  obtain ⟨new, hgrows, -⟩ := hc.grows hb ha
  refine ⟨hgrows.placed, fun hp hm => (hc.closed hb ha hi hp hm).1, fun k => hc.stocked hb ha,
    fun k ⟨i, hk⟩ => ?_⟩
  cases hbefore : m.shelf.product? k with
  | some j => exact .inl ⟨j, hbefore⟩
  | none => exact .inr ⟨wanted.key, rfl, (hgrows.fresh k i hbefore hk).1⟩

/-- A round of the opening requests the types of its recipes, and all of them succeed. -/
lemma gathers_activate (hb : w.book.Keyed) (ha : w.book.Acyclic)
    (hi : ∀ key r, w.book.recipe? key = some r → r.Issued) {activation : Activation}
    {rs : List (Recipe σ V)} (hp : w.Placed m) (hm : w.Closed m)
    (h : (w.activate activation rs).run.run m = (.ok (), m')) :
    w.Gathers (fun t => ∃ r ∈ rs, r.key = t) m m' ∧ ∀ r ∈ rs, w.Covers m' r.key := by
  induction rs generalizing m with
  | nil =>
      obtain rfl : m = m' := congrArg Prod.snd h
      exact ⟨gathers_of_shelf _ rfl, fun r hr => by cases hr⟩
  | cons r rest ih =>
      rw [run_activate_cons] at h
      have hcourse := course_getInstance (w := w) ha r.type
        (m.record (.noted (.activating activation r.type.name)))
      rcases hg : (w.getInstance r.type).runFrom
        (m.record (.noted (.activating activation r.type.name))) with ⟨halt | product, m₁⟩
      · rw [hg] at h
        cases congrArg Prod.fst h
      · rw [hg] at h hcourse
        have hmade := hcourse.gathers hb ha hi
        have hcovers := (hcourse.closed hb ha hi hp (hm.congr fun k => rfl)).2 product rfl
        obtain ⟨hgathers, hrest⟩ :=
          ih (hmade.placed hp) (hmade.closed hp (hm.congr fun k => rfl)) h
        refine ⟨?_, List.forall_mem_cons.2 ⟨hcovers.mono hgathers.stays, hrest⟩⟩
        have hnoted : w.Gathers (fun t => ∃ q ∈ r :: rest, q.key = t) m
            (m.record (.noted (.activating activation r.type.name))) := gathers_of_shelf _ rfl
        refine (hnoted.trans (hmade.mono fun t ht => ?_)).trans (hgathers.mono fun t ht => ?_)
        · exact ⟨r, List.mem_cons_self .., ht.symm⟩
        · obtain ⟨q, hq, hkey⟩ := ht
          exact ⟨q, List.mem_cons_of_mem r hq, hkey⟩

end Gathers

end Workshop

/-- The type `t` has a primary or required recipe with a factory. -/
def Book.Starts (b : Book σ V) (t : TypeKey) : Prop :=
  ∃ r, b.recipe? t = some r ∧ r.isGiven = false ∧
    (r.activation = .primary ∨ r.activation = .required)

lemma Book.Keyed.starts_iff {b : Book σ V} (hb : b.Keyed) {t : TypeKey} :
    b.Starts t ↔ ∃ r ∈ b.activated .primary ++ b.activated .required, r.key = t := by
  simp only [Starts, hb.recipe?_eq_some_iff, activated, List.mem_append, List.mem_filter,
    Bool.and_eq_true, decide_eq_true_eq, Bool.not_eq_true']
  constructor
  · rintro ⟨r, ⟨hr, hkey⟩, hgiven, hactivation⟩
    exact ⟨r, hactivation.imp (fun h => ⟨hr, h, hgiven⟩) fun h => ⟨hr, h, hgiven⟩, hkey⟩
  · rintro ⟨r, ⟨hr, h, hgiven⟩ | ⟨hr, h, hgiven⟩, hkey⟩
    · exact ⟨r, ⟨hr, hkey⟩, hgiven, .inl h⟩
    · exact ⟨r, ⟨hr, hkey⟩, hgiven, .inr h⟩

namespace Workshop

variable {w : Workshop σ V} {m m₁ m' : Moment σ V}

/-- After the opening just the places are filled that the types lead to whose products are
made in it. -/
lemma Opened.gathers (h : w.Opened m)
    (hi : ∀ key r, w.book.recipe? key = some r → r.Issued) :
    w.Placed m ∧ w.Closed m ∧ (∀ k, Stocked m k → ∃ t, w.book.Starts t ∧ w.book.Reaches t k) ∧
      ∀ t, w.book.Starts t → w.Covers m t := by
  have hb := h.keyed
  have ha := h.complete.acyclic
  obtain ⟨world, notices, hopening⟩ := h.opens
  obtain ⟨-, m₁, hprimary, hrequired⟩ := run_opening_eq_ok hopening
  have hempty : ∀ k, ¬ Stocked (w.blank ⟨.empty, 0, world, notices.map .noted⟩) k := by
    rintro k ⟨i, hk⟩
    exact absurd (hk.symm.trans (product?_emptyShelf hb k)) (Option.some_ne_none i)
  have hplaced : w.Placed (w.blank ⟨.empty, 0, world, notices.map .noted⟩) :=
    contains_emptyShelf hb
  have hclosed : w.Closed (w.blank ⟨.empty, 0, world, notices.map .noted⟩) :=
    fun t ht => absurd ht (hempty t)
  obtain ⟨hfirst, hcovers⟩ := gathers_activate hb ha hi hplaced hclosed hprimary
  obtain ⟨hsecond, hcovers'⟩ := gathers_activate hb ha hi (hfirst.placed hplaced)
    (hfirst.closed hplaced hclosed) hrequired
  have hall : w.Gathers w.book.Starts (w.blank ⟨.empty, 0, world, notices.map .noted⟩) m := by
    refine (hfirst.mono fun t ht => ?_).trans (hsecond.mono fun t ht => ?_)
    · obtain ⟨r, hr, hkey⟩ := ht
      exact hb.starts_iff.2 ⟨r, List.mem_append_left _ hr, hkey⟩
    · obtain ⟨r, hr, hkey⟩ := ht
      exact hb.starts_iff.2 ⟨r, List.mem_append_right _ hr, hkey⟩
  refine ⟨hall.placed hplaced, hall.closed hplaced hclosed,
    fun k hk => (hall.within k hk).resolve_left (hempty k), fun t ht => ?_⟩
  obtain ⟨r, hr, rfl⟩ := hb.starts_iff.1 ht
  rcases List.mem_append.1 hr with hr | hr
  · exact (hcovers r hr).mono hsecond.stays
  · exact hcovers' r hr

/-! ### Runs -/

/-- Some of the acts asks for the type `t`. -/
def Asked (acts : List (Act σ)) (t : TypeKey) : Prop := ∃ q, .ask q ∈ acts ∧ q.wanted.key = t

/-- The types that are requested during the opening of a workshop and by the acts after it. -/
def Requested (w : Workshop σ V) (acts : List (Act σ)) (t : TypeKey) : Prop :=
  w.book.Starts t ∨ Asked acts t

/-- No query got a failure. -/
def Succeeded (replies : List (Reply V)) : Prop := ∀ halt, .answered (.error halt) ∉ replies

/-- A query requests one type at most, and if it is answered, all places are filled that its
type leads to. -/
lemma gathers_ask (hb : w.book.Keyed) (ha : w.book.Acyclic)
    (hi : ∀ key r, w.book.recipe? key = some r → r.Issued) (hp : w.Placed m) (hm : w.Closed m)
    (q : Query) :
    w.Gathers (fun t => t = q.wanted.key) m ((w.answer q).runFrom m).2 ∧
      ∀ a, ((w.answer q).runFrom m).1 = .ok a →
        w.Covers ((w.answer q).runFrom m).2 q.wanted.key := by
  cases hidle : w.Idle q with
  | true =>
      rw [runFrom_answer_of_idle hidle]
      refine ⟨gathers_of_shelf _ rfl, fun a _ => covers_of_not_produces ?_⟩
      cases q with
      | getInstance wanted => cases hidle
      | get key => cases hidle
      | resolve need =>
          have hproduces : w.book.produces need.key = false := by
            simpa using (Bool.and_eq_true_iff.1 hidle).2
          exact hproduces
  | false =>
      rw [runFrom_answer hidle]
      have hcourse := course_getInstance (w := w) ha q.wanted m
      rw [getInstance_eq] at hcourse
      refine ⟨hcourse.gathers hb ha hi, fun a hanswer => ?_⟩
      obtain ⟨product, hproduct⟩ := Query.exists_of_receive_eq_ok hanswer
      exact (hcourse.closed hb ha hi hp hm).2 product hproduct

/-- One act requests the type that it asks for, if any. -/
lemma gathers_act (hb : w.book.Keyed) (ha : w.book.Acyclic)
    (hi : ∀ key r, w.book.recipe? key = some r → r.Issued) (hp : w.Placed m) (hm : w.Closed m)
    (a : Act σ) :
    w.Gathers (Asked [a]) m (w.act a m).2 ∧
      (Succeeded [(w.act a m).1] → ∀ t, Asked [a] t → w.Covers (w.act a m).2 t) := by
  cases a with
  | look key => exact ⟨gathers_of_shelf _ rfl, fun _ t ⟨q, hq, _⟩ => by simp at hq⟩
  | elsewhere world => exact ⟨gathers_of_shelf _ rfl, fun _ t ⟨q, hq, _⟩ => by simp at hq⟩
  | ask q =>
      obtain ⟨hgathers, hcovers⟩ := gathers_ask hb ha hi hp hm q
      refine ⟨hgathers.mono fun t ht => ⟨q, List.mem_singleton_self _, ht.symm⟩,
        fun hs t ⟨q', hq', ht⟩ => ?_⟩
      obtain rfl : q' = q := by simpa using hq'
      cases hanswer : ((w.answer q').runFrom m).1 with
      | ok product => exact ht ▸ hcovers product hanswer
      | error halt =>
          have hreply : (w.act (.ask q') m).1 = .answered (.error halt) :=
            congrArg Reply.answered hanswer
          exact absurd (List.mem_singleton.2 hreply.symm) (hs halt)

lemma asked_cons {a : Act σ} {rest : List (Act σ)} {t : TypeKey} :
    Asked (a :: rest) t ↔ Asked [a] t ∨ Asked rest t := by
  simp [Asked, or_and_right, exists_or]

lemma succeeded_cons {reply : Reply V} {rest : List (Reply V)} :
    Succeeded (reply :: rest) ↔ Succeeded [reply] ∧ Succeeded rest := by
  simp [Succeeded, forall_and]

/-- The acts request the types that they ask for, and if no query gets a failure, all places
are filled that these types lead to. -/
lemma gathers_run (hb : w.book.Keyed) (ha : w.book.Acyclic)
    (hi : ∀ key r, w.book.recipe? key = some r → r.Issued) (hp : w.Placed m) (hm : w.Closed m)
    (acts : List (Act σ)) :
    w.Gathers (Asked acts) m (w.run acts m).2 ∧
      (Succeeded (w.run acts m).1 → ∀ t, Asked acts t → w.Covers (w.run acts m).2 t) := by
  induction acts generalizing m with
  | nil => exact ⟨gathers_of_shelf _ rfl, fun _ t ⟨q, hq, _⟩ => by cases hq⟩
  | cons a rest ih =>
      obtain ⟨hgathers, hcovers⟩ := gathers_act hb ha hi hp hm a
      obtain ⟨hgathers', hcovers'⟩ := ih (hgathers.placed hp) (hgathers.closed hp hm)
      refine ⟨(hgathers.mono fun t ht => asked_cons.2 (.inl ht)).trans
        (hgathers'.mono fun t ht => asked_cons.2 (.inr ht)), fun hs t ht => ?_⟩
      obtain ⟨hfirst, hrest⟩ := succeeded_cons.1 hs
      rcases asked_cons.1 ht with ht | ht
      · exact (hcovers hfirst t ht).mono hgathers'.stays
      · exact hcovers' hrest t ht

/-- A filled place is one of those that there are. -/
lemma Placed.keeps (h : w.Placed m) {k : TypeKey} (hk : Stocked m k) : w.book.keeps k := by
  obtain ⟨i, hi⟩ := hk
  exact (h k).symm.trans (Shelf.contains_of_product? hi)

/-- The filled places are those of the types that the requested types lead to, if no query got
a failure; otherwise they are some of them. -/
lemma Opened.stocked_iff (h : w.Opened m)
    (hi : ∀ key r, w.book.recipe? key = some r → r.Issued) (acts : List (Act σ)) :
    (∀ k, Stocked (w.run acts m).2 k → w.book.keeps k ∧
        ∃ t, w.Requested acts t ∧ w.book.Reaches t k) ∧
      (Succeeded (w.run acts m).1 → ∀ t k, w.Requested acts t → w.book.Reaches t k →
        w.book.keeps k → Stocked (w.run acts m).2 k) := by
  obtain ⟨hplaced, hclosed, hwithin, hcovers⟩ := h.gathers hi
  obtain ⟨hgathers, hasked⟩ := gathers_run h.keyed h.complete.acyclic hi hplaced hclosed acts
  refine ⟨fun k hk => ⟨(hgathers.placed hplaced).keeps hk, ?_⟩, fun hs t k ht hreach hk => ?_⟩
  · rcases hgathers.within k hk with hk | ⟨t, ht, hreach⟩
    · obtain ⟨t, ht, hreach⟩ := hwithin k hk
      exact ⟨t, .inl ht, hreach⟩
    · exact ⟨t, .inr ht, hreach⟩
  · rcases ht with ht | ht
    · exact hgathers.stays k (hcovers t ht k hreach hk)
    · exact hasked hs t ht k hreach hk

lemma Closed.lasting (hb : w.book.Keyed) (ha : w.book.Acyclic)
    (hi : ∀ key r, w.book.recipe? key = some r → r.Issued) :
    w.Lasting fun m => w.Placed m ∧ w.Closed m where
  began _ _ hm := ⟨hm.1, hm.2.congr fun _ => rfl⟩
  served _ _ _ _ _ hm hc :=
    ⟨(hc.gathers hb ha hi).placed hm.1, (hc.gathers hb ha hi).closed hm.1 hm.2⟩

lemma Closed.invariant (hb : w.book.Keyed) (ha : w.book.Acyclic)
    (hi : ∀ key r, w.book.recipe? key = some r → r.Issued) :
    w.Invariant fun m => w.Placed m ∧ w.Closed m where
  blank m hshelf hcalls htrace := by
    refine ⟨(invariant_placed hb ha).blank m hshelf hcalls htrace, fun t ⟨i, ht⟩ => ?_⟩
    rw [hshelf, product?_emptyShelf hb] at ht
    cases ht
  noted _ _ hm := ⟨hm.1, hm.2.congr fun _ => rfl⟩
  served _ _ _ _ hm hc :=
    ⟨(hc.gathers hb ha hi).placed hm.1, (hc.gathers hb ha hi).closed hm.1 hm.2⟩
  elsewhere _ _ hm := ⟨hm.1, hm.2.congr fun _ => rfl⟩

/-- **Just the places are filled that the requested types lead to.** Whenever a request is
made, at any depth and after any failures, each type with a filled place leads to filled places
only. After any acts the filled places are of types that those lead to which are primary or
required or were asked for, and if no query got a failure, of all of them. So the order of the
queries does not matter then. -/
theorem Opened.extent (h : w.Opened m)
    (hi : ∀ key r, w.book.recipe? key = some r → r.Issued) (acts : List (Act σ)) :
    (∀ stack inner n, w.Passes stack inner n → w.Closed n) ∧
    w.Closed (w.run acts m).2 ∧
    (∀ k, Stocked (w.run acts m).2 k → ∃ t, w.Requested acts t ∧ w.book.Reaches t k) ∧
    (Succeeded (w.run acts m).1 → ∀ k, Stocked (w.run acts m).2 k ↔
      w.book.keeps k ∧ ∃ t, w.Requested acts t ∧ w.book.Reaches t k) ∧
    ∀ n acts', w.Opened n → Succeeded (w.run acts m).1 → Succeeded (w.run acts' n).1 →
      (∀ t, w.Requested acts t ↔ w.Requested acts' t) →
      ∀ k, Stocked (w.run acts m).2 k ↔ Stocked (w.run acts' n).2 k := by
  have hb := h.keyed
  have ha := h.complete.acyclic
  have hiff : ∀ {n : Moment σ V} {acts' : List (Act σ)}, w.Opened n →
      Succeeded (w.run acts' n).1 → ∀ k, Stocked (w.run acts' n).2 k ↔
        w.book.keeps k ∧ ∃ t, w.Requested acts' t ∧ w.book.Reaches t k := by
    intro n acts' hn hs k
    obtain ⟨hwithin, hcovers⟩ := hn.stocked_iff hi acts'
    exact ⟨hwithin k, fun ⟨hk, t, ht, hreach⟩ => hcovers hs t k ht hreach hk⟩
  refine ⟨fun stack inner n hn => (hn.keeps (Closed.lasting hb ha hi)
      (Closed.invariant hb ha hi) ha).2,
    ((h.reached acts).invariant (Closed.invariant hb ha hi)).2,
    fun k hk => ((h.stocked_iff hi acts).1 k hk).2, hiff h,
    fun n acts' hn hs hs' hrequested k => ?_⟩
  rw [hiff h hs, hiff hn hs']
  exact and_congr_right fun _ => exists_congr fun t => and_congr_left fun _ => hrequested t

/-- In the sample a get of the second singleton fills the places of both. -/
theorem extent_sample :
    let w := sample [needsFirst]
    let m := sampleStart [needsFirst]
    let acts : List (Act Unit) := [.ask (.get (.product 1))]
    w.Opened m ∧ (∀ key r, w.book.recipe? key = some r → r.Issued) ∧
    Stocked (w.run acts m).2 (.product 0) ∧ Succeeded (w.run acts m).1 ∧
    (∀ stack inner n, w.Passes stack inner n → w.Closed n) ∧
    w.Closed (w.run acts m).2 ∧
    (∀ k, Stocked (w.run acts m).2 k → ∃ t, w.Requested acts t ∧ w.book.Reaches t k) ∧
    (Succeeded (w.run acts m).1 → ∀ k, Stocked (w.run acts m).2 k ↔
      w.book.keeps k ∧ ∃ t, w.Requested acts t ∧ w.book.Reaches t k) ∧
    ∀ n acts', w.Opened n → Succeeded (w.run acts m).1 → Succeeded (w.run acts' n).1 →
      (∀ t, w.Requested acts t ↔ w.Requested acts' t) →
      ∀ k, Stocked (w.run acts m).2 k ↔ Stocked (w.run acts' n).2 k := by
  intro w m acts
  have hissued : ∀ key r, w.book.recipe? key = some r → r.Issued := by
    intro key r hr
    have hmem := Book.mem_of_recipe?_of hr
    simp only [List.mem_cons, List.not_mem_nil, or_false] at hmem
    rcases hmem with rfl | rfl | rfl
    · exact .factory ..
    · exact .factory ..
    · exact .value ..
  have hsucceeded : Succeeded (w.run acts m).1 := by
    intro halt hmem
    have hreplies : (w.run acts m).1 =
        [.answered (.ok (.shared ⟨.of (.product 1), .built 0 1, .product 1 ()⟩))] := rfl
    rw [hreplies] at hmem
    cases List.mem_singleton.1 hmem
  exact ⟨opened_sample rfl, hissued, ⟨_, rfl⟩, hsucceeded,
    (opened_sample rfl).extent hissued [.ask (.get (.product 1))]⟩

end Workshop

end Wiring
