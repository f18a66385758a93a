/-
What requests leave behind in a workshop.

* `Book.Reaches`: types with recipes that a type leads to along dependencies;
* `Workshop.made`: the products that the factory of a type made during some events;
* `Workshop.Grows`: the shelf only gains products, for types of one kind and made by the
  factories of these types;
* `Workshop.Course.grows`: **a request fills places of types only that it leads to, with
  products made during the request**;
* `Workshop.Placed`: the types that have a place; `Workshop.Reached.placed`: they are always
  the same;
* `Workshop.Supplies`, `Workshop.Furnished`: a property of all products that the recipes come up
  with, and of those on the shelf; `Workshop.Course.furnished`: **all that is answered has it, and
  all that comes to the shelf**;
* `Workshop.Typed`, `Workshop.Reached.typed`: the products on the shelf are always of the types
  that they stand for.
-/
import Wiring.Proofs.Workshop.Run

namespace Wiring

open Relation

variable {σ V : Type}

namespace Book

/-- The type `u` has a recipe, and `t` leads to it along dependencies that have recipes. -/
def Reaches (b : Book σ V) (t u : TypeKey) : Prop :=
  b.produces u ∧ ReflTransGen b.DependsOn t u

/-- Whether the products of a type are made by a factory and then kept. -/
def keeps (b : Book σ V) (key : TypeKey) : Bool := (b.recipe? key).any Recipe.isKept

variable {b : Book σ V}

/-- A recipe leads to whatever its parameters lead to. -/
lemma Reaches.of_parameter {t u : TypeKey} {r : Recipe σ V} {p : Parameter}
    (hr : b.recipe? t = some r) (hp : p ∈ r.parameters) (h : b.Reaches p.need.key u) :
    TransGen b.DependsOn t u := by
  refine TransGen.head' (dependsOn_of_parameter hr hp ?_) h.2
  rcases h.2.cases_head with heq | ⟨v, ⟨-, q, hq, -⟩, -⟩
  · exact heq ▸ h.1
  · exact produces_iff.2 ⟨q, hq⟩

end Book

/-! ### The shelf -/

/-- A product stands in a place. -/
lemma Shelf.contains_of_product? {s : Shelf V} {key : TypeKey} {i : Instance V}
    (h : s.product? key = some i) : s.contains key = true := by
  obtain ⟨place, hplace, -⟩ := Option.bind_eq_some_iff.1 h
  simp [Table.contains, hplace]

namespace Moment

variable (m : Moment σ V)

lemma product?_store_self {key : TypeKey} (h : m.shelf.contains key = true)
    (product : Instance V) : (m.store key product).shelf.product? key = some product := by
  obtain ⟨place, hplace⟩ := Option.isSome_iff_exists.1 h
  simp [store, Shelf.product?, Table.get?_modify, hplace]

lemma eq_of_product?_store {key : TypeKey} {product i : Instance V}
    (h : (m.store key product).shelf.product? key = some i) : i = product := by
  cases hplace : m.shelf.get? key with
  | none => simp [store, Shelf.product?, Table.get?_modify, hplace] at h
  | some place => simpa [store, Shelf.product?, Table.get?_modify, hplace, eq_comm] using h

lemma product?_store_of_ne {key k : TypeKey} (h : k ≠ key) (product : Instance V) :
    (m.store key product).shelf.product? k = m.shelf.product? k := by
  simp [store, Shelf.product?, Table.get?_modify, h]

/-- Filling an empty place leaves the other products where they are. -/
lemma product?_store_of_some {key k : TypeKey} {i : Instance V}
    (hempty : m.shelf.product? key = none) (product : Instance V)
    (hi : m.shelf.product? k = some i) :
    (m.store key product).shelf.product? k = some i := by
  have hne : k ≠ key := by
    rintro rfl
    rw [hempty] at hi
    cases hi
  rwa [m.product?_store_of_ne hne]

lemma product?_poison (key k : TypeKey) :
    (m.poison key).shelf.product? k = m.shelf.product? k := by
  simp only [poison, Shelf.product?, Table.get?_modify]
  split
  · cases m.shelf.get? k <;> rfl
  · rfl

/-- Where there is no place, none is marked. -/
lemma poison_of_get?_eq_none {key : TypeKey} (h : m.shelf.get? key = none) :
    m.poison key = m := by
  rw [poison, Table.modify_of_get?_eq_none h]

lemma contains_store (key k : TypeKey) (product : Instance V) :
    (m.store key product).shelf.contains k = m.shelf.contains k :=
  Table.contains_modify ..

lemma contains_poison (key k : TypeKey) :
    (m.poison key).shelf.contains k = m.shelf.contains k :=
  Table.contains_modify ..

@[simp] lemma shelf_reported (name : String) (answer : Except Halt (Instance V)) :
    (m.reported name answer).shelf = m.shelf := by
  rcases answer with (failure | text | _) | product <;> rfl

/-- The report on an attempt: none, or one on its failure. -/
lemma exists_trace_reported (name : String) (answer : Except Halt (Instance V)) :
    ∃ notices : List Notice,
      (m.reported name answer).trace = m.trace ++ notices.map .noted := by
  rcases answer with (failure | text | _) | product
  · exact ⟨[.constructionFailed name failure], rfl⟩
  all_goals exact ⟨[], by simp [reported]⟩

/-- An attempt without a product leaves the shelf as it was, up to a mark. -/
lemma product?_released_error (wanted : TypeRef) (halt : Halt) (k : TypeKey) :
    (m.released wanted (.error halt)).shelf.product? k = m.shelf.product? k := by
  rcases halt with failure | text | _
  · rfl
  · exact m.product?_poison wanted.key k
  · rfl

@[simp] lemma contains_released (wanted : TypeRef) (answer : Except Halt (Instance V))
    (k : TypeKey) : (m.released wanted answer).shelf.contains k = m.shelf.contains k := by
  rcases answer with (failure | text | _) | product
  · rfl
  · exact m.contains_poison wanted.key k
  · rfl
  · exact contains_store _ wanted.key k product

lemma trace_released_error (wanted : TypeRef) (halt : Halt) :
    (m.released wanted (.error halt)).trace = m.trace := by
  rcases halt with failure | text | _ <;> rfl

end Moment

namespace Workshop

/-! ### Products of factories -/

/-- The product of the factory of `key` that an event brings. -/
def madeBy (w : Workshop σ V) (key : TypeKey) : Event V → Option (Instance V)
  | .called serial k _ ⟨.made value, _⟩ =>
    if k = key then some (w.product serial value) else none
  | _ => none

/-- The products of the factory of `key` during some events, in the order of the calls. -/
def made (w : Workshop σ V) (key : TypeKey) (events : List (Event V)) : List (Instance V) :=
  events.filterMap (w.madeBy key)

variable {w : Workshop σ V}

@[simp] lemma made_append (key : TypeKey) (before after : List (Event V)) :
    w.made key (before ++ after) = w.made key before ++ w.made key after :=
  List.filterMap_append

@[simp] lemma made_noted (key : TypeKey) (notices : List Notice) :
    w.made key (notices.map .noted) = [] := by
  simp [made, madeBy]

@[simp] lemma made_began (key : TypeKey) (stack : List TypeKey) :
    w.made key [.began stack] = [] := rfl

@[simp] lemma made_shelved (key k : TypeKey) (product : Instance V) :
    w.made key [.shelved k product] = [] := rfl

/-- A call that succeeds makes the product it answers. -/
lemma made_called {r : Recipe σ V} {serial : ℕ} {arguments : List (Argument V)}
    {call : Call (Value V)} {product : Instance V}
    (h : w.answerOf r serial call.outcome = .ok product) :
    w.made r.key [.called serial r.key arguments call] = [product] := by
  obtain ⟨value | cause | text, notices⟩ := call
  · obtain rfl := Except.ok.inj h
    simp [made, madeBy]
  · cases h
  · cases h

/-- A call without a product makes none. -/
lemma made_called_error {r : Recipe σ V} {serial : ℕ} {arguments : List (Argument V)}
    {call : Call (Value V)} {halt : Halt} (key : TypeKey)
    (h : w.answerOf r serial call.outcome = .error halt) :
    w.made key [.called serial r.key arguments call] = [] := by
  obtain ⟨value | cause | text, notices⟩ := call
  · cases h
  · rfl
  · rfl

/-- A call makes products of one type only. -/
lemma made_called_of_ne {k key : TypeKey} (hne : k ≠ key) (serial : ℕ)
    (arguments : List (Argument V)) (call : Call (Value V)) :
    w.made key [.called serial k arguments call] = [] := by
  obtain ⟨value | cause | text, notices⟩ := call
  · simp [made, madeBy, hne]
  · rfl
  · rfl

/-! ### What is added -/

/-- Between two moments the events `new` happen. The same types have places, products stay
where they are, and those that come to the shelf are for types of one kind and were made by
the factories of these types during the events. -/
structure Grows (w : Workshop σ V) (within : TypeKey → Prop) (new : List (Event V))
    (m m' : Moment σ V) : Prop where
  trace : m'.trace = m.trace ++ new
  places : ∀ k, m'.shelf.contains k = m.shelf.contains k
  keeps : ∀ k i, m.shelf.product? k = some i → m'.shelf.product? k = some i
  fresh : ∀ k i, m.shelf.product? k = none → m'.shelf.product? k = some i →
    within k ∧ i ∈ w.made k new

variable {within wider : TypeKey → Prop} {new new' : List (Event V)} {m m₁ m' : Moment σ V}

/-- Whatever happens, nothing is added as long as the products on the shelf are the same. -/
lemma Grows.of_same (trace : m'.trace = m.trace ++ new)
    (places : ∀ k, m'.shelf.contains k = m.shelf.contains k)
    (same : ∀ k, m'.shelf.product? k = m.shelf.product? k) : w.Grows within new m m' where
  trace := trace
  places := places
  keeps k i h := (same k).trans h
  fresh k i h h' := by
    rw [same k, h] at h'
    cases h'

lemma Grows.refl (within : TypeKey → Prop) (m : Moment σ V) : w.Grows within [] m m :=
  .of_same (by simp) (fun _ => rfl) fun _ => rfl

lemma Grows.mono (h : w.Grows within new m m') (hw : ∀ k, within k → wider k) :
    w.Grows wider new m m' :=
  ⟨h.trace, h.places, h.keeps, fun k i hn hs => (h.fresh k i hn hs).imp_left (hw k)⟩

lemma Grows.trans (h : w.Grows within new m m₁) (h' : w.Grows within new' m₁ m') :
    w.Grows within (new ++ new') m m' where
  trace := by rw [h'.trace, h.trace, List.append_assoc]
  places k := (h'.places k).trans (h.places k)
  keeps k i hk := h'.keeps k i (h.keeps k i hk)
  fresh k i hn hs := by
    rw [made_append]
    cases hmid : m₁.shelf.product? k with
    | none => exact (h'.fresh k i hmid hs).imp_right (List.mem_append_right _)
    | some j =>
        obtain rfl : j = i := Option.some.inj ((h'.keeps k j hmid).symm.trans hs)
        exact (h.fresh k j hn hmid).imp_right (List.mem_append_left _)

/-- A place outside the kind stays empty. -/
lemma Grows.eq_none (h : w.Grows within new m m') {k : TypeKey}
    (hn : m.shelf.product? k = none) (hk : ¬ within k) : m'.shelf.product? k = none := by
  cases hs : m'.shelf.product? k with
  | none => rfl
  | some i => exact absurd (h.fresh k i hn hs).1 hk

lemma grows_record (within : TypeKey → Prop) (m : Moment σ V) (e : Event V) :
    w.Grows within [e] m (m.record e) :=
  .of_same rfl (fun _ => rfl) fun _ => rfl

lemma grows_reported (within : TypeKey → Prop) (m : Moment σ V) (name : String)
    (answer : Except Halt (Instance V)) :
    ∃ notices : List Notice,
      w.Grows within (notices.map .noted) m (m.reported name answer) := by
  obtain ⟨notices, htrace⟩ := m.exists_trace_reported name answer
  exact ⟨notices, .of_same htrace (fun _ => by rw [Moment.shelf_reported])
    fun _ => by rw [Moment.shelf_reported]⟩

/-- The end of an attempt for a place that is still empty: a product made in the meantime
fills it. -/
lemma Grows.released (h : w.Grows within new m m') {wanted : TypeRef}
    (answer : Except Halt (Instance V)) (hempty : m'.shelf.product? wanted.key = none)
    (hwithin : within wanted.key) (hmade : ∀ i, answer = .ok i → i ∈ w.made wanted.key new) :
    ∃ more, w.Grows within (new ++ more) m (m'.released wanted answer) ∧
      ∀ k, w.made k more = [] := by
  cases answer with
  | error halt =>
      refine ⟨[], h.trans (.of_same ?_ (fun k => ?_) fun k => ?_), fun k => rfl⟩
      · rw [List.append_nil, Moment.trace_released_error]
      · exact Moment.contains_released ..
      · exact m'.product?_released_error wanted halt k
  | ok product =>
      refine ⟨[.noted (.constructed wanted.name)] ++ [.shelved wanted.key product], ?_,
        fun k => by simp [made, madeBy]⟩
      refine ⟨?_, fun k => ?_, fun k i hk => ?_, fun k i hn hs => ?_⟩
      · simp [Moment.released, Moment.store, Moment.record, h.trace]
      · exact (Moment.contains_released ..).trans (h.places k)
      · exact Moment.product?_store_of_some _ hempty product (h.keeps k i hk)
      · rw [made_append]
        by_cases hk : k = wanted.key
        · subst hk
          obtain rfl := Moment.eq_of_product?_store _ hs
          exact ⟨hwithin, List.mem_append_left _ (hmade i rfl)⟩
        · have hs' : m'.shelf.product? k = some i :=
            (Moment.product?_store_of_ne _ hk product).symm.trans hs
          exact (h.fresh k i hn hs').imp_right (List.mem_append_left _)

/-- The types that a task leads to. -/
def Task.Leads (b : Book σ V) : Task σ V → TypeKey → Prop
  | .serve wanted, k => b.Reaches wanted.key k
  | .build _ _ _ rest, k => ∃ p ∈ rest, b.Reaches p.need.key k

/-- If a task answers the product of a factory, the factory made it during these events. -/
def Task.Yields (w : Workshop σ V) (new : List (Event V)) : Task σ V →
    Except Halt (Instance V) → Prop
  | .serve _, _ => True
  | .build r _ _ _, answer => ∀ product, answer = .ok product → product ∈ w.made r.key new

/-- What the parameters of a recipe lead to, its type leads to. -/
lemma Task.Leads.transGen {b : Book σ V} {t k : TypeKey} {r : Recipe σ V}
    {make : Factory σ V (Value V)} (hr : b.recipe? t = some r)
    (h : (Task.build r make [] r.parameters).Leads b k) : TransGen b.DependsOn t k := by
  obtain ⟨p, hp, hk⟩ := h
  exact hk.of_parameter hr hp

lemma Task.Leads.serve {b : Book σ V} {wanted : TypeRef} {k : TypeKey} {r : Recipe σ V}
    {make : Factory σ V (Value V)} (hr : b.recipe? wanted.key = some r)
    (h : (Task.build r make [] r.parameters).Leads b k) :
    (Task.serve (σ := σ) (V := V) wanted).Leads b k := by
  obtain ⟨p, hp, hk⟩ := h
  exact ⟨hk.1, (hk.of_parameter hr hp).to_reflTransGen⟩

/-- **A task fills places of types only that it leads to**, with products made meanwhile. -/
theorem Course.grows (hb : w.book.Keyed) (ha : w.book.Acyclic) {stack : List TypeKey}
    {task : Task σ V} {answer : Except Halt (Instance V)}
    (hc : Course w stack task m answer m') :
    ∃ new, w.Grows (task.Leads w.book) new m m' ∧ task.Yields w new answer := by
  induction hc with
  | missing absent => exact ⟨[], .refl _ _, trivial⟩
  | given found source => exact ⟨[], .refl _ _, trivial⟩
  | shelved found source there => exact ⟨[], .refl _ _, trivial⟩
  | @passed stack wanted m m' r make answer found source placeless built ih =>
      obtain ⟨new, hgrows, -⟩ := ih
      obtain ⟨notices, hreported⟩ := grows_reported (w := w)
        ((Task.serve wanted).Leads w.book) m' wanted.name answer
      exact ⟨_, ((grows_record _ _ _).trans (hgrows.mono fun k => .serve found)).trans
        hreported, trivial⟩
  | @kept stack wanted m m' r make answer found source placed empty built ih =>
      obtain ⟨new, hgrows, hyields⟩ := ih
      -- the type does not lead to itself, so its place stays empty until the product is there
      have hempty : m'.shelf.product? wanted.key = none :=
        hgrows.eq_none empty fun hleads => ha _ (hleads.transGen found)
      obtain ⟨notices, hreported⟩ := grows_reported (w := w)
        ((Task.serve wanted).Leads w.book) m' wanted.name answer
      have hall := ((grows_record _ m (.began (wanted.key :: stack))).trans
        (hgrows.mono fun k => .serve found)).trans hreported
      obtain ⟨more, hreleased, -⟩ := hall.released answer
        (by rwa [Moment.shelf_reported])
        ⟨Book.produces_iff.2 ⟨r, found⟩, .refl⟩ fun i hi => by
          rw [← hb.key_of_recipe? found]
          simp only [made_append, made_began, made_noted, List.nil_append, List.append_nil]
          exact hyields i hi
      exact ⟨_, hreleased, trivial⟩
  | @called stack r make ready m m' answer ended =>
      rw [runFrom_call] at ended
      obtain ⟨rfl, rfl⟩ := Prod.mk.inj ended
      refine ⟨[.called m.calls r.key ready (make ready m.world).1],
        .of_same rfl (fun _ => rfl) fun _ => rfl, fun product hproduct => ?_⟩
      rw [made_called hproduct]
      exact List.mem_singleton_self product
  | @skipped stack r make ready p rest m m' answer skips others ih =>
      obtain ⟨new, hgrows, hyields⟩ := ih
      exact ⟨new, hgrows.mono fun k ⟨q, hq, hk⟩ => ⟨q, List.mem_cons_of_mem p hq, hk⟩,
        hyields⟩
  | @supplied stack r make ready p rest m m₁ m' given answer argument asks served fits others
      ihs iho =>
      obtain ⟨before, hbefore, -⟩ := ihs
      obtain ⟨after, hafter, hyields⟩ := iho
      refine ⟨before ++ after, (hbefore.mono fun k hk => ?_).trans (hafter.mono ?_), ?_⟩
      · exact ⟨p, List.mem_cons_self .., hk⟩
      · exact fun k ⟨q, hq, hk⟩ => ⟨q, List.mem_cons_of_mem p hq, hk⟩
      · intro product hproduct
        rw [made_append]
        exact List.mem_append_right _ (hyields product hproduct)
  | @stopped stack r make ready p rest m m' given halt asks served unfit ih =>
      obtain ⟨new, hgrows, -⟩ := ih
      exact ⟨new, hgrows.mono fun k hk => ⟨p, List.mem_cons_self .., hk⟩,
        fun product hproduct => by cases hproduct⟩

/-- A query fills places of types only that it leads to, with products made meanwhile. -/
lemma Reached.grows (h : w.Reached m) (q : Query) :
    ∃ new, w.Grows (w.book.Reaches q.wanted.key) new m ((w.answer q).runFrom m).2 := by
  cases hidle : w.Idle q with
  | true =>
      rw [runFrom_answer_of_idle hidle]
      exact ⟨[], .refl _ _⟩
  | false =>
      rw [runFrom_answer hidle]
      obtain ⟨new, hgrows, -⟩ := (h.course q.wanted m).grows h.keyed h.complete.acyclic
      exact ⟨new, hgrows⟩

/-- Products stay where they are. -/
lemma Reached.product?_run (h : w.Reached m) (acts : List (Act σ)) {k : TypeKey}
    {i : Instance V} (hi : m.shelf.product? k = some i) :
    (w.run acts m).2.shelf.product? k = some i := by
  induction acts generalizing m with
  | nil => exact hi
  | cons a rest ih =>
      refine ih (h.after [a]) ?_
      cases a with
      | ask q =>
          obtain ⟨new, hgrows⟩ := h.grows q
          exact hgrows.keeps k i hi
      | look key => exact hi
      | elsewhere world => exact hi

/-! ### Places -/

/-- Just the types have a place whose products are made by a factory and then kept. -/
def Placed (w : Workshop σ V) (m : Moment σ V) : Prop :=
  ∀ k, m.shelf.contains k = w.book.keeps k

lemma Grows.placed (h : w.Grows within new m m') (hm : w.Placed m) : w.Placed m' :=
  fun k => (h.places k).trans (hm k)

/-- The shelf before anything is made has just these places, and all of them are empty. -/
lemma get?_emptyShelf (hb : w.book.Keyed) (k : TypeKey) :
    w.emptyShelf.get? k = if w.book.keeps k then some .empty else none := by
  have hkeys : (w.book.recipes.filter Recipe.isKept).map (fun r => (r.key, Place.empty)) =
      ((w.book.recipes.filter Recipe.isKept).map Recipe.key).map
        fun k => (k, (Place.empty : Place V)) := by
    rw [List.map_map]
    rfl
  have hmem : k ∈ (w.book.recipes.filter Recipe.isKept).map Recipe.key ↔
      w.book.keeps k = true := by
    simp only [Book.keeps, List.mem_map, List.mem_filter, Option.any_eq_true,
      hb.recipe?_eq_some_iff]
    exact exists_congr fun r => by tauto
  rw [emptyShelf, hkeys, Table.get?_ofList_const]
  exact if_congr hmem rfl rfl

lemma contains_emptyShelf (hb : w.book.Keyed) (k : TypeKey) :
    w.emptyShelf.contains k = w.book.keeps k := by
  rw [Table.contains, get?_emptyShelf hb]
  cases w.book.keeps k <;> rfl

lemma product?_emptyShelf (hb : w.book.Keyed) (k : TypeKey) :
    w.emptyShelf.product? k = none := by
  rw [Shelf.product?, get?_emptyShelf hb]
  cases w.book.keeps k <;> rfl

/-- Places are neither added nor removed. -/
lemma invariant_placed (hb : w.book.Keyed) (ha : w.book.Acyclic) : w.Invariant w.Placed where
  blank m hshelf _ _ k := by
    rw [hshelf]
    exact contains_emptyShelf hb k
  noted m notice hm := hm
  served m wanted answer m' hm hc := by
    obtain ⟨new, hgrows, -⟩ := hc.grows hb ha
    exact hgrows.placed hm
  elsewhere m world hm := hm

lemma Reached.placed (h : w.Reached m) : w.Placed m :=
  h.invariant (invariant_placed h.keyed h.complete.acyclic)

/-- The type of the product that a task is to answer. -/
def Task.key : Task σ V → TypeKey
  | .serve wanted => wanted.key
  | .build r _ _ _ => r.key

/-! ### What products have in common -/

/-- Whatever the recipes come up with has a property of products of their types: the existing
values, and what the factories make of any arguments at any time. -/
structure Supplies (w : Workshop σ V) (P : TypeKey → Instance V → Prop) : Prop where
  given : ∀ {key r product}, w.book.recipe? key = some r → r.source = .given product →
    P key product
  made : ∀ {key r make arguments world value}, w.book.recipe? key = some r →
    r.source = .factory make → (make arguments world).1.outcome = .made value →
    ∀ serial, P key (w.product serial value)

/-- The factory of a task makes only products that have the property. -/
def Task.Supplies (w : Workshop σ V) (P : TypeKey → Instance V → Prop) : Task σ V → Prop
  | .serve _ => True
  | .build r make _ _ => ∀ arguments world value,
      (make arguments world).1.outcome = .made value → ∀ serial, P r.key (w.product serial value)

/-- All products on the shelf have the property. -/
def Furnished (P : TypeKey → Instance V → Prop) (m : Moment σ V) : Prop :=
  ∀ k i, m.shelf.product? k = some i → P k i

section Supplies

variable {P : TypeKey → Instance V → Prop}

lemma Supplies.task (hP : w.Supplies P) (hb : w.book.Keyed) {key : TypeKey} {r : Recipe σ V}
    {make : Factory σ V (Value V)} (hr : w.book.recipe? key = some r)
    (hs : r.source = .factory make) : (Task.build r make [] r.parameters).Supplies w P :=
  fun _ _ _ ho serial => (hb.key_of_recipe? hr).symm ▸ hP.made hr hs ho serial

lemma Furnished.reported (hm : Furnished P m) (name : String)
    (answer : Except Halt (Instance V)) : Furnished P (m.reported name answer) := by
  intro k i hi
  rw [Moment.shelf_reported] at hi
  exact hm k i hi

/-- A product that has the property may be put on the shelf. -/
lemma Furnished.released (hm : Furnished P m) {wanted : TypeRef} {answer : Except Halt (Instance V)}
    (h : ∀ i, answer = .ok i → P wanted.key i) : Furnished P (m.released wanted answer) := by
  intro k i hi
  cases answer with
  | error halt => exact hm k i ((m.product?_released_error wanted halt k).symm.trans hi)
  | ok product =>
      by_cases hk : k = wanted.key
      · subst hk
        obtain rfl := Moment.eq_of_product?_store _ hi
        exact h i rfl
      · exact hm k i ((Moment.product?_store_of_ne _ hk product).symm.trans hi)

/-- **What all recipes supply is all that is answered**, and all that comes to the shelf. -/
theorem Course.furnished (hb : w.book.Keyed) (hP : w.Supplies P) {stack : List TypeKey}
    {task : Task σ V} {answer : Except Halt (Instance V)}
    (hc : Course w stack task m answer m') (hs : task.Supplies w P) (hm : Furnished P m) :
    Furnished P m' ∧ ∀ i, answer = .ok i → P task.key i := by
  induction hc with
  | missing absent => exact ⟨hm, fun i hi => by cases hi⟩
  | given found source =>
      refine ⟨hm, fun i hi => ?_⟩
      obtain rfl := Except.ok.inj hi
      exact hP.given found source
  | shelved found source there =>
      refine ⟨hm, fun i hi => ?_⟩
      obtain rfl := Except.ok.inj hi
      exact hm _ _ there
  | @passed stack wanted m m' r make answer found source placeless built ih =>
      obtain ⟨hm', hanswer⟩ := ih (hP.task hb found source) hm
      have hmade : ∀ i, answer = .ok i → P wanted.key i :=
        fun i hi => hb.key_of_recipe? found ▸ hanswer i hi
      exact ⟨hm'.reported wanted.name answer, hmade⟩
  | @kept stack wanted m m' r make answer found source placed empty built ih =>
      obtain ⟨hm', hanswer⟩ := ih (hP.task hb found source) hm
      have hmade : ∀ i, answer = .ok i → P wanted.key i :=
        fun i hi => hb.key_of_recipe? found ▸ hanswer i hi
      exact ⟨(hm'.reported wanted.name answer).released hmade, hmade⟩
  | @called stack r make ready m m' answer ended =>
      rw [runFrom_call] at ended
      obtain ⟨rfl, rfl⟩ := Prod.mk.inj ended
      refine ⟨hm, fun i hi => ?_⟩
      rcases ho : (make ready m.world).1.outcome with value | cause | text
      · rw [ho] at hi
        obtain rfl := Except.ok.inj hi
        exact hs ready m.world value ho m.calls
      all_goals
        rw [ho] at hi
        cases hi
  | skipped skips others ih => exact ih hs hm
  | supplied asks served fits others ihs iho => exact iho hs (ihs trivial hm).1
  | stopped asks served unfit ih => exact ⟨(ih trivial hm).1, fun i hi => by cases hi⟩

lemma Supplies.invariant (hP : w.Supplies P) (hb : w.book.Keyed) :
    w.Invariant (Furnished (σ := σ) P) where
  blank m hshelf _ _ k i hi := by
    rw [hshelf, product?_emptyShelf hb] at hi
    cases hi
  noted m notice hm := hm
  served m wanted answer m' hm hc := (hc.furnished hb hP trivial hm).1
  elsewhere m world hm := hm

end Supplies

/-! ### Types of products -/

/-- The products on the shelf are of the types they stand for. -/
def Typed (m : Moment σ V) : Prop :=
  ∀ k i, m.shelf.product? k = some i → i.value.key = k

/-- The factory of a task makes products of the type of its recipe. -/
def Task.Sound : Task σ V → Prop
  | .serve _ => True
  | .build r make _ _ => ∀ arguments world value,
      (make arguments world).1.outcome = .made value → value.key = r.key

lemma Task.sound_of_wellTyped {r : Recipe σ V} {make : Factory σ V (Value V)}
    (h : r.WellTyped) (hs : r.source = .factory make) :
    (Task.build r make [] r.parameters).Sound := by
  have hmake := h.2
  rwa [hs] at hmake

/-- Recipes that are well typed come up with products of their types. -/
lemma supplies_of_wellTyped (hb : w.book.Keyed)
    (hw : ∀ key r, w.book.recipe? key = some r → r.WellTyped) :
    w.Supplies fun k i => i.value.key = k where
  given {key r product} hr hs := by
    have hgiven := (hw key r hr).2
    rw [hs] at hgiven
    exact hgiven.2.trans (hb.key_of_recipe? hr)
  made {key r make arguments world value} hr hs ho serial :=
    (Task.sound_of_wellTyped (hw key r hr) hs arguments world value ho).trans
      (hb.key_of_recipe? hr)

/-- If the recipes are well typed, so are all answers, and what comes to the shelf. -/
lemma Course.typed (hb : w.book.Keyed)
    (hw : ∀ key r, w.book.recipe? key = some r → r.WellTyped) {stack : List TypeKey}
    {task : Task σ V} {answer : Except Halt (Instance V)}
    (hc : Course w stack task m answer m') (hs : task.Sound) (hm : Typed m) :
    Typed m' ∧ ∀ i, answer = .ok i → i.value.key = task.key := by
  refine hc.furnished hb (supplies_of_wellTyped hb hw) ?_ hm
  cases task with
  | serve wanted => trivial
  | build r make ready rest => exact fun arguments world value ho _ => hs arguments world value ho

lemma invariant_typed (hb : w.book.Keyed)
    (hw : ∀ key r, w.book.recipe? key = some r → r.WellTyped) :
    w.Invariant (Typed (σ := σ)) :=
  (supplies_of_wellTyped hb hw).invariant hb

lemma Reached.typed (h : w.Reached m) : Typed m :=
  h.invariant (invariant_typed h.keyed fun _ _ => h.wellTyped)

end Workshop

end Wiring
