/-
The tables of a workshop, from the draft of its component to the places of its shelf.

* `Draft.Tabled`: the recipes of a draft and the places it knows for their types agree;
  `Draft.Holds.tabled`: they do whatever was inserted;
* `Book.MakesSingleton`, `Workshop.Agrees`: the types whose products are made by a factory and
  then kept are those that have a place on the shelf; `Workshop.Passes.agrees`: this is so
  whenever a request is made;
* `Workshop.Move.calls`: a move calls a factory only for an errand that has all arguments, and
  leaves the locks alone;
* `Floor.InUse`, `Floor.InUse.placesKept`: **whatever the workers come to, what is made without
  a lock is not kept, and no factory of a singleton is called but by the worker who holds the
  lock of its place**;
* `Draft.tables_agree`: all these tables agree, from whatever additions the component was built.
-/
import Wiring.Proofs.Component.Merging
import Wiring.Proofs.Book.Listing
import Wiring.Proofs.Workshop.Nesting
import Wiring.Proofs.Workshop.Renewal
import Wiring.Proofs.Floor.Order
import Wiring.Proofs.Floor.Schedule

namespace Wiring

open Relation

variable {ι σ V : Type}

/-! ### Drafts -/

namespace Draft

/-- The recipes of a draft and the places it knows for their types agree. -/
structure Tabled (d : Draft σ V) : Prop where
  /-- The place of a type is that of a recipe for it. -/
  indexed : d.Indexed
  /-- No type has two recipes. -/
  distinct : (d.recipes.map Recipe.key).Nodup
  /-- Just the types with a recipe have a place. -/
  listed : ∀ key, d.positions.contains key ↔ key ∈ d.recipes.map Recipe.key
  /-- No place is beyond the end of the list. -/
  within : ∀ key position, d.positions.get? key = some position → position < d.recipes.length

/-- Insertions make tables that agree. -/
lemma Holds.tabled {d : Draft σ V} {entries : List (Inserted σ V)} (h : d.Holds entries) :
    d.Tabled where
  indexed := h.indexed
  distinct := h.keys ▸ nodup_eraseDups _
  listed key := by
    rw [Table.contains, Option.isSome_iff_ne_none, Ne, h.get?_eq_none_iff, not_not,
      ← List.mem_eraseDups, ← h.keys]
  within key position hposition := by
    obtain ⟨r, hr, -⟩ := (h.indexed key position).1 hposition
    exact (List.getElem?_eq_some_iff.1 hr).1

end Draft

/-! ### Books and shelves -/

/-- The recipe of a type is a factory whose product is kept. -/
def Book.MakesSingleton (b : Book σ V) (key : TypeKey) : Prop :=
  ∃ r make, b.recipe? key = some r ∧ r.source = .factory make ∧ r.lifetime = .singleton

lemma Book.keeps_iff {b : Book σ V} {key : TypeKey} : b.keeps key ↔ b.MakesSingleton key := by
  rw [keeps, Option.any_eq_true]
  constructor
  · rintro ⟨r, hr, hkept⟩
    obtain ⟨hlifetime, hgiven⟩ := Bool.and_eq_true_iff.1 hkept
    cases hsource : r.source with
    | given product => simp [Recipe.isGiven, hsource] at hgiven
    | factory make => exact ⟨r, make, hr, hsource, of_decide_eq_true hlifetime⟩
  · rintro ⟨r, make, hr, hsource, hlifetime⟩
    exact ⟨r, hr, by simp [Recipe.isKept, Recipe.isGiven, hsource, hlifetime]⟩

/-- What a factory makes is made anew for every request, if it is not kept. -/
lemma Book.transient_of_keeps {b : Book σ V} {key : TypeKey} {r : Recipe σ V}
    {make : Factory σ V (Value V)} (hr : b.recipe? key = some r) (hs : r.source = .factory make)
    (h : b.keeps key = false) : r.lifetime = .transient := by
  cases hlifetime : r.lifetime with
  | transient => rfl
  | singleton =>
      rw [keeps_iff.2 ⟨r, make, hr, hs, hlifetime⟩] at h
      cases h

namespace Workshop

variable {w : Workshop σ V} {m : Moment σ V}

/-- The places of the shelf agree with the book. -/
structure Agrees (w : Workshop σ V) (m : Moment σ V) : Prop where
  /-- Just the types have a place whose recipe is a factory for a singleton. -/
  place_iff : ∀ key, m.shelf.contains key ↔ w.book.MakesSingleton key
  /-- A factory for a type without a place makes its products anew for every request. -/
  placeless : ∀ key r make, w.book.recipe? key = some r → r.source = .factory make →
    m.shelf.get? key = none → r.lifetime = .transient

lemma Placed.agrees (h : w.Placed m) : w.Agrees m where
  place_iff key := by rw [h key, Book.keeps_iff]
  placeless key r make hr hs hnone := by
    refine Book.transient_of_keeps hr hs ?_
    rw [← h key, Table.contains, hnone]
    rfl

/-- Requests neither add nor remove places. -/
lemma lasting_placed (hb : w.book.Keyed) (ha : w.book.Acyclic) : w.Lasting w.Placed where
  began _ _ hm := hm
  served stack wanted m answer m' hm hc := by
    obtain ⟨new, hgrows, -⟩ := hc.grows hb ha
    exact hgrows.placed hm

/-- Whenever a request is made, the places agree with the book. -/
lemma Passes.agrees (hb : w.book.Keyed) (ha : w.book.Acyclic) {stack : List TypeKey}
    {wanted : TypeRef} (h : w.Passes stack wanted m) : w.Agrees m :=
  Placed.agrees (h.keeps (lasting_placed hb ha) (invariant_placed hb ha) ha)

/-! ### Calls of factories -/

variable {stack : List TypeKey} {wanted : TypeRef} {stage stage' : Stage σ V}
  {x x' : Worker σ V} {h h' : Hall σ V}

/-- An errand calls a factory when all arguments are there, and no other one. -/
lemma Advance.calls (hs : w.Advance stack wanted stage h stage' h') (key : TypeKey) :
    callsOf key h'.moment.trace = callsOf key h.moment.trace ∨
      stage'.holds = stage.holds ∧
        ∃ holds r make ready, stage = .building holds r make ready [] ∧ r.key = key := by
  cases hs with
  | passed found source placeless => exact .inl (callsOf_record_began ..)
  | empty empty => exact .inl (callsOf_record_began ..)
  | @called h holds r make ready answer m ended =>
      rw [runFrom_call] at ended
      obtain ⟨-, rfl⟩ := Prod.mk.inj ended
      by_cases hkey : r.key = key
      · exact .inr ⟨Stage.holds_ended .., holds, r, make, ready, rfl, hkey⟩
      · refine .inl ?_
        rw [Hall.moment_turnTo, callsOf_reported, callsOf_append]
        simp [callsOf, Event.isCallOf, hkey]
  | stored => exact .inl (callsOf_released ..)
  | @released h answer =>
      refine .inl ?_
      change callsOf key (h.moment.left wanted answer).trace = callsOf key h.moment.trace
      rw [Moment.trace_left]
  | _ => exact .inl rfl

/-- **A move calls a factory only for an errand that has all arguments**, and neither takes nor
gives back a lock then. -/
theorem Move.calls (hm : w.Move x h x' h') (key : TypeKey) :
    callsOf key h'.moment.trace = callsOf key h.moment.trace ∨
      x'.held = x.held ∧ ∃ e ∈ x.errands, ∃ holds r make ready,
        e.stage = .building holds r make ready [] ∧ r.key = key := by
  cases hm with
  | proceeds step =>
      refine (step.calls key).imp_right ?_
      rintro ⟨hholds, hstage⟩
      exact ⟨by simp only [Worker.held, Worker.heldFor_cons, hholds], _,
        List.mem_cons_self .., hstage⟩
  | stopped unfit => exact .inl (callsOf_reported ..)
  | _ => exact .inl rfl

end Workshop

/-! ### Floors -/

namespace Floor

variable [DecidableEq ι] {w : Workshop σ V} {f : Floor ι σ V}

/-- The workers come to this, in some order of their moves, from a moment when nothing was under
construction, no lock was taken and nobody was busy. The workshop may have been still about to
open then. -/
def InUse (w : Workshop σ V) (f : Floor ι σ V) : Prop :=
  ∃ f₀ : Floor ι σ V, w.Rests f₀.hall.moment ∧ (∀ k, f₀.hall.locked k = false) ∧
    (∀ i, (f₀.workers i).errands = [] ∧ (f₀.workers i).answered = []) ∧
    ReflTransGen w.Turn f₀ f

/-- The floor of an opened workshop is in use. -/
lemma Reached.inUse (h : f.Reached w) : f.InUse w := by
  obtain ⟨f₀, hstart, hturns⟩ := h
  exact ⟨f₀, hstart.reached.rests, hstart.free, hstart.idle, hturns⟩

lemma InUse.orderly (hb : w.book.Keyed) (ha : w.book.Acyclic) (h : f.InUse w) :
    f.Orderly w := by
  obtain ⟨f₀, hrests, hfree, hidle, hturns⟩ := h
  have hplaced : w.Placed f₀.hall.moment := hrests.invariant ha (Workshop.invariant_placed hb ha)
  exact (orderly_of_idle hplaced hfree hidle).turns hb hturns

/-- The workers use the places as the book wants it. -/
structure PlacesKept (w : Workshop σ V) (f : Floor ι σ V) : Prop where
  /-- The places agree with the book. -/
  agrees : w.Agrees f.hall.moment
  /-- A product that is made without the lock of a place is made anew for every request. -/
  unlocked : ∀ i, ∀ e ∈ (f.workers i).errands, ∀ r make ready rest,
    e.stage = .building false r make ready rest →
      w.book.recipe? e.wanted.key = some r ∧ r.lifetime = .transient
  /-- A worker who calls the factory of a singleton holds the lock of its place before and after
  the call, and nobody else does. -/
  called : ∀ i x h key, w.Move (f.workers i) f.hall x h →
    Workshop.callsOf key h.moment.trace ≠ Workshop.callsOf key f.hall.moment.trace →
    w.book.MakesSingleton key → f.hall.locked key = true ∧ key ∈ (f.workers i).held ∧
      key ∈ x.held ∧ ∀ j, key ∈ (f.workers j).held → j = i

/-- **No factory of a singleton is called without the lock of its place**, in whatever order the
workers move. -/
theorem InUse.placesKept (hb : w.book.Keyed) (ha : w.book.Acyclic) (h : f.InUse w) :
    f.PlacesKept w := by
  have ho := h.orderly hb ha
  refine ⟨ho.placed.agrees, fun i e he r make ready rest hstage => ?_,
    fun i x hall key hmove hcalls hkey => ?_⟩
  · have hsound := (ho.sound i).stages e he
    rw [hstage] at hsound
    obtain ⟨hr, hsource, hholds, -⟩ := hsound
    exact ⟨hr, Book.transient_of_keeps hr hsource hholds.symm⟩
  · obtain ⟨hsame, e, he, holds, r, make, ready, hstage, rfl⟩ :=
      (hmove.calls key).resolve_left hcalls
    have hsound := (ho.sound i).stages e he
    rw [hstage] at hsound
    obtain ⟨hr, -, hholds, -⟩ := hsound
    -- the place of a kept type is locked for as long as its product is made
    have hwanted : r.key = e.wanted.key := hb.key_of_recipe? hr
    have hheld : r.key ∈ (f.workers i).held := by
      rw [hwanted]
      refine Worker.mem_heldFor he ?_
      rw [hstage, Stage.holds_building, hholds, ← hwanted]
      exact Book.keeps_iff.2 hkey
    exact ⟨(ho.guarded.locked_iff r.key).2 ⟨i, hheld⟩, hheld, hsame ▸ hheld,
      fun j hj => ho.guarded.alone j i r.key hj hheld⟩

end Floor

namespace Draft

/-- **The tables agree**, from the draft to the shelf. Whatever recipes were inserted into a
draft, and whatever recipes and components were added to it, the places it knows are those of
the types it has, each that of their only recipe. The book of the component that is built from
it lists just the recipes of the component, in their order, and these are found when their types
are looked up one after the other. The shelf of a workshop with this book has a place for a type
exactly if its recipe is a factory for a singleton, and if the book has no defects, it is so
whenever a request is made, by one or by several workers. So what is made without a place is not
kept, and no factory of a singleton is called without the lock of its place. -/
theorem tables_agree (name : String) (additions : List (Addition σ V)) :
    (∀ entries : List (Inserted σ V), ((new name).insertEach entries).Tabled) ∧
    (accumulate name additions).Tabled ∧
    ∀ c, (accumulate name additions).build = .ok c → ∀ requiredExports serial,
      let w : Workshop σ V := ⟨serial, .of c requiredExports⟩
      w.book.recipes = c.recipes ∧ (c.recipes.map Recipe.key).Nodup ∧
      (c.recipes.map Recipe.key).filterMap w.book.recipe? = c.recipes ∧
      (∀ key, w.emptyShelf.contains key ↔ w.book.MakesSingleton key) ∧
      (w.book.check = .ok () →
        (∀ stack wanted m, w.Passes stack wanted m → w.Agrees m) ∧
        ∀ (ι : Type) [DecidableEq ι] (f : Floor ι σ V), f.InUse w → f.PlacesKept w) := by
  refine ⟨fun entries => ((holds_new name).insertEach entries).tabled,
    (holds_accumulate name additions).tabled, fun c hbuild exports serial => ?_⟩
  intro w
  have hb : w.book.Keyed := Book.keyed_of c exports
  have hn : (c.recipes.map Recipe.key).Nodup := Component.Built.nodup ⟨name, additions, hbuild⟩
  refine ⟨Book.recipes_of hn, hn, Book.filterMap_recipe? fun r hr => ?_, fun key => ?_,
    fun hcheck => ?_⟩
  · exact (Book.recipe?_of_iff hn).2 ⟨hr, rfl⟩
  · rw [Workshop.contains_emptyShelf hb, Book.keeps_iff]
  · have ha := ((Book.check_eq_ok_iff hb).1 hcheck).acyclic
    exact ⟨fun stack wanted m hpasses => hpasses.agrees hb ha,
      fun ι _ f huse => huse.placesKept hb ha⟩

/-- The recipes of the sample as they may come about: the first one is added as a factory that
makes a product for every request, and overridden by the factory of a singleton. -/
def sampleAdditions : List (Addition Unit Unit) :=
  [.recipe .adding (.ofFactory 3 .transient (.product 0) []
      fun _ world => (⟨.made (), []⟩, world)),
    .component .overriding ⟨"first", [.ofFactory 0 .retained (.product 0) []
      fun _ world => (⟨.made (), []⟩, world)]⟩,
    .recipe .adding (.ofFactory 1 .retained (.product 1) [Workshop.needsFirst]
      fun _ world => (⟨.made (), []⟩, world)),
    .recipe .adding (.ofValue 2 .settings (.given 0) .empty)]

/-- The worker who is about to call the factory of the first singleton holds its lock, while the
other worker is busy with the second one. -/
theorem tables_agree_sample :
    let w := Workshop.sample [Workshop.needsFirst]
    let f := Workshop.sampleFloor Workshop.encounter
    (accumulate "sample" sampleAdditions).Tabled ∧
    (∃ c, (accumulate "sample" sampleAdditions).build = .ok c ∧ w.book.recipes = c.recipes) ∧
    w.book.check = .ok () ∧ f.InUse w ∧
    (∃ stack inner m, stack ≠ [] ∧ w.Passes stack inner m ∧ w.Agrees m) ∧
    ∃ x h, w.Move (f.workers false) f.hall x h ∧
      Workshop.callsOf (.product 0) h.moment.trace ≠
        Workshop.callsOf (.product 0) f.hall.moment.trace ∧
      f.hall.locked (.product 0) = true ∧ .product 0 ∈ (f.workers false).held ∧
      ∀ j, .product 0 ∈ (f.workers j).held → j = false := by
  intro w f
  have hbuild : (accumulate "sample" sampleAdditions).build =
      .ok ⟨"sample", w.book.recipes⟩ := rfl
  have hcheck : w.book.check = .ok () := rfl
  have huse : f.InUse w := (Workshop.reached_sampleFloor Workshop.encounter).inUse
  have hpasses : w.Passes [.product 1] (.of (.product 0))
      ((Workshop.sampleStart [Workshop.needsFirst]).record (.began [.product 1])) :=
    ⟨_, .of (.product 1), ((Workshop.opened_sample rfl).reached []).rests,
      .deeper rfl rfl rfl (List.nil_append [Workshop.needsFirst]).symm rfl rfl .itself⟩
  obtain ⟨-, htabled, hbuilt⟩ := tables_agree "sample" sampleAdditions
  obtain ⟨hrecipes, -, -, -, hagree⟩ := hbuilt _ hbuild [.of (.product 1)] 0
  obtain ⟨hagrees, hkept⟩ := hagree hcheck
  obtain ⟨x, h, hmove, hcalls⟩ : ∃ x h, w.Move (f.workers false) f.hall x h ∧
      Workshop.callsOf (.product 0) h.moment.trace ≠
        Workshop.callsOf (.product 0) f.hall.moment.trace :=
    ⟨_, _, .proceeds (.called rfl), by decide⟩
  obtain ⟨hlocked, hheld, -, halone⟩ :=
    (hkept Bool f huse).called false x h (.product 0) hmove hcalls ⟨_, _, rfl, rfl, rfl⟩
  exact ⟨htabled, ⟨_, hbuild, hrecipes⟩, hcheck, huse, ⟨_, _, _, by simp, hpasses,
    hagrees _ _ _ hpasses⟩, x, h, hmove, hcalls, hlocked, hheld, halone⟩

end Draft

end Wiring
