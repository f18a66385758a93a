/-
Workers who wait for locks.

* `Worker.Awaits`: the next step of a worker is to take a lock;
  `Worker.Sound.dependsOn`: every type whose lock it holds depends on the one it waits for;
* `Worker.Sound.exists_move`: a worker with requests left can move, unless it waits for a lock
  that is taken;
* `Floor.WaitsFor`: a worker waits for a lock that another one holds;
* `Floor.Reached.no_deadlock`: **in a book without circles no workers wait for each other in a
  circle, and as long as a worker has requests left, one of them can move**.
-/
import Wiring.Proofs.Floor.Order
import Wiring.Proofs.Floor.Schedule

namespace Wiring

open Relation

variable {ι σ V : Type}

/-! ### One worker -/

namespace Worker

/-- The next step of the worker is to take the lock of the place of `key`. It waits until the
lock is free. -/
def Awaits (x : Worker σ V) (m : Moment σ V) (key : TypeKey) : Prop :=
  ∃ wanted outer, x.errands = ⟨wanted, .posed⟩ :: outer ∧ wanted.key = key ∧
    m.shelf.contains key = true

variable {w : Workshop σ V} {x : Worker σ V} {h : Hall σ V} {m : Moment σ V}

/-- The types that a worker is busy with depend on each other, the outer on the inner ones,
whether their places are locked or not. -/
lemma isStack_of_nested {e : Errand σ V} {outer : List (Errand σ V)}
    (hnested : (e :: outer).IsChain (Errand.Serves w))
    (hstages : ∀ o ∈ outer, o.stage.Sound w m o.wanted) :
    w.book.IsStack (stack outer) ∧ w.book.IsNext (stack outer) e.wanted.key := by
  induction outer generalizing e with
  | nil => exact ⟨Book.isStack_nil, Book.isNext_nil _⟩
  | cons o outer ih =>
      obtain ⟨hserves, hrest⟩ := List.isChain_cons_cons.1 hnested
      obtain ⟨hsound, houter⟩ := List.forall_mem_cons.1 hstages
      obtain ⟨hstack, hnext⟩ := ih hrest houter
      obtain ⟨holds, r, make, ready, p, rest, hstage, hwanted, -⟩ := hserves
      rw [hstage] at hsound
      obtain ⟨hr, -, -, -, -, done, hdone, -⟩ := hsound
      have hp : p ∈ r.parameters := by simp [hdone]
      refine ⟨hstack.push (Book.produces_iff.2 ⟨r, hr⟩) hnext, ?_⟩
      rw [hwanted]
      exact Book.isNext_parameter hr hp

/-- **What a worker holds depends on what it waits for.** -/
theorem Sound.dependsOn (hx : x.Sound w m) (hp : w.Placed m) {u v : TypeKey}
    (hu : x.Awaits m u) (hv : v ∈ x.held) : TransGen w.book.DependsOn v u := by
  obtain ⟨wanted, outer, herrands, rfl, hplace⟩ := hu
  obtain ⟨hnested, hstages, -⟩ := hx
  rw [herrands] at hnested hstages
  rw [held, herrands, heldFor_cons] at hv
  obtain ⟨hstack, hnext⟩ := isStack_of_nested hnested (List.forall_mem_cons.1 hstages).2
  have hproduces : w.book.produces wanted.key = true := by
    obtain ⟨r, hr, -⟩ := (Option.any_eq_true _ _).1 ((hp wanted.key).symm.trans hplace)
    exact Book.produces_iff.2 ⟨r, hr⟩
  exact (hstack.push hproduces hnext).transGen (mem_stack_of_heldFor hv)

/-- **A worker with requests left can move, unless it waits for a lock that is taken.** -/
theorem Sound.exists_move (hx : x.Sound w h.moment) (hleft : ¬ x.Done) :
    (∃ x' h', w.Move x h x' h') ∨
      ∃ key, x.Awaits h.moment key ∧ h.locked key = true := by
  obtain ⟨errands, todo, answered⟩ := x
  cases errands with
  | nil =>
      cases todo with
      | nil => exact absurd ⟨rfl, rfl⟩ hleft
      | cons wanted todo => exact .inl ⟨_, _, .begins⟩
  | cons e outer =>
      obtain ⟨wanted, stage⟩ := e
      cases stage with
      | posed =>
          cases hr : w.book.recipe? wanted.key with
          | none => exact .inl ⟨_, _, .proceeds (.missing hr)⟩
          | some r =>
              cases hsource : r.source with
              | given product => exact .inl ⟨_, _, .proceeds (.given hr hsource)⟩
              | factory make =>
                  cases hplace : h.moment.shelf.contains wanted.key with
                  | false => exact .inl ⟨_, _, .proceeds (.passed hr hsource hplace)⟩
                  | true =>
                      cases hlock : h.locked wanted.key with
                      | false => exact .inl ⟨_, _, .proceeds (.taken hr hsource hplace hlock)⟩
                      | true => exact .inr ⟨_, ⟨wanted, outer, rfl, rfl, hplace⟩, hlock⟩
      | locked r make =>
          cases hproduct : h.moment.shelf.product? wanted.key with
          | none => exact .inl ⟨_, _, .proceeds (.empty hproduct)⟩
          | some product => exact .inl ⟨_, _, .proceeds (.found hproduct)⟩
      | building holds r make ready rest =>
          cases rest with
          | nil => exact .inl ⟨_, _, .proceeds (.called rfl)⟩
          | cons p rest =>
              cases hskips : w.Skips p with
              | true => exact .inl ⟨_, _, .proceeds (.skipped hskips)⟩
              | false => exact .inl ⟨_, _, .asks hskips⟩
      | built product => exact .inl ⟨_, _, .proceeds .stored⟩
      | finished holds given =>
          cases holds with
          | true => exact .inl ⟨_, _, .proceeds .released⟩
          | false =>
              cases outer with
              | nil => exact .inl ⟨_, _, .answers⟩
              | cons o outer =>
                  -- the next outer request waits for just this answer
                  obtain ⟨hserves, -⟩ := List.isChain_cons_cons.1 hx.nested
                  obtain ⟨holds, r, make, ready, p, rest, hstage, -⟩ := hserves
                  obtain ⟨wanted', stage'⟩ := o
                  obtain rfl : stage' = _ := hstage
                  cases hfits : p.need.receive given with
                  | ok argument => exact .inl ⟨_, _, .supplied hfits⟩
                  | error halt => exact .inl ⟨_, _, .stopped hfits⟩

/-- A worker who holds a lock has requests left. -/
lemma not_done_of_mem_held {k : TypeKey} (hk : k ∈ x.held) : ¬ x.Done := by
  rintro ⟨herrands, -⟩
  rw [held, herrands] at hk
  cases hk

end Worker

/-! ### The floor -/

namespace Floor

variable {w : Workshop σ V} {f : Floor ι σ V}

/-- The worker `i` waits for a lock that `j` holds. -/
def WaitsFor (f : Floor ι σ V) (i j : ι) : Prop :=
  ∃ u, (f.workers i).Awaits f.hall.moment u ∧ u ∈ (f.workers j).held

/-- The type whose lock a worker waits for leads to those whose locks are waited for by the
workers before the end of a chain of waiting workers. -/
lemma Orderly.exists_of_transGen (ho : f.Orderly w) {i j : ι} (h : TransGen f.WaitsFor i j) :
    ∃ u v, (f.workers i).Awaits f.hall.moment u ∧ v ∈ (f.workers j).held ∧
      ReflTransGen w.book.DependsOn u v := by
  induction h with
  | single h =>
      obtain ⟨u, hu, hheld⟩ := h
      exact ⟨u, u, hu, hheld, .refl⟩
  | tail _ h ih =>
      obtain ⟨u, v, hu, hv, hleads⟩ := ih
      obtain ⟨u', hu', hheld⟩ := h
      exact ⟨u, u', hu, hheld,
        hleads.trans ((ho.sound _).dependsOn ho.placed hu' hv).to_reflTransGen⟩

/-- As long as a lock is held, one of the workers can move: its holder, or the one whom the
holder waits for, or whom this one waits for, and so on. The types whose locks these workers
wait for depend on one another, so this comes to an end. -/
lemma Orderly.exists_move_of_held (ho : f.Orderly w) (ha : w.book.Acyclic) {k : TypeKey}
    {i : ι} (hk : k ∈ (f.workers i).held) :
    ∃ j x h, w.Move (f.workers j) f.hall x h := by
  induction k using (ha.wellFounded.transGen).induction generalizing i with
  | h k ih =>
      rcases (ho.sound i).exists_move (Worker.not_done_of_mem_held hk) with
        ⟨x, h, hmove⟩ | ⟨u, hu, hlocked⟩
      · exact ⟨i, x, h, hmove⟩
      · obtain ⟨j, hj⟩ := (ho.guarded.locked_iff u).1 hlocked
        have hleads : TransGen w.book.DependsOn k u := (ho.sound i).dependsOn ho.placed hu hk
        exact ih u (transGen_swap.2 hleads) hj

variable [DecidableEq ι]

/-- **No deadlock.** In whatever order the workers have moved, a worker waits only for locks of
types that those depend on whose locks it holds. So no workers wait for each other in a circle.
A worker with requests left can move or waits for another worker, and as long as there is such
a worker, one of them can move. -/
theorem Reached.no_deadlock (hf : f.Reached w) :
    (∀ i u v, (f.workers i).Awaits f.hall.moment u → v ∈ (f.workers i).held →
        TransGen w.book.DependsOn v u) ∧
      (∀ i, ¬ TransGen f.WaitsFor i i) ∧
      (∀ i, ¬ (f.workers i).Done →
        (∃ x h, w.Move (f.workers i) f.hall x h) ∨ ∃ j, f.WaitsFor i j) ∧
      ((∃ i, ¬ (f.workers i).Done) → ∃ i x h, w.Move (f.workers i) f.hall x h) := by
  have ho := hf.orderly
  have ha := hf.complete.acyclic
  have hstuck : ∀ i, ¬ (f.workers i).Done →
      (∃ x h, w.Move (f.workers i) f.hall x h) ∨ ∃ j, f.WaitsFor i j := by
    intro i hleft
    refine ((ho.sound i).exists_move hleft).imp_right ?_
    rintro ⟨u, hu, hlocked⟩
    obtain ⟨j, hj⟩ := (ho.guarded.locked_iff u).1 hlocked
    exact ⟨j, u, hu, hj⟩
  refine ⟨fun i u v hu hv => (ho.sound i).dependsOn ho.placed hu hv, fun i hcircle => ?_, hstuck,
    ?_⟩
  · obtain ⟨u, v, hu, hv, hleads⟩ := ho.exists_of_transGen hcircle
    exact ha v (((ho.sound i).dependsOn ho.placed hu hv).trans_left hleads)
  · rintro ⟨i, hleft⟩
    rcases hstuck i hleft with ⟨x, h, hmove⟩ | ⟨j, u, -, hj⟩
    · exact ⟨i, x, h, hmove⟩
    · exact ho.exists_move_of_held ha hj

/-- In an encounter one worker waits for the other, who can move. -/
theorem no_deadlock_encounter :
    (Workshop.sampleFloor Workshop.encounter).Reached (Workshop.sample [Workshop.needsFirst]) ∧
      (Workshop.sampleFloor Workshop.encounter).WaitsFor true false ∧
      .product 1 ∈ ((Workshop.sampleFloor Workshop.encounter).workers true).held ∧
      TransGen (Workshop.sample [Workshop.needsFirst]).book.DependsOn
        (.product 1) (.product 0) ∧
      (∀ i, ¬ TransGen (Workshop.sampleFloor Workshop.encounter).WaitsFor i i) ∧
      ∃ i x h, (Workshop.sample [Workshop.needsFirst]).Move
        ((Workshop.sampleFloor Workshop.encounter).workers i)
        (Workshop.sampleFloor Workshop.encounter).hall x h := by
  have hreached := Workshop.reached_sampleFloor Workshop.encounter
  have hwaits : ((Workshop.sampleFloor Workshop.encounter).workers true).Awaits
      (Workshop.sampleFloor Workshop.encounter).hall.moment (.product 0) :=
    ⟨_, _, rfl, rfl, rfl⟩
  have hheld : ((Workshop.sampleFloor Workshop.encounter).workers true).held = [.product 1] :=
    rfl
  have hother : ((Workshop.sampleFloor Workshop.encounter).workers false).held = [.product 0] :=
    rfl
  obtain ⟨hdepends, hcircle, -, hmove⟩ := Reached.no_deadlock hreached
  have hmem : .product 1 ∈ ((Workshop.sampleFloor Workshop.encounter).workers true).held := by
    simp [hheld]
  exact ⟨hreached, ⟨_, hwaits, by simp [hother]⟩, hmem, hdepends true _ _ hwaits hmem, hcircle,
    hmove ⟨true, Worker.not_done_of_mem_held hmem⟩⟩

end Floor

end Wiring
