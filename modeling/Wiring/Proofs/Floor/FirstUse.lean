/-
Workers who want the same singletons for the first time, all at once.

* `Workshop.Move.settles`: what a move does to the record of factory calls: a product that is
  made with the lock of its place is due until it is put there;
* `Floor.Balanced`: the record agrees with the shelf, up to the products that workers are
  about to put there; `Floor.Reached.balanced`: this is so whatever the workers come to;
* `Floor.Once`, `Floor.Agreed`: of a singleton at most one was made, and everybody who got one
  got the same;
* `Floor.Reached.first_use`: **in any order of their moves the workers keep the locks apart,
  no place changes once it is filled, and each singleton is made at most once and is the same
  for all**.
-/
import Wiring.Proofs.Floor.Order
import Wiring.Proofs.Floor.Schedule

namespace Wiring

open Relation

variable {ι σ V : Type}

namespace Workshop

variable {w : Workshop σ V} {stack : List TypeKey} {wanted : TypeRef}
  {stage stage' : Stage σ V} {x x' : Worker σ V} {h h' : Hall σ V}

/-- The record after a step of an errand. A product that is made with the lock of its place
is due from then on, until it is put there. -/
lemma Advance.ledger (hb : w.book.Keyed) (hs : w.Advance stack wanted stage h stage' h')
    (hsound : stage.Sound w h.moment wanted) :
    (stage'.pending = stage.pending ∧ ∀ due, w.Ledger due h.moment → w.Ledger due h'.moment) ∨
      (∃ product, stage.holds = true ∧ stage.pending = none ∧ stage'.pending = some product ∧
        ∀ due, w.Ledger due h.moment →
          w.Ledger (Function.update due wanted.key (due wanted.key ++ [product])) h'.moment) ∨
      ∃ product, stage.pending = some product ∧ stage'.pending = none ∧
        ∀ due, w.Ledger due h.moment → due wanted.key = [product] →
          w.Ledger (Function.update due wanted.key []) h'.moment := by
  cases hs with
  | passed found source placeless => exact .inl ⟨rfl, fun due hl => hl.began _⟩
  | empty empty => exact .inl ⟨rfl, fun due hl => hl.began _⟩
  | @called h holds r make ready answer m ended =>
      obtain ⟨hr, -, hholds, -, hunder⟩ := hsound
      have hready : List.Forall₂ (w.Received h.moment) r.parameters ready :=
        hunder.forall₂.imp fun p a ha => ha.1
      have hkey : r.key = wanted.key := hb.key_of_recipe? hr
      cases holds with
      | false =>
          refine .inl ⟨rfl, fun due hl => ?_⟩
          have hnot : w.book.keeps r.key = false := by rw [hkey, ← hholds]
          have hcalled := hl.called hunder.1 hready ended
          have hsame := hcalled.congr_of_not_keeps hnot fun k hne =>
            (Function.update_of_ne hne _ due).symm
          exact hsame.reported _ _
      | true =>
          cases answer with
          | error halt =>
              refine .inl ⟨rfl, fun due hl => ?_⟩
              have hcalled := hl.called hunder.1 hready ended
              simp only [Except.toOption, Option.toList, List.append_nil,
                Function.update_eq_self] at hcalled
              exact hcalled.reported _ _
          | ok product =>
              refine .inr (.inl ⟨product, rfl, rfl, rfl, fun due hl => ?_⟩)
              have hcalled : w.Ledger (Function.update due r.key (due r.key ++ [product])) m :=
                hl.called hunder.1 hready ended
              rw [hkey] at hcalled
              exact hcalled.reported wanted.name (.ok product)
  | @stored h product =>
      refine .inr (.inr ⟨product, rfl, rfl, fun due hl hdue => ?_⟩)
      exact (hl.noted (.constructed wanted.name)).store hdue hsound.1 hsound.2
  | released =>
      exact .inl ⟨rfl, fun due hl => hl.quiet [] (List.forall_mem_nil _)
        ((h.moment.trace_left ..).trans (List.append_nil _).symm)
        (h.moment.contains_left _ _) (h.moment.product?_left _ _)⟩
  | _ => exact .inl ⟨rfl, fun due hl => hl⟩

/-- How the products that a worker is about to put in their places change in a move, and what
the record then says. -/
inductive Settles (w : Workshop σ V) (x x' : Worker σ V) (m m' : Moment σ V) : Prop
  /-- The same products are due. -/
  | same (pending : x'.pending = x.pending)
      (ledger : ∀ due, w.Ledger due m → w.Ledger due m')
  /-- A product was made for a place whose lock is held, and is due as well. -/
  | makes (key : TypeKey) (product : Instance V) (held : key ∈ x.held)
      (fresh : ∀ q, (key, q) ∉ x.pending) (pending : x'.pending = (key, product) :: x.pending)
      (ledger : ∀ due, w.Ledger due m →
        w.Ledger (Function.update due key (due key ++ [product])) m')
  /-- A product was put in its place, and is no longer due. -/
  | puts (key : TypeKey) (product : Instance V)
      (pending : x.pending = (key, product) :: x'.pending) (settled : ∀ q, (key, q) ∉ x'.pending)
      (ledger : ∀ due, w.Ledger due m → due key = [product] →
        w.Ledger (Function.update due key []) m')

/-- The products that are due change in one of these ways. -/
lemma Move.settles (hb : w.book.Keyed) (hn : x.held.Nodup) (hm : w.Move x h x' h')
    (hx : x.Sound w h.moment) : w.Settles x x' h.moment h'.moment := by
  cases hm with
  | @proceeds h h' wanted stage stage' outer todo answered step =>
      have hsound : stage.Sound w h.moment wanted := hx.stages _ (List.mem_cons_self ..)
      -- nothing else is due for the place whose lock is held for the innermost errand
      have hnot : stage.holds = true → ∀ q, (wanted.key, q) ∉ Worker.pendingFor outer := by
        intro hholds q hq
        rw [Worker.held, Worker.heldFor_cons, hholds] at hn
        exact (List.nodup_cons.1 hn).1 (Worker.mem_heldFor_of_pending hq)
      rcases step.ledger hb hsound with ⟨hsame, hledger⟩ |
        ⟨product, hholds, hnone, hsome, hledger⟩ | ⟨product, hsome, hnone, hledger⟩
      · exact .same (by simp only [Worker.pending, Worker.pendingFor_cons, hsame]) hledger
      · refine .makes wanted.key product ?_ ?_ ?_ hledger
        · exact Worker.mem_heldFor (List.mem_cons_self ..) hholds
        · simpa [Worker.pending, Worker.pendingFor_cons, hnone] using hnot hholds
        · simp [Worker.pending, Worker.pendingFor_cons, hnone, hsome]
      · have hholds : stage.holds = true := Stage.holds_of_pending hsome
        refine .puts wanted.key product ?_ ?_ hledger
        · simp [Worker.pending, Worker.pendingFor_cons, hnone, hsome]
        · simpa [Worker.pending, Worker.pendingFor_cons, hnone] using hnot hholds
  | stopped unfit => exact .same rfl fun due hl => hl.reported _ _
  | _ => exact .same rfl fun due hl => hl

/-- A move hands the existing values out. -/
lemma Move.handsOut (hm : w.Move x h x' h') (hx : x.Sound w h.moment)
    (hl : w.HandsOut h.moment.trace) : w.HandsOut h'.moment.trace := by
  cases hm with
  | @proceeds h h' wanted stage stage' outer todo answered step =>
      have hsound : stage.Sound w h.moment wanted := hx.stages _ (List.mem_cons_self ..)
      cases step with
      | passed found source placeless => exact hl.began _
      | empty empty => exact hl.began _
      | called ended =>
          obtain ⟨-, -, -, -, hunder⟩ := hsound
          have hready := hunder.forall₂.imp fun _ _ ha => ha.2
          exact (hl.called hunder.1 hready ended).reported _ _
      | stored => exact hl.released _ _
      | released =>
          change w.HandsOut (h.moment.left wanted _).trace
          rwa [Moment.trace_left]
      | _ => exact hl
  | stopped unfit => exact hl.reported _ _
  | _ => exact hl

end Workshop

/-! ### The floor -/

namespace Floor

variable {w : Workshop σ V} {f f' : Floor ι σ V}

/-- The record agrees with the shelf, up to the products that are due: those that workers are
about to put in their places, at most one in each. -/
def Balanced (w : Workshop σ V) (f : Floor ι σ V) : Prop :=
  ∃ due, w.Ledger due f.hall.moment ∧ (∀ k, (due k).length ≤ 1) ∧
    ∀ k q, q ∈ due k ↔ ∃ i, (k, q) ∈ (f.workers i).pending

/-- Nobody else has a product for a place whose lock is held. -/
lemma Guarded.not_pending_elsewhere (hg : f.Guarded) {i : ι} {k : TypeKey}
    (hk : k ∈ (f.workers i).held) (q : Instance V) :
    ¬ ∃ j, j ≠ i ∧ (k, q) ∈ (f.workers j).pending := by
  rintro ⟨j, hne, hq⟩
  exact hne (hg.alone j i k (Worker.mem_heldFor_of_pending hq) hk)

/-- As long as a worker is about to put a product in its place, the place is empty. -/
lemma Orderly.product?_eq_none (ho : f.Orderly w) {i : ι} {k : TypeKey} {q : Instance V}
    (hq : (k, q) ∈ (f.workers i).pending) : f.hall.moment.shelf.product? k = none := by
  obtain ⟨⟨wanted, stage⟩, he, hp⟩ := List.mem_filterMap.1 hq
  have hsound := (ho.sound i).stages _ he
  cases stage with
  | built product =>
      obtain ⟨rfl, -⟩ := Prod.mk.inj (Option.some.inj hp)
      exact hsound.2
  | _ => cases hp

/-- Before the first move nothing is due. -/
lemma Starts.balanced (h : f.Starts w) : f.Balanced w := by
  refine ⟨Workshop.settled, h.reached.ledger, fun k => by simp, fun k q => ?_⟩
  have hnone : ∀ i, (f.workers i).pending = [] := by
    intro i
    rw [Worker.pending, (h.idle i).1]
    rfl
  simp [hnone]

variable [DecidableEq ι]

/-- The products that the workers have for a place after one of them moved. -/
lemma exists_pending_update {i : ι} {x : Worker σ V} {k : TypeKey} {q : Instance V} :
    (∃ j, (k, q) ∈ (Function.update f.workers i x j).pending) ↔
      (k, q) ∈ x.pending ∨ ∃ j, j ≠ i ∧ (k, q) ∈ (f.workers j).pending := by
  constructor
  · rintro ⟨j, hj⟩
    by_cases hji : j = i
    · subst hji
      rw [Function.update_self] at hj
      exact .inl hj
    · rw [Function.update_of_ne hji] at hj
      exact .inr ⟨j, hji, hj⟩
  · rintro (hx | ⟨j, hji, hj⟩)
    · exact ⟨i, by rwa [Function.update_self]⟩
    · exact ⟨j, by rwa [Function.update_of_ne hji]⟩

/-- **A move keeps the balance.** For the place of a product that is made or put away the
worker holds the lock, so that nobody else has a product for it. -/
lemma Balanced.move (hg : f.Guarded) (hbal : f.Balanced w) {i : ι} {x : Worker σ V}
    {h : Hall σ V} (hs : w.Settles (f.workers i) x f.hall.moment h.moment) :
    Balanced w ⟨h, Function.update f.workers i x⟩ := by
  obtain ⟨due, hledger, hshort, hdue⟩ := hbal
  have hdue' : ∀ k q, q ∈ due k ↔ (k, q) ∈ (f.workers i).pending ∨
      ∃ j, j ≠ i ∧ (k, q) ∈ (f.workers j).pending := by
    intro k q
    rw [hdue, ← exists_pending_update, Function.update_eq_self]
  cases hs with
  | same pending ledger =>
      refine ⟨due, ledger due hledger, hshort, fun k q => ?_⟩
      rw [exists_pending_update, pending, hdue']
  | makes key product held fresh pending ledger =>
      have hothers := hg.not_pending_elsewhere held
      have hnone : due key = [] := by
        refine List.eq_nil_iff_forall_not_mem.2 fun q hq => ?_
        exact ((hdue' key q).1 hq).elim (fresh q) (hothers q)
      refine ⟨_, ledger due hledger, fun k => ?_, fun k q => ?_⟩
      · by_cases hk : k = key
        · rw [hk, Function.update_self, hnone]
          exact le_rfl
        · rw [Function.update_of_ne hk]
          exact hshort k
      · rw [exists_pending_update, pending]
        by_cases hk : k = key
        · subst hk
          simp [hnone, fresh, hothers]
        · rw [Function.update_of_ne hk, hdue', List.mem_cons]
          simp [hk]
  | puts key product pending settled ledger =>
      have hheld : key ∈ (f.workers i).held :=
        Worker.mem_heldFor_of_pending (pending ▸ List.mem_cons_self ..)
      have hothers := hg.not_pending_elsewhere hheld
      have hone : due key = [product] := by
        have hmem : product ∈ due key := (hdue' key product).2 (.inl (pending ▸ by simp))
        obtain ⟨q, hq⟩ := List.length_eq_one_iff.1
          (le_antisymm (hshort key) (List.length_pos_of_mem hmem))
        rw [hq, List.mem_singleton] at hmem
        rw [hq, hmem]
      refine ⟨_, ledger due hledger hone, fun k => ?_, fun k q => ?_⟩
      · by_cases hk : k = key
        · rw [hk, Function.update_self]
          exact Nat.zero_le 1
        · rw [Function.update_of_ne hk]
          exact hshort k
      · rw [exists_pending_update]
        by_cases hk : k = key
        · subst hk
          simp [settled, hothers]
        · rw [Function.update_of_ne hk, hdue', pending, List.mem_cons]
          simp [hk]

lemma Balanced.turn (hb : w.book.Keyed) (ho : f.Orderly w) (hbal : f.Balanced w)
    (ht : w.Turn f f') : f'.Balanced w := by
  cases ht with
  | @works i x h move =>
      exact hbal.move ho.guarded (move.settles hb (ho.guarded.nodup i) (ho.sound i))
  | elsewhere world =>
      obtain ⟨due, hledger, hshort, hdue⟩ := hbal
      exact ⟨due, hledger.quiet [] (List.forall_mem_nil _) (List.append_nil _).symm
        (fun _ => rfl) fun _ => rfl, hshort, hdue⟩

lemma Reached.balanced (h : f.Reached w) : f.Balanced w :=
  (h.induction (fun _ => Starts.balanced) fun _ _ ho hbal => hbal.turn h.keyed ho).2

/-- The existing values are handed out, whoever moves. -/
lemma Reached.handsOut (h : f.Reached w) : w.HandsOut f.hall.moment.trace := by
  refine (h.induction (P := fun f => w.HandsOut f.hall.moment.trace)
    (fun f hs => hs.reached.handsOut) fun f f' ho hl ht => ?_).2
  cases ht with
  | works i move => exact move.handsOut (ho.sound i) hl
  | elsewhere world => exact hl

/-- Of a kept type at most one product was ever made, and if one stands in its place it is this
one. -/
structure Once (w : Workshop σ V) (key : TypeKey) (f : Floor ι σ V) : Prop where
  length_le : (w.made key f.hall.moment.trace).length ≤ 1
  eq_product : ∀ i, f.hall.moment.shelf.product? key = some i →
    w.made key f.hall.moment.trace = [i]

/-- All who got a product of `key` got the shared one: the workers who were answered one, and
the factories that were called with one, under any optional layers. -/
structure Agreed (w : Workshop σ V) (key : TypeKey) (f : Floor ι σ V) : Prop where
  answered : ∀ j t i, (t, .ok i) ∈ (f.workers j).answered → t.key = key →
    w.shared? f.hall.moment.shelf key = some i
  handed : ∀ serial t arguments call r,
    .called serial t arguments call ∈ f.hall.moment.trace → w.book.recipe? t = some r →
    List.Forall₂ (fun p a => p.need.shares = some key →
      ∃ i, w.shared? f.hall.moment.shelf key = some i ∧ a.product? = some i)
      r.parameters arguments

lemma Reached.once (h : f.Reached w) {key : TypeKey} (hk : w.book.keeps key) :
    f.Once w key := by
  obtain ⟨due, hledger, hshort, hdue⟩ := h.balanced
  have hmade := hledger.made key hk
  have hfilled : ∀ i, f.hall.moment.shelf.product? key = some i → due key = [] := by
    intro i hi
    refine List.eq_nil_iff_forall_not_mem.2 fun q hq => ?_
    obtain ⟨j, hj⟩ := (hdue key q).1 hq
    rw [h.orderly.product?_eq_none hj] at hi
    cases hi
  refine ⟨?_, fun i hi => by simpa [hi, hfilled i hi] using hmade⟩
  rw [hmade]
  cases hi : f.hall.moment.shelf.product? key with
  | none => exact hshort key
  | some i => simp [hfilled i hi]

/-- What the workers made of a kept type is shared. -/
lemma Reached.agreed_of_keeps (h : f.Reached w) {key : TypeKey} (hk : w.book.keeps key) :
    f.Agreed w key := by
  obtain ⟨due, hledger, -⟩ := h.balanced
  have hshared := Workshop.shared?_of_keeps hk f.hall.moment.shelf
  refine ⟨fun j t i hi ht => ?_, fun serial t arguments call r hcall hr => ?_⟩
  · subst ht
    rw [hshared]
    exact ((h.orderly.sound j).told _ hi).1 i rfl hk
  · rw [hshared]
    exact (hledger.handed serial t arguments call hcall r hr).imp
      fun p a hreceived => hreceived key hk

/-- A value that exists already is shared. -/
lemma Reached.agreed_of_gives (h : f.Reached w) {key : TypeKey} {product : Instance V}
    (hgives : w.book.Gives key product) : f.Agreed w key := by
  have hshared := Workshop.shared?_of_gives hgives f.hall.moment.shelf
  refine ⟨fun j t i hi ht => ?_, fun serial t arguments call r hcall hr => ?_⟩
  · subst ht
    rw [hshared, ((h.orderly.sound j).told _ hi).2 i product rfl hgives]
  · exact (h.handsOut serial t arguments call hcall r hr).imp
      fun p a hgranted hshares => ⟨product, hshared, hgranted key product hgives hshares⟩

/-- **First use at once.** In whatever order the workers move, each lock that is taken is held
by one of them only, a place that is filled keeps its product from then on, the factory of a
singleton succeeds at most once, and all who get a singleton get the same one. -/
theorem Reached.first_use (h : f.Reached w) :
    Guards (fun i => (f.workers i).held) f.hall.locked ∧
      (∀ f' k i, ReflTransGen w.Turn f f' → f.hall.moment.shelf.product? k = some i →
        f'.hall.moment.shelf.product? k = some i) ∧
      (∀ key r, w.book.recipe? key = some r → r.isKept = true → f.Once w key) ∧
      ∀ key r, w.book.recipe? key = some r → r.lifetime = .singleton → f.Agreed w key := by
  have hkeeps : ∀ key r, w.book.recipe? key = some r → r.isKept = true →
      w.book.keeps key = true := by
    intro key r hr hkept
    rw [Book.keeps, hr]
    exact hkept
  refine ⟨h.orderly.guarded, fun f' k i hturns hi => h.product?_after hturns hi,
    fun key r hr hkept => h.once (hkeeps key r hr hkept), fun key r hr hlife => ?_⟩
  cases hsource : r.source with
  | given product => exact h.agreed_of_gives ⟨r, hr, hsource⟩
  | factory make =>
      refine h.agreed_of_keeps (hkeeps key r hr ?_)
      simp [Recipe.isKept, Recipe.isGiven, hlife, hsource]

/-- After an encounter the worker who came second waits for the other one, and gets what that
one made. -/
def meeting : List Bool :=
  Workshop.encounter ++ [true, false, false, false, false] ++ List.replicate 8 true

/-- In such a meeting one first singleton is made, and both workers get it. -/
theorem first_use_meeting :
    (Workshop.sampleFloor meeting).Reached (Workshop.sample [Workshop.needsFirst]) ∧
      ((Workshop.sampleFloor meeting).workers true).answered =
        [(.of (.product 0), .ok ⟨.of (.product 0), .built 0 0, .product 0 ()⟩),
          (.of (.product 1), .ok ⟨.of (.product 1), .built 0 1, .product 1 ()⟩)] ∧
      ((Workshop.sampleFloor meeting).workers false).answered =
        [(.of (.product 0), .ok ⟨.of (.product 0), .built 0 0, .product 0 ()⟩)] ∧
      Guards (fun i => ((Workshop.sampleFloor meeting).workers i).held)
        (Workshop.sampleFloor meeting).hall.locked ∧
      (Workshop.sampleFloor meeting).Once (Workshop.sample [Workshop.needsFirst])
        (.product 0) ∧
      (Workshop.sampleFloor meeting).Agreed (Workshop.sample [Workshop.needsFirst])
        (.product 0) := by
  have hreached := Workshop.reached_sampleFloor meeting
  obtain ⟨hguards, -, honce, hagreed⟩ := Reached.first_use hreached
  exact ⟨hreached, rfl, rfl, hguards, honce _ _ rfl rfl, hagreed _ _ rfl rfl⟩

end Floor

end Wiring
