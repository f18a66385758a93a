/-
Several workers on the floor of one workshop, each with requests of its own, step by step.

* `Hall`: what the workers share, namely the state of the workshop and the locks on the
  places of its shelf;
* `Stage`, `Errand`, `Worker`: how far a worker has come with a request, and the requests
  that it has nested into each other;
* `Workshop.Advance`, `Workshop.Move`: the steps of an errand and of a worker, each of
  which takes a lock, reads a place, turns to the next parameter, calls a factory, puts a
  product in its place, gives a lock back or passes an answer on;
* `Floor`, `Workshop.Turn`: the workers together, where one of them moves at a time;
  `Floor.Reached`: what they come to in any order of moves;
* `Workshop.Move.locks`: a move takes at most one lock, which is free, and gives back at
  most the one that its worker took last;
* `Workshop.Move.product?_of_not_held`: it changes the place of no type whose lock the
  worker does not hold.
-/
import Mathlib.Logic.Function.Basic
import Mathlib.Logic.Relation
import Wiring.Proofs.Workshop.Given

namespace Wiring

open Relation

variable {ι σ V : Type}

/-! ### The hall -/

namespace Moment

/-- The moment after the lock of the place of `wanted` is given back. A product is in its place
already, and a panic leaves its mark. -/
def left (m : Moment σ V) (wanted : TypeRef) : Except Halt (Instance V) → Moment σ V
  | .ok _ => m
  | .error halt => m.released wanted (.error halt)

variable (m : Moment σ V) (wanted : TypeRef) (answer : Except Halt (Instance V))

/-- To give a lock back leaves the products where they are. -/
lemma product?_left (k : TypeKey) :
    (m.left wanted answer).shelf.product? k = m.shelf.product? k := by
  cases answer with
  | ok product => rfl
  | error halt => exact m.product?_released_error wanted halt k

/-- To give a lock back neither adds nor removes places. -/
lemma contains_left (k : TypeKey) :
    (m.left wanted answer).shelf.contains k = m.shelf.contains k := by
  cases answer with
  | ok product => rfl
  | error halt => exact m.contains_released wanted (.error halt) k

lemma trace_left : (m.left wanted answer).trace = m.trace := by
  cases answer with
  | ok product => rfl
  | error halt => exact m.trace_released_error wanted halt

end Moment

/-- What the workers share: the state of the workshop, and which places of its shelf are
locked. -/
structure Hall (σ V : Type) where
  /-- The state of the workshop and of the world around it. -/
  moment : Moment σ V
  /-- The types whose places are locked. -/
  locked : TypeKey → Bool

namespace Hall

/-- Locks the place of a type. -/
def lock (h : Hall σ V) (key : TypeKey) : Hall σ V :=
  { h with locked := Function.update h.locked key true }

/-- The same locks at another moment. -/
def turnTo (h : Hall σ V) (m : Moment σ V) : Hall σ V := { h with moment := m }

/-- Gives the lock of the place of `wanted` back after an attempt with this answer. A panic
leaves its mark on the place. -/
def leave (h : Hall σ V) (wanted : TypeRef) (answer : Except Halt (Instance V)) : Hall σ V where
  moment := h.moment.left wanted answer
  locked := Function.update h.locked wanted.key false

@[simp] lemma moment_turnTo (h : Hall σ V) (m : Moment σ V) : (h.turnTo m).moment = m := rfl

/-- A lock that was free and is given back is free again. -/
lemma leave_lock (h : Hall σ V) {wanted : TypeRef} (hfree : h.locked wanted.key = false)
    (answer : Except Halt (Instance V)) :
    (h.lock wanted.key).leave wanted answer = h.turnTo (h.moment.left wanted answer) := by
  have hlocked : Function.update (Function.update h.locked wanted.key true) wanted.key false =
      h.locked := by
    rw [Function.update_idem, ← hfree, Function.update_eq_self]
  rw [lock, leave, hlocked, turnTo]

end Hall

/-! ### Errands -/

/-- How far a worker has come with a request. -/
inductive Stage (σ V : Type) where
  /-- The request is made. -/
  | posed
  /-- The worker has the lock of the place of a recipe with a factory and is about to look
  what stands there. -/
  | locked (r : Recipe σ V) (make : Factory σ V (Value V))
  /-- The worker makes a product of a recipe, with or without the lock of a place for it.
  Some arguments are there, and the rest of the parameters is not resolved yet. -/
  | building (holds : Bool) (r : Recipe σ V) (make : Factory σ V (Value V))
      (ready : List (Argument V)) (rest : List Parameter)
  /-- The worker has the lock of the place and is about to put the product there. -/
  | built (product : Instance V)
  /-- The answer is there. The worker may still have the lock. -/
  | finished (holds : Bool) (answer : Except Halt (Instance V))

namespace Stage

/-- Whether the worker has the lock of the place of the requested type. -/
def holds : Stage σ V → Bool
  | posed => false
  | locked .. => true
  | building holds .. => holds
  | built _ => true
  | finished holds _ => holds

@[simp] lemma holds_posed : (posed : Stage σ V).holds = false := rfl

@[simp] lemma holds_building (b : Bool) (r : Recipe σ V) (make : Factory σ V (Value V))
    (ready : List (Argument V)) (rest : List Parameter) :
    (building b r make ready rest).holds = b := rfl

@[simp] lemma holds_finished (b : Bool) (answer : Except Halt (Instance V)) :
    (finished b answer : Stage σ V).holds = b := rfl

/-- The stage after an attempt with this answer: a product that was made with the lock of a
place is still to be put there. -/
def ended : (holds : Bool) → Except Halt (Instance V) → Stage σ V
  | true, .ok product => built product
  | true, .error halt => finished true (.error halt)
  | false, answer => finished false answer

@[simp] lemma ended_error (holds : Bool) (halt : Halt) :
    (ended holds (.error halt) : Stage σ V) = finished holds (.error halt) := by
  cases holds <;> rfl

@[simp] lemma holds_ended (b : Bool) (answer : Except Halt (Instance V)) :
    (ended b answer : Stage σ V).holds = b := by
  cases b <;> cases answer <;> rfl

/-- The product that is still to be put in its place. -/
def pending : Stage σ V → Option (Instance V)
  | built product => some product
  | _ => none

/-- A product is put in its place with the lock held. -/
lemma holds_of_pending {stage : Stage σ V} {product : Instance V}
    (h : stage.pending = some product) : stage.holds = true := by
  cases stage with
  | built product => rfl
  | _ => cases h

end Stage

/-- A request that a worker is busy with. -/
structure Errand (σ V : Type) where
  /-- The type that is requested. -/
  wanted : TypeRef
  /-- How far the worker has come with it. -/
  stage : Stage σ V

/-- A worker. -/
structure Worker (σ V : Type) where
  /-- The requests that the worker is busy with. Each one is made for the next parameter of
  the one after it, so that the innermost is the first. -/
  errands : List (Errand σ V)
  /-- The types that the worker is going to request. -/
  todo : List TypeRef
  /-- All requests of the worker that were answered, also those for parameters. -/
  answered : List (TypeRef × Except Halt (Instance V))

namespace Worker

/-- The types whose products the worker makes or is about to get, the innermost first. -/
def stack (errands : List (Errand σ V)) : List TypeKey := errands.map fun e => e.wanted.key

/-- The types whose locks are held for some errands, those taken last first. -/
def heldFor (errands : List (Errand σ V)) : List TypeKey :=
  stack (errands.filter fun e => e.stage.holds)

/-- The types whose locks the worker holds, those taken last first. -/
def held (x : Worker σ V) : List TypeKey := heldFor x.errands

/-- The products made for some errands that are still to be put in their places. -/
def pendingFor (errands : List (Errand σ V)) : List (TypeKey × Instance V) :=
  errands.filterMap fun e => e.stage.pending.map (e.wanted.key, ·)

/-- The products that the worker is about to put in their places. -/
def pending (x : Worker σ V) : List (TypeKey × Instance V) := pendingFor x.errands

/-- The worker has no requests left. -/
def Done (x : Worker σ V) : Prop := x.errands = [] ∧ x.todo = []

lemma heldFor_cons (e : Errand σ V) (rest : List (Errand σ V)) :
    heldFor (e :: rest) = (bif e.stage.holds then [e.wanted.key] else []) ++ heldFor rest := by
  cases h : e.stage.holds <;> simp [heldFor, stack, h]

/-- Only types for which the worker is busy have their locks held. -/
lemma mem_stack_of_heldFor {errands : List (Errand σ V)} {k : TypeKey}
    (h : k ∈ heldFor errands) : k ∈ stack errands := by
  obtain ⟨e, he, rfl⟩ := List.mem_map.1 h
  exact List.mem_map_of_mem (List.mem_filter.1 he).1

lemma mem_heldFor {errands : List (Errand σ V)} {e : Errand σ V} (he : e ∈ errands)
    (h : e.stage.holds = true) : e.wanted.key ∈ heldFor errands :=
  List.mem_map_of_mem (List.mem_filter.2 ⟨he, h⟩)

lemma pendingFor_cons (e : Errand σ V) (rest : List (Errand σ V)) :
    pendingFor (e :: rest) =
      (e.stage.pending.map (e.wanted.key, ·)).toList ++ pendingFor rest := by
  cases h : e.stage.pending <;> simp [pendingFor, h]

lemma mem_heldFor_of_pending {errands : List (Errand σ V)} {k : TypeKey}
    {product : Instance V} (h : (k, product) ∈ pendingFor errands) : k ∈ heldFor errands := by
  obtain ⟨e, he, hp⟩ := List.mem_filterMap.1 h
  obtain ⟨product', hpending, heq⟩ := Option.map_eq_some_iff.1 hp
  obtain ⟨rfl, -⟩ := Prod.mk.inj heq
  exact mem_heldFor he (Stage.holds_of_pending hpending)

end Worker

namespace Workshop

/-- The errand for `wanted` goes one step on, inside of errands for the types of `stack`. -/
inductive Advance (w : Workshop σ V) (stack : List TypeKey) (wanted : TypeRef) :
    Stage σ V → Hall σ V → Stage σ V → Hall σ V → Prop
  /-- There is no recipe. -/
  | missing {h : Hall σ V} (absent : w.book.recipe? wanted.key = none) :
      Advance w stack wanted .posed h
        (.finished false (.error (.failed (.missing wanted.name)))) h
  /-- A value that exists already is the answer. -/
  | given {h : Hall σ V} {r : Recipe σ V} {product : Instance V}
      (found : w.book.recipe? wanted.key = some r) (source : r.source = .given product) :
      Advance w stack wanted .posed h (.finished false (.ok product)) h
  /-- There is no place, so the product is made without a lock. -/
  | passed {h : Hall σ V} {r : Recipe σ V} {make : Factory σ V (Value V)}
      (found : w.book.recipe? wanted.key = some r) (source : r.source = .factory make)
      (placeless : h.moment.shelf.contains wanted.key = false) :
      Advance w stack wanted .posed h (.building false r make [] r.parameters)
        (h.turnTo (h.moment.record (.began (wanted.key :: stack))))
  /-- The lock of the place is free and is taken. -/
  | taken {h : Hall σ V} {r : Recipe σ V} {make : Factory σ V (Value V)}
      (found : w.book.recipe? wanted.key = some r) (source : r.source = .factory make)
      (placed : h.moment.shelf.contains wanted.key = true)
      (free : h.locked wanted.key = false) :
      Advance w stack wanted .posed h (.locked r make) (h.lock wanted.key)
  /-- The place is read, and there is a product. -/
  | found {h : Hall σ V} {r : Recipe σ V} {make : Factory σ V (Value V)}
      {product : Instance V}
      (there : h.moment.shelf.product? wanted.key = some product) :
      Advance w stack wanted (.locked r make) h (.finished true (.ok product)) h
  /-- The place is read, and it is empty. A mark on it does not matter. -/
  | empty {h : Hall σ V} {r : Recipe σ V} {make : Factory σ V (Value V)}
      (empty : h.moment.shelf.product? wanted.key = none) :
      Advance w stack wanted (.locked r make) h (.building true r make [] r.parameters)
        (h.turnTo (h.moment.record (.began (wanted.key :: stack))))
  /-- Nothing is requested for the next parameter. -/
  | skipped {h : Hall σ V} {holds : Bool} {r : Recipe σ V} {make : Factory σ V (Value V)}
      {ready : List (Argument V)} {p : Parameter} {rest : List Parameter}
      (skips : w.Skips p = true) :
      Advance w stack wanted (.building holds r make ready (p :: rest)) h
        (.building holds r make (ready ++ [.absent]) rest) h
  /-- The factory is called, with any outcome. A failure is reported. -/
  | called {h : Hall σ V} {holds : Bool} {r : Recipe σ V} {make : Factory σ V (Value V)}
      {ready : List (Argument V)} {answer : Except Halt (Instance V)} {m : Moment σ V}
      (ended : (w.call r make ready).runFrom h.moment = (answer, m)) :
      Advance w stack wanted (.building holds r make ready []) h (.ended holds answer)
        (h.turnTo (m.reported wanted.name answer))
  /-- The product is put in its place. -/
  | stored {h : Hall σ V} {product : Instance V} :
      Advance w stack wanted (.built product) h (.finished true (.ok product))
        (h.turnTo (h.moment.released wanted (.ok product)))
  /-- The lock is given back, whatever the answer. -/
  | released {h : Hall σ V} {answer : Except Halt (Instance V)} :
      Advance w stack wanted (.finished true answer) h (.finished false answer)
        (h.leave wanted answer)

/-- A worker moves in a hall. -/
inductive Move (w : Workshop σ V) : Worker σ V → Hall σ V → Worker σ V → Hall σ V → Prop
  /-- It makes its next request. -/
  | begins {h : Hall σ V} {wanted : TypeRef} {todo : List TypeRef}
      {answered : List (TypeRef × Except Halt (Instance V))} :
      Move w ⟨[], wanted :: todo, answered⟩ h ⟨[⟨wanted, .posed⟩], todo, answered⟩ h
  /-- It goes on with the innermost request. -/
  | proceeds {h h' : Hall σ V} {wanted : TypeRef} {stage stage' : Stage σ V}
      {outer : List (Errand σ V)} {todo : List TypeRef}
      {answered : List (TypeRef × Except Halt (Instance V))}
      (step : w.Advance (Worker.stack outer) wanted stage h stage' h') :
      Move w ⟨⟨wanted, stage⟩ :: outer, todo, answered⟩ h
        ⟨⟨wanted, stage'⟩ :: outer, todo, answered⟩ h'
  /-- It begins to resolve the next parameter by a request for what the parameter uses. -/
  | asks {h : Hall σ V} {wanted : TypeRef} {holds : Bool} {r : Recipe σ V}
      {make : Factory σ V (Value V)} {ready : List (Argument V)} {p : Parameter}
      {rest : List Parameter} {outer : List (Errand σ V)} {todo : List TypeRef}
      {answered : List (TypeRef × Except Halt (Instance V))} (asks : w.Skips p = false) :
      Move w ⟨⟨wanted, .building holds r make ready (p :: rest)⟩ :: outer, todo, answered⟩ h
        ⟨⟨.of p.need.key, .posed⟩ :: ⟨wanted, .building holds r make ready (p :: rest)⟩ ::
          outer, todo, answered⟩ h
  /-- The answer to such a request is what the parameter needs. -/
  | supplied {h : Hall σ V} {inner wanted : TypeRef} {given : Except Halt (Instance V)}
      {holds : Bool} {r : Recipe σ V} {make : Factory σ V (Value V)}
      {ready : List (Argument V)} {p : Parameter} {argument : Argument V}
      {rest : List Parameter} {outer : List (Errand σ V)} {todo : List TypeRef}
      {answered : List (TypeRef × Except Halt (Instance V))}
      (fits : p.need.receive given = .ok argument) :
      Move w
        ⟨⟨inner, .finished false given⟩ ::
          ⟨wanted, .building holds r make ready (p :: rest)⟩ :: outer, todo, answered⟩ h
        ⟨⟨wanted, .building holds r make (ready ++ [argument]) rest⟩ :: outer, todo,
          answered ++ [(inner, given)]⟩ h
  /-- The answer to such a request is not what the parameter needs, so the attempt fails, or
  the panic goes on. A failure is reported. -/
  | stopped {h : Hall σ V} {inner wanted : TypeRef} {given : Except Halt (Instance V)}
      {holds : Bool} {r : Recipe σ V} {make : Factory σ V (Value V)}
      {ready : List (Argument V)} {p : Parameter} {halt : Halt} {rest : List Parameter}
      {outer : List (Errand σ V)} {todo : List TypeRef}
      {answered : List (TypeRef × Except Halt (Instance V))}
      (unfit : p.need.receive given = .error halt) :
      Move w
        ⟨⟨inner, .finished false given⟩ ::
          ⟨wanted, .building holds r make ready (p :: rest)⟩ :: outer, todo, answered⟩ h
        ⟨⟨wanted, .finished holds (.error halt)⟩ :: outer, todo, answered ++ [(inner, given)]⟩
        (h.turnTo (h.moment.reported wanted.name (.error halt)))
  /-- It has the answer to a request of its own. -/
  | answers {h : Hall σ V} {wanted : TypeRef} {answer : Except Halt (Instance V)}
      {todo : List TypeRef} {answered : List (TypeRef × Except Halt (Instance V))} :
      Move w ⟨[⟨wanted, .finished false answer⟩], todo, answered⟩ h
        ⟨[], todo, answered ++ [(wanted, answer)]⟩ h
  /-- It does not survive a panic. -/
  | quits {h : Hall σ V} {wanted : TypeRef} {text : String} {todo : List TypeRef}
      {answered : List (TypeRef × Except Halt (Instance V))} :
      Move w ⟨[⟨wanted, .finished false (.error (.panicked text))⟩], todo, answered⟩ h
        ⟨[], [], answered ++ [(wanted, .error (.panicked text))]⟩ h

/-! ### What a step changes -/

variable {w : Workshop σ V} {stack : List TypeKey} {wanted : TypeRef}
  {stage stage' : Stage σ V} {x x' : Worker σ V} {h h' : Hall σ V}

/-- A step of an errand takes the lock of its own place, which is free, or gives it back, or
leaves all locks as they are. -/
lemma Advance.locks (hs : w.Advance stack wanted stage h stage' h') :
    (stage'.holds = stage.holds ∧ h'.locked = h.locked) ∨
      (h.locked wanted.key = false ∧ stage.holds = false ∧ stage'.holds = true ∧
        h'.locked = Function.update h.locked wanted.key true) ∨
      (stage.holds = true ∧ stage'.holds = false ∧
        h'.locked = Function.update h.locked wanted.key false) := by
  cases hs with
  | taken found source placed free => exact .inr (.inl ⟨free, rfl, rfl, rfl⟩)
  | released => exact .inr (.inr ⟨rfl, rfl, rfl⟩)
  | called ended => exact .inl ⟨Stage.holds_ended _ _, rfl⟩
  | _ => exact .inl ⟨rfl, rfl⟩

/-- **A move takes at most one lock, which is free, and gives back at most the one that its
worker took last.** -/
theorem Move.locks (hm : w.Move x h x' h') :
    (x'.held = x.held ∧ h'.locked = h.locked) ∨
      (∃ k, h.locked k = false ∧ x'.held = k :: x.held ∧
        h'.locked = Function.update h.locked k true) ∨
      ∃ k, x.held = k :: x'.held ∧ h'.locked = Function.update h.locked k false := by
  cases hm with
  | proceeds step =>
      rcases step.locks with ⟨hholds, hlocked⟩ | ⟨hfree, hnot, hholds, hlocked⟩ |
        ⟨hholds, hnot, hlocked⟩
      · exact .inl ⟨by simp only [Worker.held, Worker.heldFor_cons, hholds], hlocked⟩
      · exact .inr (.inl ⟨_, hfree,
          by simp [Worker.held, Worker.heldFor_cons, hholds, hnot], hlocked⟩)
      · exact .inr (.inr ⟨_, by simp [Worker.held, Worker.heldFor_cons, hholds, hnot],
          hlocked⟩)
  | _ => exact .inl ⟨by simp [Worker.held, Worker.heldFor_cons], rfl⟩

/-- A step of an errand puts a product that was made in its place, or leaves all products
where they are. -/
lemma Advance.stores_or_same (hs : w.Advance stack wanted stage h stage' h') :
    (∃ product, stage = .built product ∧
      h'.moment = h.moment.released wanted (.ok product)) ∨
      ∀ k, h'.moment.shelf.product? k = h.moment.shelf.product? k := by
  cases hs with
  | @called h holds r make ready answer m ended =>
      rw [runFrom_call] at ended
      obtain ⟨-, rfl⟩ := Prod.mk.inj ended
      exact .inr fun k => by rw [Hall.moment_turnTo, Moment.shelf_reported]
  | stored => exact .inl ⟨_, rfl, rfl⟩
  | released => exact .inr fun k => h.moment.product?_left wanted _ k
  | _ => exact .inr fun k => rfl

/-- A move puts a product that was made in its place, or leaves all products where they
are. -/
lemma Move.stores_or_same (hm : w.Move x h x' h') :
    (∃ e ∈ x.errands, ∃ product, e.stage = .built product ∧
      h'.moment = h.moment.released e.wanted (.ok product)) ∨
      ∀ k, h'.moment.shelf.product? k = h.moment.shelf.product? k := by
  cases hm with
  | proceeds step => exact step.stores_or_same.imp_left fun hstores =>
      ⟨_, List.mem_cons_self .., hstores⟩
  | stopped unfit => exact .inr fun k => by rw [Hall.moment_turnTo, Moment.shelf_reported]
  | _ => exact .inr fun k => rfl

/-- **A move changes the place of no type whose lock the worker does not hold.** -/
theorem Move.product?_of_not_held (hm : w.Move x h x' h') {k : TypeKey} (hk : k ∉ x.held) :
    h'.moment.shelf.product? k = h.moment.shelf.product? k := by
  rcases hm.stores_or_same with ⟨e, he, product, hstage, hmoment⟩ | hsame
  · have hheld : e.wanted.key ∈ x.held := Worker.mem_heldFor he (by rw [hstage]; rfl)
    rw [hmoment]
    refine Moment.product?_store_of_ne _ ?_ _
    rintro rfl
    exact hk hheld
  · exact hsame k

/-- Steps neither add nor remove places. -/
lemma Advance.contains (hs : w.Advance stack wanted stage h stage' h') (k : TypeKey) :
    h'.moment.shelf.contains k = h.moment.shelf.contains k := by
  cases hs with
  | @called h holds r make ready answer m ended =>
      rw [runFrom_call] at ended
      obtain ⟨-, rfl⟩ := Prod.mk.inj ended
      rw [Hall.moment_turnTo, Moment.shelf_reported]
  | stored => exact Moment.contains_released ..
  | released => exact h.moment.contains_left wanted _ k
  | _ => rfl

lemma Move.contains (hm : w.Move x h x' h') (k : TypeKey) :
    h'.moment.shelf.contains k = h.moment.shelf.contains k := by
  cases hm with
  | proceeds step => exact step.contains k
  | stopped unfit => rw [Hall.moment_turnTo, Moment.shelf_reported]
  | _ => rfl

end Workshop

/-- The workers of a workshop, each under its name, in one hall. -/
structure Floor (ι σ V : Type) where
  /-- What they share. -/
  hall : Hall σ V
  /-- The workers. -/
  workers : ι → Worker σ V

/-- One worker moves, or the world outside the workshop changes. -/
inductive Workshop.Turn [DecidableEq ι] (w : Workshop σ V) : Floor ι σ V → Floor ι σ V → Prop
  | works {f : Floor ι σ V} (i : ι) {x : Worker σ V} {h : Hall σ V}
      (move : w.Move (f.workers i) f.hall x h) :
      Turn w f ⟨h, Function.update f.workers i x⟩
  | elsewhere {f : Floor ι σ V} (world : σ) :
      Turn w f { f with hall := f.hall.turnTo { f.hall.moment with world := world } }

namespace Floor

/-- The floor of an opened workshop, at any moment of its life, when no lock is taken and
each worker is about to make some requests. -/
structure Starts (w : Workshop σ V) (f : Floor ι σ V) : Prop where
  reached : w.Reached f.hall.moment
  free : ∀ k, f.hall.locked k = false
  idle : ∀ i, (f.workers i).errands = [] ∧ (f.workers i).answered = []

/-- The workers come to this, in some order of their moves. -/
def Reached [DecidableEq ι] (w : Workshop σ V) (f : Floor ι σ V) : Prop :=
  ∃ f₀ : Floor ι σ V, f₀.Starts w ∧ ReflTransGen w.Turn f₀ f

end Floor

end Wiring
