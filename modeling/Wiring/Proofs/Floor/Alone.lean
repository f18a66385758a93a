/-
A worker who is alone on the floor.

* `Workshop.Alone`: the moves of one worker while nobody else moves;
* `Workshop.Course.alone`: if the locks are free that it needs, the worker follows the course
  that a request takes in the workshop, move by move;
* `Floor.turns_getInstance`: **every request to the workshop is a run of its floor**, in which
  one worker moves and the others stand still.
-/
import Wiring.Proofs.Floor.Steps

namespace Wiring

open Relation

variable {ι σ V : Type}

namespace Workshop

/-- A move of a worker while nobody else moves. -/
def Alone (w : Workshop σ V) (a b : Worker σ V × Hall σ V) : Prop := w.Move a.1 a.2 b.1 b.2

variable {w : Workshop σ V}

lemma Move.alone {x x' : Worker σ V} {h h' : Hall σ V} (hm : w.Move x h x' h') :
    w.Alone (x, h) (x', h') := hm

/-- A lock that was free before it was taken is given back. -/
lemma Advance.released_of_free {stack : List TypeKey} {wanted : TypeRef} {m : Moment σ V}
    {locked : TypeKey → Bool} {answer : Except Halt (Instance V)}
    (hfree : locked wanted.key = false) :
    w.Advance stack wanted (.finished true answer) (Hall.lock ⟨m, locked⟩ wanted.key)
      (.finished false answer) ⟨m.left wanted answer, locked⟩ := by
  have hback := Hall.leave_lock ⟨m, locked⟩ hfree answer
  rw [Hall.turnTo] at hback
  rw [← hback]
  exact .released

/-- What a worker who is alone does for a task, if the locks are free of all the types that
the task leads to. In the end the locks are as they were. -/
def Task.Followed (w : Workshop σ V) (stack : List TypeKey) (m : Moment σ V)
    (answer : Except Halt (Instance V)) (m' : Moment σ V) : Task σ V → Prop
  | .serve wanted => ∀ locked outer todo answered, stack = Worker.stack outer →
    (∀ k, (Task.serve (σ := σ) (V := V) wanted).Leads w.book k → locked k = false) →
    ∃ more, ReflTransGen w.Alone
      (⟨⟨wanted, .posed⟩ :: outer, todo, answered⟩, ⟨m, locked⟩)
      (⟨⟨wanted, .finished false answer⟩ :: outer, todo, answered ++ more⟩, ⟨m', locked⟩)
  | .build r make ready rest => ∀ locked holds wanted outer todo answered,
    stack = wanted.key :: Worker.stack outer →
    (∀ k, (Task.build r make ready rest).Leads w.book k → locked k = false) →
    ∃ more, ReflTransGen w.Alone
      (⟨⟨wanted, .building holds r make ready rest⟩ :: outer, todo, answered⟩, ⟨m, locked⟩)
      (⟨⟨wanted, .ended holds answer⟩ :: outer, todo, answered ++ more⟩,
        ⟨m'.reported wanted.name answer, locked⟩)

/-- **A worker who is alone follows the course of a task**, move by move. -/
theorem Course.alone (ha : w.book.Acyclic) {stack : List TypeKey} {task : Task σ V}
    {m m' : Moment σ V} {answer : Except Halt (Instance V)}
    (hc : Course w stack task m answer m') : task.Followed w stack m answer m' := by
  induction hc with
  | missing absent =>
      intro locked outer todo answered hstack hfree
      refine ⟨[], ?_⟩
      rw [List.append_nil]
      exact .single (Move.alone (.proceeds (.missing absent)))
  | given found source =>
      intro locked outer todo answered hstack hfree
      refine ⟨[], ?_⟩
      rw [List.append_nil]
      exact .single (Move.alone (.proceeds (.given found source)))
  | @shelved stack wanted m r make product found source there =>
      intro locked outer todo answered hstack hfree
      have hlock : locked wanted.key = false := hfree _ ⟨Book.produces_iff.2 ⟨r, found⟩, .refl⟩
      have hplace : m.shelf.contains wanted.key = true := Shelf.contains_of_product? there
      refine ⟨[], .head (Move.alone (.proceeds (.taken found source hplace hlock))) ?_⟩
      refine .head (Move.alone (.proceeds (.found there))) ?_
      rw [List.append_nil]
      exact .single (Move.alone (.proceeds (.released_of_free hlock)))
  | @passed stack wanted m m' r make answer found source placeless built ih =>
      intro locked outer todo answered hstack hfree
      obtain ⟨more, hbuilt⟩ := ih locked false wanted outer todo answered (by rw [hstack])
        fun k hk => hfree k (.serve found hk)
      subst hstack
      exact ⟨more, .head (Move.alone (.proceeds (.passed found source placeless))) hbuilt⟩
  | @kept stack wanted m m' r make answer found source placed empty built ih =>
      intro locked outer todo answered hstack hfree
      have hlock : locked wanted.key = false := hfree _ ⟨Book.produces_iff.2 ⟨r, found⟩, .refl⟩
      -- the type does not lead to itself, so its lock is not needed meanwhile
      obtain ⟨more, hbuilt⟩ := ih (Function.update locked wanted.key true) true wanted outer todo
        answered (by rw [hstack]) fun k hk => by
          have hne : k ≠ wanted.key := by
            rintro rfl
            exact ha _ (hk.transGen found)
          rw [Function.update_of_ne hne]
          exact hfree k (.serve found hk)
      subst hstack
      refine ⟨more, .head (Move.alone (.proceeds (.taken found source placed hlock))) ?_⟩
      refine .head (Move.alone (.proceeds (.empty empty))) (hbuilt.trans ?_)
      cases answer with
      | error halt => exact .single (Move.alone (.proceeds (.released_of_free hlock)))
      | ok product =>
          refine .head (Move.alone (.proceeds .stored)) ?_
          exact .single (Move.alone (.proceeds (.released_of_free hlock)))
  | called ended =>
      intro locked holds wanted outer todo answered hstack hfree
      refine ⟨[], ?_⟩
      rw [List.append_nil]
      exact .single (Move.alone (.proceeds (.called ended)))
  | @skipped stack r make ready p rest m m' answer skips others ih =>
      intro locked holds wanted outer todo answered hstack hfree
      obtain ⟨more, hothers⟩ := ih locked holds wanted outer todo answered hstack
        fun k ⟨q, hq, hk⟩ => hfree k ⟨q, List.mem_cons_of_mem p hq, hk⟩
      exact ⟨more, .head (Move.alone (.proceeds (.skipped skips))) hothers⟩
  | @supplied stack r make ready p rest m m₁ m' given answer argument asks served fits others
      ihs iho =>
      intro locked holds wanted outer todo answered hstack hfree
      obtain ⟨before, hserved⟩ := ihs locked
        (⟨wanted, .building holds r make ready (p :: rest)⟩ :: outer) todo answered hstack
        fun k hk => hfree k ⟨p, List.mem_cons_self .., hk⟩
      obtain ⟨after, hothers⟩ := iho locked holds wanted outer todo
        (answered ++ before ++ [(.of p.need.key, given)]) hstack
        fun k ⟨q, hq, hk⟩ => hfree k ⟨q, List.mem_cons_of_mem p hq, hk⟩
      refine ⟨before ++ [(.of p.need.key, given)] ++ after, .head (Move.alone (.asks asks)) ?_⟩
      refine hserved.trans (.head (Move.alone (.supplied fits)) ?_)
      simpa using hothers
  | @stopped stack r make ready p rest m m' given halt asks served unfit ih =>
      intro locked holds wanted outer todo answered hstack hfree
      obtain ⟨before, hserved⟩ := ih locked
        (⟨wanted, .building holds r make ready (p :: rest)⟩ :: outer) todo answered hstack
        fun k hk => hfree k ⟨p, List.mem_cons_self .., hk⟩
      refine ⟨before ++ [(.of p.need.key, given)], .head (Move.alone (.asks asks)) ?_⟩
      refine hserved.tail ?_
      rw [Stage.ended_error, ← List.append_assoc]
      exact Move.alone (.stopped unfit)

/-- If all locks are free, a worker who is alone and is going to request the product of a type
comes to the answer of the workshop, and leaves it as the request does. -/
lemma alone_getInstance (ha : w.book.Acyclic) (wanted : TypeRef) (todo : List TypeRef)
    (answered : List (TypeRef × Except Halt (Instance V))) {h : Hall σ V}
    (hfree : ∀ k, h.locked k = false) :
    ∃ more, ReflTransGen w.Alone (⟨[], wanted :: todo, answered⟩, h)
      (⟨[], todo,
          answered ++ more ++ [(wanted, ((w.getInstance wanted).runFrom h.moment).1)]⟩,
        h.turnTo ((w.getInstance wanted).runFrom h.moment).2) := by
  have hcourse := course_serveAt ha Book.isStack_nil (Book.isNext_nil wanted.key) h.moment
  obtain ⟨more, hserved⟩ :=
    hcourse.alone ha h.locked [] todo answered rfl fun k _ => hfree k
  rw [getInstance_eq]
  refine ⟨more, .head (Move.alone .begins) (hserved.tail ?_)⟩
  exact Move.alone .answers

end Workshop

/-! ### The floor -/

namespace Floor

variable [DecidableEq ι] {w : Workshop σ V} {f : Floor ι σ V}

/-- What a worker does alone it can do on the floor, while the others stand still. -/
lemma turns_of_alone {i : ι} {b : Worker σ V × Hall σ V}
    (h : ReflTransGen w.Alone (f.workers i, f.hall) b) :
    ReflTransGen w.Turn f ⟨b.2, Function.update f.workers i b.1⟩ := by
  induction h with
  | refl =>
      rw [Function.update_eq_self]
  | @tail b c hbefore hmove ih =>
      have hworker : w.Move (Function.update f.workers i b.1 i) b.2 c.1 c.2 := by
        rw [Function.update_self]
        exact hmove
      have hturn : w.Turn ⟨b.2, Function.update f.workers i b.1⟩
          ⟨c.2, Function.update (Function.update f.workers i b.1) i c.1⟩ := .works i hworker
      rw [Function.update_idem] at hturn
      exact ih.tail hturn

/-- **What a request does is a run of the floor.** When all locks are free, a worker can get the
product of the type that it is going to request just as the workshop answers a request, while
the others stand still. -/
theorem turns_getInstance (ha : w.book.Acyclic) {i : ι} {wanted : TypeRef}
    {todo : List TypeRef} {answered : List (TypeRef × Except Halt (Instance V))}
    (hi : f.workers i = ⟨[], wanted :: todo, answered⟩) (hfree : ∀ k, f.hall.locked k = false) :
    ∃ more, ReflTransGen w.Turn f
      ⟨f.hall.turnTo ((w.getInstance wanted).runFrom f.hall.moment).2,
        Function.update f.workers i ⟨[], todo, answered ++ more ++
          [(wanted, ((w.getInstance wanted).runFrom f.hall.moment).1)]⟩⟩ := by
  obtain ⟨more, halone⟩ := Workshop.alone_getInstance ha wanted todo answered hfree
  rw [← hi] at halone
  exact ⟨more, turns_of_alone halone⟩

end Floor

end Wiring
