/-
What a workshop does to the world outside: no more than its factories do.

* `Book.Preserves`: what no factory of a book changes about the world;
* `Workshop.Course.preserves`: **every course of a request leaves this as it is**, whatever the
  course ends in; `Workshop.answer_preserves`, `Workshop.opening_preserves`: so do queries and
  openings, those that fail included.
-/
import Wiring.Proofs.Workshop.Nesting

namespace Wiring

variable {σ V τ : Type}

/-- No factory of the book changes what `f` shows of the world. -/
def Book.Preserves (b : Book σ V) (f : σ → τ) : Prop :=
  ∀ key r make, b.recipe? key = some r → r.source = .factory make →
    ∀ arguments world, f (make arguments world).2 = f world

namespace Moment

/-- A failure is reported inside the workshop. -/
@[simp] lemma world_reported (m : Moment σ V) (name : String)
    (answer : Except Halt (Instance V)) : (m.reported name answer).world = m.world := by
  rcases answer with (failure | text | _) | product <;> rfl

/-- A place is given free inside the workshop. -/
@[simp] lemma world_released (m : Moment σ V) (wanted : TypeRef)
    (answer : Except Halt (Instance V)) : (m.released wanted answer).world = m.world := by
  rcases answer with (failure | text | _) | product <;> rfl

end Moment

namespace Workshop

variable {w : Workshop σ V} {m m' : Moment σ V} {f : σ → τ}

/-- The factory that a task is going to call changes nothing of what `f` shows. -/
def Task.Preserves (f : σ → τ) : Task σ V → Prop
  | .serve _ => True
  | .build _ make _ _ => ∀ arguments world, f (make arguments world).2 = f world

/-- **Every course of a request leaves of the world what all factories leave.** -/
theorem Course.preserves (hf : w.book.Preserves f) {stack : List TypeKey} {task : Task σ V}
    {answer : Except Halt (Instance V)} (hc : Course w stack task m answer m')
    (ht : task.Preserves f) : f m'.world = f m.world := by
  induction hc with
  | missing absent => rfl
  | given found source => rfl
  | shelved found source there => rfl
  | passed found source placeless built ih =>
      rw [Moment.world_reported]
      exact ih (hf _ _ _ found source)
  | kept found source placed empty built ih =>
      rw [Moment.world_released, Moment.world_reported]
      exact ih (hf _ _ _ found source)
  | called ended =>
      rw [runFrom_call] at ended
      obtain ⟨-, rfl⟩ := Prod.mk.inj ended
      exact ht _ _
  | skipped skips others ih => exact ih ht
  | supplied asks served fits others ihs iho => exact (iho ht).trans (ihs trivial)
  | stopped asks served unfit ih => exact ih trivial

/-- A query leaves what all factories leave. -/
lemma answer_preserves (ha : w.book.Acyclic) (hf : w.book.Preserves f) (q : Query) :
    f ((w.answer q).runFrom m).2.world = f m.world := by
  cases hidle : w.Idle q with
  | true => rw [runFrom_answer_of_idle hidle]
  | false =>
      rw [runFrom_answer hidle]
      exact (course_getInstance ha q.wanted m).preserves hf trivial

/-- An opening leaves what all factories leave, even if it fails. -/
lemma opening_preserves (hb : w.book.Keyed) (hf : w.book.Preserves f) (m : Moment σ V) :
    f (w.opening.run.run m).2.world = f m.world := by
  cases hc : w.book.check with
  | error defects => rw [run_opening_of_error hc]
  | ok _ =>
      have ha := ((Book.check_eq_ok_iff hb).1 hc).acyclic
      refine opening_keeps (P := fun n => f n.world = f m.world) (fun _ _ hn => hn)
        (fun n wanted hn => ?_) hc rfl
      exact ((course_getInstance ha wanted n).preserves hf trivial).trans hn

end Workshop

end Wiring
