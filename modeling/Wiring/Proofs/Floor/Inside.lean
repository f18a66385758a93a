/-
A worker who makes a single request, from taking the lock to giving it back.

* `Workshop.goOn`: what a worker does next if nobody else moves; `Workshop.exists_goOn`:
  whatever it comes to alone it comes to after some number of such moves;
* `Worker.answering`, `Worker.Inside`: the worker has the answer to its only request, and it
  has the lock of the place of what it requests;
* `Workshop.Move.inside`, `Workshop.Move.posed`: it stays inside until it has the answer, and it
  gets inside by a lock that was free;
* `Workshop.Heads`: the worker comes to an answer if it goes on alone;
  `Workshop.heads_posed`: **with all locks free it comes to the answer of the workshop**, and
  `Workshop.Heads.move`: every move of its own brings it closer.
-/
import Wiring.Proofs.Floor.Alone
import Wiring.Proofs.Floor.Order
import Wiring.Proofs.Floor.Schedule
import Wiring.Proofs.Workshop.Renewal

namespace Wiring

open Relation

variable {ι σ V : Type}

/-! ### A worker who goes on alone -/

namespace Workshop

/-- What a worker comes to by its next move if nobody else moves. If it has none, it stays. -/
def goOn (w : Workshop σ V) (a : Worker σ V × Hall σ V) : Worker σ V × Hall σ V :=
  (w.move? a.1 a.2).getD a

variable {w : Workshop σ V}

/-- A worker without requests stays as it is. -/
lemma iterate_goOn_of_done {a : Worker σ V × Hall σ V} (h : a.1.Done) (n : ℕ) :
    w.goOn^[n] a = a := by
  obtain ⟨⟨errands, todo, answered⟩, hall⟩ := a
  obtain ⟨rfl, rfl⟩ : errands = [] ∧ todo = [] := h
  exact Function.iterate_fixed rfl n

/-- Whatever a worker comes to alone, while it is still busy, it comes to after some number of
moves, as it never has a choice. -/
lemma exists_goOn {a b : Worker σ V × Hall σ V} (h : ReflTransGen w.Alone a b)
    (hb : b.1.errands ≠ []) : ∃ n, w.goOn^[n] a = b := by
  induction h using ReflTransGen.head_induction_on with
  | refl => exact ⟨0, rfl⟩
  | @head a c hmove _ ih =>
      obtain ⟨n, hn⟩ := ih
      rcases move_iff.1 hmove with hnext | ⟨wanted, text, -, hworker, -⟩
      · have hgo : w.goOn a = c := by
          rw [goOn, hnext]
          rfl
        exact ⟨n + 1, by rw [Function.iterate_succ_apply, hgo, hn]⟩
      · -- a worker who has not survived a panic is no longer busy
        have hdone : c.1.Done := by
          rw [hworker]
          exact ⟨rfl, rfl⟩
        rw [iterate_goOn_of_done hdone] at hn
        rw [← hn] at hb
        exact absurd hdone.1 hb

end Workshop

/-! ### Inside and at the end -/

namespace Worker

/-- The worker has the answer to its only request. -/
def answering (wanted : TypeRef) (answer : Except Halt (Instance V))
    (log : List (TypeRef × Except Halt (Instance V))) : Worker σ V :=
  ⟨[⟨wanted, .finished false answer⟩], [], log⟩

/-- The worker makes its only request. -/
def posing (wanted : TypeRef) : Worker σ V := ⟨[⟨wanted, .posed⟩], [], []⟩

/-- The worker has the lock of the place of the type that its only request is for. -/
def Inside (wanted : TypeRef) (x : Worker σ V) : Prop :=
  x.todo = [] ∧ ∃ stage, x.errands.getLast? = some ⟨wanted, stage⟩ ∧ stage.holds = true

variable {wanted : TypeRef} {x : Worker σ V}

lemma Inside.mem_held (h : x.Inside wanted) : wanted.key ∈ x.held := by
  obtain ⟨-, stage, hlast, hholds⟩ := h
  exact mem_heldFor (List.mem_of_getLast? hlast) hholds

/-- With a single errand the worker is inside for this one. -/
lemma Inside.single {t : TypeRef} {stage : Stage σ V} {todo : List TypeRef}
    {log : List (TypeRef × Except Halt (Instance V))}
    (h : (⟨[⟨t, stage⟩], todo, log⟩ : Worker σ V).Inside wanted) :
    t = wanted ∧ todo = [] ∧ stage.holds = true := by
  obtain ⟨htodo, last, hlast, hholds⟩ := h
  obtain ⟨rfl, rfl⟩ : t = wanted ∧ stage = last := by simpa using hlast
  exact ⟨rfl, htodo, hholds⟩

/-- Requests for parameters come and go while the worker is inside. -/
lemma inside_cons_cons {e o : Errand σ V} {outer : List (Errand σ V)} {todo : List TypeRef}
    {log : List (TypeRef × Except Halt (Instance V))}
    (log' : List (TypeRef × Except Halt (Instance V))) :
    (⟨e :: o :: outer, todo, log⟩ : Worker σ V).Inside wanted ↔
      (⟨o :: outer, todo, log'⟩ : Worker σ V).Inside wanted := by
  simp only [Inside, List.getLast?_cons_cons]

/-- The innermost errand goes on, and does not give its lock back. -/
lemma Inside.advance {e e' : Errand σ V} {outer : List (Errand σ V)} {todo : List TypeRef}
    {log log' : List (TypeRef × Except Halt (Instance V))}
    (h : (⟨e :: outer, todo, log⟩ : Worker σ V).Inside wanted) (hwanted : e'.wanted = e.wanted)
    (hholds : e.stage.holds = true → e'.stage.holds = true) :
    (⟨e' :: outer, todo, log'⟩ : Worker σ V).Inside wanted := by
  cases outer with
  | nil =>
      obtain ⟨rfl, rfl, hlock⟩ := h.single
      rw [← hwanted]
      exact ⟨rfl, e'.stage, rfl, hholds hlock⟩
  | cons o outer => exact (inside_cons_cons log).2 ((inside_cons_cons log).1 h)

end Worker

namespace Workshop

variable {w : Workshop σ V} {wanted : TypeRef} {x x' : Worker σ V} {h h' : Hall σ V}

/-- **A worker stays inside until it has the answer.** -/
theorem Move.inside (hm : w.Move x h x' h') (hx : x.Inside wanted) :
    x'.Inside wanted ∨ ∃ answer log, x' = Worker.answering wanted answer log := by
  cases hm with
  | begins =>
      obtain ⟨-, stage, hlast, -⟩ := hx
      cases hlast
  | @proceeds h h' t stage stage' outer todo log step =>
      by_cases hholds : stage.holds = true → stage'.holds = true
      · exact .inl (hx.advance rfl hholds)
      · -- the lock is given back; if it is that of an inner errand, the outermost one is kept
        cases outer with
        | cons o outer =>
            exact .inl ((Worker.inside_cons_cons log).2 ((Worker.inside_cons_cons log).1 hx))
        | nil =>
            obtain ⟨rfl, rfl, -⟩ := hx.single
            cases step with
            | released => exact .inr ⟨_, log, rfl⟩
            | called ended => simp at hholds
            | _ => simp [Stage.holds] at hholds
  | asks asks => exact .inl ((Worker.inside_cons_cons _).2 hx)
  | supplied fits => exact .inl (((Worker.inside_cons_cons []).1 hx).advance rfl id)
  | stopped unfit => exact .inl (((Worker.inside_cons_cons []).1 hx).advance rfl id)
  | answers => cases hx.single.2.2
  | quits => cases hx.single.2.2

/-- **A worker gets inside by a lock that was free**, if what it requests is kept. Otherwise it
has the answer at once, since what it requests is not made anew for every request. -/
theorem Move.posed (hm : w.Move (.posing wanted) h x' h') (hp : w.Placed h.moment)
    (hr : w.book.renews wanted.key = false) :
    (x'.Inside wanted ∧ w.book.keeps wanted.key = true ∧ h.locked wanted.key = false) ∨
      (∃ answer log, x' = Worker.answering wanted answer log) ∧
        w.book.keeps wanted.key = false := by
  cases hm with
  | proceeds step =>
      cases step with
      | missing absent =>
          refine .inr ⟨⟨_, [], rfl⟩, ?_⟩
          rw [Book.keeps, absent]
          rfl
      | given found source =>
          refine .inr ⟨⟨_, [], rfl⟩, ?_⟩
          simp [Book.keeps, found, Recipe.isKept, Recipe.isGiven, source]
      | passed found source placeless =>
          rw [hp, Book.keeps_of_not_renews found source hr] at placeless
          cases placeless
      | taken found source placed free =>
          exact .inl ⟨⟨rfl, _, rfl, rfl⟩, (hp wanted.key).symm.trans placed, free⟩

/-- A move of a worker who is not about to pass its answer on is what it does alone. -/
lemma Move.goOn_eq (hm : w.Move x h x' h')
    (hx : ∀ answer log, x ≠ Worker.answering wanted answer log) (htodo : x.todo = [])
    (hlast : x.errands.getLast?.map Errand.wanted = some wanted) :
    w.goOn (x, h) = (x', h') := by
  rcases move_iff.1 hm with hnext | ⟨t, text, herrands, -, -⟩
  · rw [goOn, hnext]
    rfl
  · obtain ⟨errands, todo, log⟩ := x
    obtain rfl : errands = _ := herrands
    obtain rfl : todo = [] := htodo
    obtain rfl : t = wanted := by simpa using hlast
    exact absurd rfl (hx _ log)

/-! ### The way to an answer -/

/-- If the worker goes on alone, it has the answer `answer` after `left` moves; then the moment
is `m`, and all locks are free. -/
def Heads (w : Workshop σ V) (wanted : TypeRef) (answer : Except Halt (Instance V))
    (m : Moment σ V) (left : ℕ) (x : Worker σ V) (h : Hall σ V) : Prop :=
  ∃ log, w.goOn^[left] (x, h) = (Worker.answering wanted answer log, ⟨m, fun _ => false⟩)

/-- **With all locks free a worker comes to the answer of the workshop.** -/
theorem heads_posed (ha : w.book.Acyclic) (wanted : TypeRef) (m : Moment σ V) :
    ∃ left, w.Heads wanted ((w.getInstance wanted).runFrom m).1
      ((w.getInstance wanted).runFrom m).2 left (.posing wanted) ⟨m, fun _ => false⟩ := by
  have hcourse := course_serveAt ha Book.isStack_nil (Book.isNext_nil wanted.key) m
  obtain ⟨log, halone⟩ :=
    hcourse.alone ha (fun _ => false) [] [] [] rfl fun _ _ => rfl
  obtain ⟨left, hleft⟩ := exists_goOn halone (List.cons_ne_nil _ _)
  exact ⟨left, [] ++ log, hleft⟩

variable {answer given : Except Halt (Instance V)} {m : Moment σ V} {left : ℕ}

/-- A worker who has an answer is at its end: if it went on, it would have none any more. -/
lemma Heads.eq_of_answering {log : List (TypeRef × Except Halt (Instance V))}
    (hd : w.Heads wanted answer m left (.answering wanted given log) h) :
    given = answer ∧ h = ⟨m, fun _ => false⟩ := by
  obtain ⟨log', hend⟩ := hd
  cases left with
  | zero =>
      obtain ⟨hworker, rfl⟩ := Prod.mk.inj hend
      obtain ⟨herrands, -, -⟩ := Worker.mk.inj hworker
      exact ⟨by simpa using herrands, rfl⟩
  | succ left =>
      have hgo : w.goOn (Worker.answering wanted given log, h) =
          (⟨[], [], log ++ [(wanted, given)]⟩, h) := rfl
      rw [Function.iterate_succ_apply, hgo, iterate_goOn_of_done ⟨rfl, rfl⟩] at hend
      cases congrArg (fun a => a.1.errands) hend

/-- **Every move of its own brings a worker closer to its answer.** -/
theorem Heads.move (hd : w.Heads wanted answer m left x h)
    (hx : x.Inside wanted ∨ x = .posing wanted) (hm : w.Move x h x' h') :
    ∃ left', left = left' + 1 ∧ w.Heads wanted answer m left' x' h' := by
  have hnot : ∀ given log, x ≠ Worker.answering wanted given log := by
    rintro given log rfl
    rcases hx with hx | hx
    · cases hx.single.2.2
    · cases congrArg Worker.errands hx
  have hgo : w.goOn (x, h) = (x', h') := by
    rcases hx with ⟨htodo, stage, hlast, -⟩ | rfl
    · exact hm.goOn_eq hnot htodo (by rw [hlast]; rfl)
    · exact hm.goOn_eq hnot rfl rfl
  obtain ⟨log, hend⟩ := hd
  cases left with
  | zero => exact absurd (congrArg Prod.fst hend) (hnot _ _)
  | succ left =>
      rw [Function.iterate_succ_apply, hgo] at hend
      exact ⟨left, rfl, log, hend⟩

end Workshop

end Wiring
