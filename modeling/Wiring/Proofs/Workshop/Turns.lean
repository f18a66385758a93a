/-
Requests that are made one after the other, up to the first that ends without a product.

* `Moment.after`, `Workshop.Course.after`: **a task takes the same course whatever was
  recorded before**;
* `Moment.SameDeeds`: moments that differ at most in what was reported;
* `Workshop.getInTurn`: requests for some types in turn; `Workshop.getInTurn_eq_error_iff`:
  the request that ends them is the first one that ends without a product;
* `Workshop.activate_getInTurn`, `Workshop.opening_getInTurn`: **an opening that finds the book
  complete comes to just such requests**, but for what it reports in between.
-/
import Wiring.Proofs.Workshop.Nesting

namespace Wiring

variable {σ V : Type}

namespace Moment

/-! ### What was recorded before -/

/-- The moment as it is if some events were recorded before all others. -/
def after (before : List (Event V)) (m : Moment σ V) : Moment σ V :=
  { m with trace := before ++ m.trace }

variable (before : List (Event V)) (m : Moment σ V)

lemma after_record (event : Event V) :
    (m.record event).after before = (m.after before).record event := by
  simp [after, record]

lemma after_reported (name : String) (answer : Except Halt (Instance V)) :
    (m.reported name answer).after before = (m.after before).reported name answer := by
  rcases answer with (failure | text | _) | product
  · exact m.after_record before _
  all_goals rfl

lemma after_released (wanted : TypeRef) (answer : Except Halt (Instance V)) :
    (m.released wanted answer).after before = (m.after before).released wanted answer := by
  rcases answer with (failure | text | _) | product
  · rfl
  · rfl
  · rfl
  · simp [after, released, record, store]

end Moment

namespace Workshop

variable {w : Workshop σ V} {m n m' : Moment σ V}

/-- **A task takes the same course whatever was recorded before.** -/
theorem Course.after {stack : List TypeKey} {task : Task σ V}
    {answer : Except Halt (Instance V)} (hc : Course w stack task m answer m')
    (before : List (Event V)) : Course w stack task (m.after before) answer (m'.after before) := by
  induction hc with
  | missing absent => exact .missing absent
  | given found source => exact .given found source
  | shelved found source there => exact .shelved found source there
  | passed found source placeless built ih =>
      rw [Moment.after_record] at ih
      rw [Moment.after_reported]
      exact .passed found source placeless ih
  | kept found source placed empty built ih =>
      rw [Moment.after_record] at ih
      rw [Moment.after_released, Moment.after_reported]
      exact .kept found source placed empty ih
  | called ended =>
      rw [runFrom_call] at ended
      obtain ⟨rfl, rfl⟩ := Prod.mk.inj ended
      refine .called ?_
      rw [runFrom_call]
      simp [Moment.after]
  | skipped skips others ih => exact .skipped skips ih
  | supplied asks served fits others ihs iho => exact .supplied asks ihs fits iho
  | stopped asks served unfit ih => exact .stopped asks ih unfit

/-- A request from outside does the same whatever was recorded before. -/
lemma runFrom_getInstance_after (hb : w.book.Keyed) (ha : w.book.Acyclic) (wanted : TypeRef)
    (before : List (Event V)) (m : Moment σ V) :
    (w.getInstance wanted).runFrom (m.after before) =
      (((w.getInstance wanted).runFrom m).1,
        ((w.getInstance wanted).runFrom m).2.after before) :=
  ((course_getInstance ha wanted m).after before).runFrom_eq hb ha Book.isStack_nil
    (Book.isNext_nil wanted.key)

/-- So does a query, and its answer is the same. -/
lemma runFrom_answer_after (hb : w.book.Keyed) (ha : w.book.Acyclic) (q : Query)
    (before : List (Event V)) (m : Moment σ V) :
    (w.answer q).runFrom (m.after before) =
      (((w.answer q).runFrom m).1, ((w.answer q).runFrom m).2.after before) := by
  cases hidle : w.Idle q with
  | true => rw [runFrom_answer_of_idle hidle, runFrom_answer_of_idle hidle]
  | false =>
      rw [runFrom_answer hidle, runFrom_answer hidle, ← getInstance_eq,
        runFrom_getInstance_after hb ha]

end Workshop

/-- Whether an event is more than a report. -/
def Event.isDeed : Event V → Bool
  | .noted _ => false
  | _ => true

/-- Moments that differ at most in what was reported. -/
structure Moment.SameDeeds (m n : Moment σ V) : Prop where
  shelf : m.shelf = n.shelf
  calls : m.calls = n.calls
  world : m.world = n.world
  deeds : m.trace.filter Event.isDeed = n.trace.filter Event.isDeed

namespace Moment

variable {m n o : Moment σ V}

lemma SameDeeds.trans (h : m.SameDeeds n) (h' : n.SameDeeds o) : m.SameDeeds o :=
  ⟨h.shelf.trans h'.shelf, h.calls.trans h'.calls, h.world.trans h'.world,
    h.deeds.trans h'.deeds⟩

/-- A report makes no difference. -/
lemma sameDeeds_record (m : Moment σ V) (notice : Notice) :
    (m.record (.noted notice)).SameDeeds m := by
  refine ⟨rfl, rfl, rfl, ?_⟩
  rw [record, List.filter_append]
  exact List.append_nil _

/-- What happens from now on is the same after the same deeds. -/
lemma SameDeeds.after {before before' : List (Event V)}
    (h : before.filter Event.isDeed = before'.filter Event.isDeed) (m : Moment σ V) :
    (m.after before).SameDeeds (m.after before') := by
  refine ⟨rfl, rfl, rfl, ?_⟩
  rw [Moment.after, Moment.after, List.filter_append, List.filter_append, h]

end Moment

namespace Workshop

variable {w : Workshop σ V} {m n m' : Moment σ V}

/-- A request gets the same answer after the same deeds, and does the same. -/
lemma sameDeeds_getInstance (hb : w.book.Keyed) (ha : w.book.Acyclic) (h : m.SameDeeds n)
    (wanted : TypeRef) :
    ((w.getInstance wanted).runFrom m).1 = ((w.getInstance wanted).runFrom n).1 ∧
      ((w.getInstance wanted).runFrom m).2.SameDeeds ((w.getInstance wanted).runFrom n).2 := by
  -- both moments come from the one with an empty record
  have hm : m = Moment.after m.trace { m with trace := [] } := by
    simp [Moment.after]
  have hn : n = Moment.after n.trace { m with trace := [] } := by
    simp [Moment.after, h.shelf, h.calls, h.world]
  rw [hm, hn, runFrom_getInstance_after hb ha, runFrom_getInstance_after hb ha]
  exact ⟨rfl, .after h.deeds _⟩

/-! ### Requests in turn -/

/-- Requests the products of some types in turn, up to the first request that ends without
one; then the answer is its type and what it ended in. -/
def getInTurn (w : Workshop σ V) :
    List TypeRef → Moment σ V → Except (TypeRef × Halt) Unit × Moment σ V
  | [], m => (.ok (), m)
  | wanted :: rest, m =>
    match (w.getInstance wanted).runFrom m with
    | (.ok _, m') => w.getInTurn rest m'
    | (.error halt, m') => (.error (wanted, halt), m')

lemma getInTurn_append (w : Workshop σ V) (front rest : List TypeRef) (m : Moment σ V) :
    w.getInTurn (front ++ rest) m =
      match w.getInTurn front m with
      | (.ok _, m') => w.getInTurn rest m'
      | (.error halted, m') => (.error halted, m') := by
  induction front generalizing m with
  | nil => rfl
  | cons wanted front ih =>
      rw [List.cons_append, getInTurn, getInTurn]
      rcases (w.getInstance wanted).runFrom m with ⟨halt | product, m'⟩
      · rfl
      · exact ih m'

/-- **The requests end with the first one that ends without a product**, and nothing happens
after it. -/
theorem getInTurn_eq_error_iff {ts : List TypeRef} {wanted : TypeRef} {halt : Halt} :
    w.getInTurn ts m = (.error (wanted, halt), m') ↔
      ∃ front rest m₁, ts = front ++ wanted :: rest ∧ w.getInTurn front m = (.ok (), m₁) ∧
        (w.getInstance wanted).runFrom m₁ = (.error halt, m') := by
  constructor
  · intro h
    induction ts generalizing m with
    | nil => cases congrArg Prod.fst h
    | cons t ts ih =>
        rw [getInTurn] at h
        rcases hg : (w.getInstance t).runFrom m with ⟨halt' | product, m₁⟩
        · rw [hg] at h
          obtain ⟨hanswer, rfl⟩ := Prod.mk.inj h
          obtain ⟨rfl, rfl⟩ := Prod.mk.inj (Except.error.inj hanswer)
          exact ⟨[], ts, m, rfl, rfl, hg⟩
        · rw [hg] at h
          obtain ⟨front, rest, m₂, rfl, hfront, hlast⟩ := ih h
          refine ⟨t :: front, rest, m₂, rfl, ?_, hlast⟩
          rw [getInTurn, hg]
          exact hfront
  · rintro ⟨front, rest, m₁, rfl, hfront, hlast⟩
    rw [getInTurn_append, hfront]
    dsimp only
    rw [getInTurn, hlast]

/-! ### The opening -/

/-- The obstacle that requests in turn are for an opening. -/
def obstacleOf : TypeRef × Halt → Obstacle := fun halted => .ofHalt halted.1.name halted.2

/-- A round of an opening comes to requests in turn, each of which is announced. -/
lemma activate_getInTurn (hb : w.book.Keyed) (ha : w.book.Acyclic) (activation : Activation)
    (rs : List (Recipe σ V)) (h : m.SameDeeds n) :
    ((w.activate activation rs).run.run m).1 =
        (w.getInTurn (rs.map Recipe.type) n).1.mapError obstacleOf ∧
      ((w.activate activation rs).run.run m).2.SameDeeds
        (w.getInTurn (rs.map Recipe.type) n).2 := by
  induction rs generalizing m n with
  | nil => exact ⟨rfl, h⟩
  | cons r rs ih =>
      obtain ⟨hanswer, hdeeds⟩ := sameDeeds_getInstance hb ha
        ((m.sameDeeds_record (.activating activation r.type.name)).trans h) r.type
      rw [run_activate_cons, List.map_cons, getInTurn]
      rcases hm : (w.getInstance r.type).runFrom
          (m.record (.noted (.activating activation r.type.name))) with ⟨halt | product, m'⟩ <;>
        rcases hn : (w.getInstance r.type).runFrom n with ⟨halt' | product', n'⟩ <;>
        rw [hm, hn] at hanswer hdeeds
      · obtain rfl := Except.error.inj hanswer
        exact ⟨rfl, hdeeds⟩
      · cases hanswer
      · cases hanswer
      · exact ih hdeeds

/-- The recipes whose products are made when the workshop opens, in this order. -/
def starters (w : Workshop σ V) : List (Recipe σ V) :=
  w.book.activated .primary ++ w.book.activated .required

/-- **An opening that finds the book complete** comes to requests for the products that are to
be there from the start, in turn, but for what it reports. -/
theorem opening_getInTurn (hb : w.book.Keyed) (hc : w.book.check = .ok ())
    (h : Moment.SameDeeds { m with shelf := w.emptyShelf } n) :
    (w.opening.run.run m).1 =
        (w.getInTurn (w.starters.map Recipe.type) n).1.mapError obstacleOf ∧
      (w.opening.run.run m).2.SameDeeds (w.getInTurn (w.starters.map Recipe.type) n).2 := by
  have ha := ((Book.check_eq_ok_iff hb).1 hc).acyclic
  have hblank : (w.blank m).SameDeeds n := by
    refine ⟨h.shelf, h.calls, h.world, Eq.trans ?_ h.deeds⟩
    simp [blank, Event.isDeed, List.filter_map, Function.comp_def]
  obtain ⟨hanswer, hdeeds⟩ :=
    activate_getInTurn hb ha .primary (w.book.activated .primary) hblank
  rw [run_opening_of_ok hc, starters, List.map_append, getInTurn_append]
  rcases hm : (w.activate .primary (w.book.activated .primary)).run.run (w.blank m) with
    ⟨obstacle | _, m₁⟩ <;>
    rcases hn : w.getInTurn ((w.book.activated .primary).map Recipe.type) n with
      ⟨halted | _, n₁⟩ <;>
    rw [hm, hn] at hanswer hdeeds
  · exact ⟨hanswer, hdeeds⟩
  · cases hanswer
  · cases hanswer
  · exact activate_getInTurn hb ha .required _ hdeeds

end Workshop

end Wiring
