/-
The moves of workers as a function, and the runs of a floor by a schedule.

* `Workshop.advance?`, `Workshop.move?`: the step of an errand and the move of a worker, if
  there is one;
* `Workshop.advance_iff`, `Workshop.move_iff`: **these are the moves**, so that a worker never
  has a choice, except that it may or may not survive a panic;
* `Workshop.turns`: the workers of a floor move in the order of a schedule, where those that
  can not move are passed over; `Workshop.Works`: one worker moves; `Workshop.turns_works`:
  **every schedule is a course of such moves**, and so a run of the floor.
-/
import Wiring.Proofs.Floor.Steps

namespace Wiring

open Relation

variable {ι σ V : Type}

namespace Workshop

variable (w : Workshop σ V)

/-- The step of an errand, if there is one. There is none while the lock of the place is
taken, where something is to be requested, and when all is done. -/
def advance? (stack : List TypeKey) (wanted : TypeRef) :
    Stage σ V → Hall σ V → Option (Stage σ V × Hall σ V)
  | .posed, h =>
    match w.book.recipe? wanted.key with
    | none => some (.finished false (.error (.failed (.missing wanted.name))), h)
    | some r =>
      match r.source with
      | .given product => some (.finished false (.ok product), h)
      | .factory make =>
        if h.moment.shelf.contains wanted.key then
          if h.locked wanted.key then none else some (.locked r make, h.lock wanted.key)
        else some (.building false r make [] r.parameters,
          h.turnTo (h.moment.record (.began (wanted.key :: stack))))
  | .locked r make, h =>
    match h.moment.shelf.product? wanted.key with
    | some product => some (.finished true (.ok product), h)
    | none => some (.building true r make [] r.parameters,
        h.turnTo (h.moment.record (.began (wanted.key :: stack))))
  | .building holds r make ready (p :: rest), h =>
    if w.Skips p then some (.building holds r make (ready ++ [.absent]) rest, h) else none
  | .building holds r make ready [], h =>
    match (w.call r make ready).runFrom h.moment with
    | (answer, m) => some (.ended holds answer, h.turnTo (m.reported wanted.name answer))
  | .built product, h =>
    some (.finished true (.ok product), h.turnTo (h.moment.released wanted (.ok product)))
  | .finished true answer, h => some (.finished false answer, h.leave wanted answer)
  | .finished false _, _ => none

/-- What a worker does with its errands when the innermost can take no step: it requests what
the next parameter uses, or passes an answer on. -/
def passOn? (x : Worker σ V) (h : Hall σ V) : Option (Worker σ V × Hall σ V) :=
  match x.errands with
  | ⟨wanted, .building holds r make ready (p :: rest)⟩ :: outer =>
    some ({ x with
      errands := ⟨.of p.need.key, .posed⟩ ::
        ⟨wanted, .building holds r make ready (p :: rest)⟩ :: outer }, h)
  | ⟨inner, .finished false given⟩ :: ⟨wanted, .building holds r make ready (p :: rest)⟩ :: outer =>
    match p.need.receive given with
    | .ok argument =>
      some ({ x with
        errands := ⟨wanted, .building holds r make (ready ++ [argument]) rest⟩ :: outer
        answered := x.answered ++ [(inner, given)] }, h)
    | .error halt =>
      some ({ x with
        errands := ⟨wanted, .finished holds (.error halt)⟩ :: outer
        answered := x.answered ++ [(inner, given)] },
        h.turnTo (h.moment.reported wanted.name (.error halt)))
  | [⟨wanted, .finished false answer⟩] =>
    some ({ x with errands := [], answered := x.answered ++ [(wanted, answer)] }, h)
  | _ => none

/-- The move of a worker, if there is one. -/
def move? (x : Worker σ V) (h : Hall σ V) : Option (Worker σ V × Hall σ V) :=
  match x.errands with
  | [] =>
    match x.todo with
    | [] => none
    | wanted :: todo => some ({ x with errands := [⟨wanted, .posed⟩], todo := todo }, h)
  | ⟨wanted, stage⟩ :: outer =>
    match w.advance? (Worker.stack outer) wanted stage h with
    | some (stage', h') => some ({ x with errands := ⟨wanted, stage'⟩ :: outer }, h')
    | none => passOn? x h

variable {w} {stack : List TypeKey} {wanted : TypeRef} {stage stage' : Stage σ V}
  {x x' : Worker σ V} {h h' : Hall σ V}

/-- **The steps of an errand are those of the function.** -/
theorem advance_iff : w.Advance stack wanted stage h stage' h' ↔
    w.advance? stack wanted stage h = some (stage', h') := by
  constructor
  · intro hs
    cases hs with
    | missing absent => simp [advance?, absent]
    | given found source => simp [advance?, found, source]
    | passed found source placeless => simp [advance?, found, source, placeless]
    | taken found source placed free => simp [advance?, found, source, placed, free]
    | found there => simp [advance?, there]
    | empty empty => simp [advance?, empty]
    | skipped skips => simp [advance?, skips]
    | called ended => simp [advance?, ended]
    | stored => rfl
    | released => rfl
  · intro hs
    cases stage with
    | posed =>
        simp only [advance?] at hs
        split at hs
        · rename_i absent
          cases hs
          exact .missing absent
        · rename_i r found
          split at hs
          · rename_i product source
            cases hs
            exact .given found source
          · rename_i make source
            split at hs
            · rename_i placed
              split at hs
              · cases hs
              · rename_i hfree
                cases hs
                exact .taken found source placed (Bool.eq_false_iff.2 hfree)
            · rename_i hplace
              cases hs
              exact .passed found source (Bool.eq_false_iff.2 hplace)
    | locked r make =>
        simp only [advance?] at hs
        split at hs
        · rename_i product there
          cases hs
          exact .found there
        · rename_i hnone
          cases hs
          exact .empty hnone
    | building holds r make ready rest =>
        cases rest with
        | nil =>
            cases hs
            exact .called rfl
        | cons p rest =>
            simp only [advance?] at hs
            split at hs
            · rename_i skips
              cases hs
              exact .skipped skips
            · cases hs
    | built product =>
        cases hs
        exact .stored
    | finished holds answer =>
        cases holds with
        | false => cases hs
        | true =>
            cases hs
            exact .released

/-- **The moves of a worker are those of the function**, and that it may not survive a
panic. -/
theorem move_iff : w.Move x h x' h' ↔ w.move? x h = some (x', h') ∨
    ∃ wanted text, x.errands = [⟨wanted, .finished false (.error (.panicked text))⟩] ∧
      x' = ⟨[], [], x.answered ++ [(wanted, .error (.panicked text))]⟩ ∧ h' = h := by
  constructor
  · intro hm
    cases hm with
    | begins => exact .inl rfl
    | proceeds step => exact .inl (by simp [move?, advance_iff.1 step])
    | asks asks => exact .inl (by simp [move?, advance?, passOn?, asks])
    | supplied fits => exact .inl (by simp [move?, advance?, passOn?, fits])
    | stopped unfit => exact .inl (by simp [move?, advance?, passOn?, unfit])
    | answers => exact .inl rfl
    | quits => exact .inr ⟨_, _, rfl, rfl, rfl⟩
  · obtain ⟨errands, todo, answered⟩ := x
    rintro (hm | ⟨wanted, text, rfl, rfl, rfl⟩)
    · cases errands with
      | nil =>
          cases todo with
          | nil => cases hm
          | cons wanted todo =>
              cases hm
              exact .begins
      | cons e outer =>
          obtain ⟨wanted, stage⟩ := e
          simp only [move?] at hm
          split at hm
          · rename_i stage' h₁ hstep
            cases hm
            exact .proceeds (advance_iff.2 hstep)
          · rename_i hstep
            simp only [passOn?] at hm
            split at hm
            · rename_i heq
              cases heq
              cases hm
              exact .asks (by simpa [advance?] using hstep)
            · rename_i heq
              cases heq
              split at hm
              · rename_i fits
                cases hm
                exact .supplied fits
              · rename_i unfit
                cases hm
                exact .stopped unfit
            · rename_i heq
              cases heq
              cases hm
              exact .answers
            · cases hm
    · exact .quits

/-! ### Schedules -/

variable [DecidableEq ι]

/-- The floor after a move of one worker, or as it is if the worker can not move. -/
def turn (w : Workshop σ V) (f : Floor ι σ V) (i : ι) : Floor ι σ V :=
  match w.move? (f.workers i) f.hall with
  | some (x, h) => ⟨h, Function.update f.workers i x⟩
  | none => f

/-- The floor after the workers have moved in the order of a schedule. -/
def turns (w : Workshop σ V) (f : Floor ι σ V) (schedule : List ι) : Floor ι σ V :=
  schedule.foldl w.turn f

/-- One worker moves, and nothing else happens. -/
def Works (w : Workshop σ V) (f f' : Floor ι σ V) : Prop :=
  ∃ i x h, w.Move (f.workers i) f.hall x h ∧ f' = ⟨h, Function.update f.workers i x⟩

lemma Works.turn {w : Workshop σ V} {f f' : Floor ι σ V} (h : w.Works f f') : w.Turn f f' := by
  obtain ⟨i, x, hall, hmove, rfl⟩ := h
  exact .works i hmove

/-- **Every schedule is a course of moves.** -/
theorem turns_works (f : Floor ι σ V) (schedule : List ι) :
    ReflTransGen w.Works f (w.turns f schedule) := by
  induction schedule generalizing f with
  | nil => exact .refl
  | cons i rest ih =>
      have hfirst : ReflTransGen w.Works f (w.turn f i) := by
        rw [Workshop.turn]
        split
        · rename_i x h hmove
          exact .single ⟨i, x, h, move_iff.2 (.inl hmove), rfl⟩
        · exact .refl
      exact hfirst.trans (ih (w.turn f i))

/-- Every schedule is a run of the floor. -/
theorem turns_reflTransGen (f : Floor ι σ V) (schedule : List ι) :
    ReflTransGen w.Turn f (w.turns f schedule) :=
  ReflTransGen.mono (fun _ _ => Works.turn) _ _ (turns_works f schedule)

/-! ### A sample -/

/-- Two workers in the sample: one of them is going to request the second singleton, which
needs the first one, and the other is going to request the first one. They have moved in the
order of a schedule, where `true` stands for the former. -/
def sampleFloor (schedule : List Bool) : Floor Bool Unit Unit :=
  (sample [needsFirst]).turns
    ⟨⟨sampleStart [needsFirst], fun _ => false⟩,
      fun i => ⟨[], [.of (.product (bif i then 1 else 0))], []⟩⟩ schedule

/-- The worker who wants the second singleton begins to make it and turns to the first one, and
meanwhile the other worker begins to make that. -/
def encounter : List Bool := [true, true, true, true, false, false, false]

lemma reached_sampleFloor (schedule : List Bool) :
    (sampleFloor schedule).Reached (sample [needsFirst]) :=
  ⟨_, ⟨(opened_sample rfl).reached [], fun _ => rfl, fun _ => ⟨rfl, rfl⟩⟩,
    turns_reflTransGen _ schedule⟩

end Workshop

end Wiring
