/-
What a workshop does from its opening on.

* `Query`, `Workshop.answer`: what a workshop can be asked for, and its answer;
  `Workshop.runFrom_answer`: an answer takes at most one request;
* `Act`, `Workshop.run`: any sequence of queries, looks at the shelf and changes of the
  world outside the workshop;
* `Workshop.Opened`, `Workshop.Reached`: the moment after a successful opening, and the
  moments after any acts that follow it;
* `Workshop.run_opening_of_error`, `Workshop.run_opening_of_ok`: what an opening comes to;
  `Workshop.opening_keeps`: what all requests leave true it leaves true, even if it fails;
* `Workshop.Invariant`: what holds before anything is made and is kept by every course of a
  request; `Workshop.Reached.invariant`: **it holds at every moment that is reached**.
-/
import Wiring.Facade
import Wiring.Proofs.Survey.Completeness
import Wiring.Proofs.Workshop.Course

namespace Wiring

variable {σ V : Type}

/-! ### Queries -/

/-- What a workshop is asked for. -/
inductive Query where
  /-- The product of a type, its type erased. -/
  | getInstance (wanted : TypeRef)
  /-- The product of a type. -/
  | get (key : TypeKey)
  /-- What a parameter with this need would receive. -/
  | resolve (need : Need)
  deriving DecidableEq, Repr

namespace Query

/-- The type a query requests, if it requests anything. -/
def wanted : Query → TypeRef
  | .getInstance wanted => wanted
  | .get key => .of key
  | .resolve need => .of need.key

/-- What a query makes of the answer to its request. -/
def receive : Query → Except Halt (Instance V) → Except Halt (Argument V)
  | .getInstance _, given => given.map .shared
  | .get key, given => (Need.shared key).receive given
  | .resolve need, given => need.receive given

/-- The answer to a query comes from a product that it was served with. -/
lemma exists_of_receive_eq_ok {q : Query} {given : Except Halt (Instance V)}
    {a : Argument V} (h : q.receive given = .ok a) : ∃ product, given = .ok product := by
  cases given with
  | ok product => exact ⟨product, rfl⟩
  | error halt =>
      cases q with
      | getInstance wanted => cases h
      | get key => cases h
      | resolve need => cases h

end Query

namespace Workshop

/-- The answer to a query. -/
def answer (w : Workshop σ V) : Query → Request σ V (Argument V)
  | .getInstance wanted => .shared <$> w.getInstance wanted
  | .get key => .shared <$> w.get key
  | .resolve need => w.resolve need

/-- A query requests nothing if it is for an optional parameter and no recipe produces what
the parameter uses. -/
def Idle (w : Workshop σ V) : Query → Bool
  | .resolve need => need.isOptional && !w.book.produces need.key
  | _ => false

variable {w : Workshop σ V}

/-- A query that requests something takes one request. -/
lemma runFrom_answer {q : Query} (h : w.Idle q = false) (m : Moment σ V) :
    (w.answer q).runFrom m = (q.receive ((w.serveAt [] q.wanted).runFrom m).1,
      ((w.serveAt [] q.wanted).runFrom m).2) := by
  cases q with
  | getInstance wanted =>
      rw [answer, getInstance_eq, Request.runFrom_map]
      change _ = ((((w.serveAt [] wanted).runFrom m).1).map Argument.shared,
        ((w.serveAt [] wanted).runFrom m).2)
      rcases (w.serveAt [] wanted).runFrom m with ⟨halt | product, m'⟩ <;> rfl
  | get key =>
      rw [answer, get_eq, Request.runFrom_map, runFrom_fetch]
      change _ = ((Need.shared key).receive ((w.serveAt [] (.of key)).runFrom m).1,
        ((w.serveAt [] (.of key)).runFrom m).2)
      rcases (w.serveAt [] (.of key)).runFrom m with ⟨halt | product, m'⟩
      · rfl
      · simp only [Need.receive, Need.take, Need.key]
        cases product.downcast key <;> rfl
  | resolve need => exact runFrom_resolve_fetch (p := ⟨need, none⟩) h [] m

/-- Nothing happens for a query that requests nothing. -/
lemma runFrom_answer_of_idle {q : Query} (h : w.Idle q = true) (m : Moment σ V) :
    (w.answer q).runFrom m = (.ok .absent, m) := by
  cases q with
  | getInstance wanted => cases h
  | get key => cases h
  | resolve need => exact Need.runFrom_resolve_of_not need h m

/-! ### Runs -/

end Workshop

/-- Something that happens to a workshop from outside. -/
inductive Act (σ : Type) where
  /-- It is asked for something. -/
  | ask (q : Query)
  /-- Somebody looks whether the product of a type is there. -/
  | look (key : TypeKey)
  /-- The world outside it changes. -/
  | elsewhere (world : σ)
  deriving DecidableEq, Repr

/-- How a workshop replies to an act. -/
inductive Reply (V : Type) where
  /-- With the answer to a query, or with what it ended in. -/
  | answered (answer : Except Halt (Argument V))
  /-- By showing whether a product is there. -/
  | shown (constructed : Bool)
  /-- Not at all. -/
  | silent

namespace Workshop

/-- The reply to an act, and the moment after it. -/
def act (w : Workshop σ V) : Act σ → Moment σ V → Reply V × Moment σ V
  | .ask q, m => (.answered ((w.answer q).runFrom m).1, ((w.answer q).runFrom m).2)
  | .look key, m => (.shown (w.isConstructed m.shelf key), m)
  | .elsewhere world, m => (.silent, { m with world := world })

/-- The replies to some acts in turn, and the moment after them. -/
def run (w : Workshop σ V) : List (Act σ) → Moment σ V → List (Reply V) × Moment σ V
  | [], m => ([], m)
  | a :: rest, m =>
    ((w.act a m).1 :: (w.run rest (w.act a m).2).1, (w.run rest (w.act a m).2).2)

/-- Acts may be split into those before and those after. -/
lemma run_append (w : Workshop σ V) (before after : List (Act σ)) (m : Moment σ V) :
    (w.run (before ++ after) m).2 = (w.run after (w.run before m).2).2 := by
  induction before generalizing m with
  | nil => rfl
  | cons a rest ih => exact ih (w.act a m).2

/-- The workshop works by the book of a component whose recipes are well typed, as the
recipes of all typed factories and values are, and `m` is the moment after its successful
opening. Reports may have been made before. -/
structure Opened (w : Workshop σ V) (m : Moment σ V) : Prop where
  composed : ∃ (c : Component σ V) (exports : List TypeRef),
    w.book = .of c exports ∧ ∀ r ∈ c.recipes, r.WellTyped
  opens : ∃ (world : σ) (notices : List Notice),
    w.opening.run.run ⟨.empty, 0, world, notices.map .noted⟩ = (.ok (), m)

/-- The moments that a workshop comes to after its opening. -/
def Reached (w : Workshop σ V) (m : Moment σ V) : Prop :=
  ∃ m₀ acts, w.Opened m₀ ∧ (w.run acts m₀).2 = m

variable {w : Workshop σ V}

lemma Opened.reached {m : Moment σ V} (h : w.Opened m) (acts : List (Act σ)) :
    w.Reached (w.run acts m).2 := ⟨m, acts, h, rfl⟩

lemma Reached.after {m : Moment σ V} (h : w.Reached m) (acts : List (Act σ)) :
    w.Reached (w.run acts m).2 := by
  obtain ⟨m₀, before, ho, rfl⟩ := h
  exact ⟨m₀, before ++ acts, ho, w.run_append before acts m₀⟩

/-! ### The opening -/

/-- The products of recipes are requested in turn, up to the first that fails. -/
lemma run_activate_cons (w : Workshop σ V) (activation : Activation) (r : Recipe σ V)
    (rest : List (Recipe σ V)) (m : Moment σ V) :
    (w.activate activation (r :: rest)).run.run m =
      match (w.getInstance r.type).runFrom
          (m.record (.noted (.activating activation r.type.name))) with
      | (.ok _, m') => (w.activate activation rest).run.run m'
      | (.error halt, m') => (.error (.ofHalt r.type.name halt), m') := by
  have step : (w.activate activation (r :: rest)).run.run m =
      ExceptT.bindCont (fun _ => w.activate activation rest)
        (((w.getInstance r.type).runFrom
          (m.record (.noted (.activating activation r.type.name)))).1.mapError
            (Obstacle.ofHalt r.type.name))
        ((w.getInstance r.type).runFrom
          (m.record (.noted (.activating activation r.type.name)))).2 := rfl
  rw [step]
  rcases (w.getInstance r.type).runFrom
    (m.record (.noted (.activating activation r.type.name))) with ⟨halt | product, m'⟩ <;> rfl

/-- The moment when the first product of a workshop is requested. -/
def blank (w : Workshop σ V) (m : Moment σ V) : Moment σ V :=
  { m with shelf := w.emptyShelf, trace := m.trace ++ w.book.checkNotices.map Event.noted }

/-- An opening that finds defects makes nothing. -/
lemma run_opening_of_error {defects : List Defect} (h : w.book.check = .error defects)
    (m : Moment σ V) :
    w.opening.run.run m = (.error (.refused (.incomplete defects)),
      { m with trace := m.trace ++ w.book.checkNotices.map Event.noted }) := by
  rw [opening, h]
  rfl

/-- An opening that finds none makes the products of both rounds, up to the first that
fails. -/
lemma run_opening_of_ok (h : w.book.check = .ok ()) (m : Moment σ V) :
    w.opening.run.run m =
      match (w.activate .primary (w.book.activated .primary)).run.run (w.blank m) with
      | (.ok _, m₁) => (w.activate .required (w.book.activated .required)).run.run m₁
      | (.error obstacle, m₁) => (.error obstacle, m₁) := by
  have step : w.opening.run.run m =
      (match (w.activate .primary (w.book.activated .primary)).run.run (w.blank m) with
        | (answer, m₁) => ExceptT.bindCont
            (fun _ => w.activate .required (w.book.activated .required)) answer m₁) := by
    rw [opening, h]
    rfl
  rw [step]
  rcases (w.activate .primary (w.book.activated .primary)).run.run (w.blank m) with
    ⟨obstacle | _, m₁⟩ <;> rfl

/-- After a successful opening the book was found to be complete, and the products of both
rounds were made. -/
lemma run_opening_eq_ok {m m' : Moment σ V} (h : w.opening.run.run m = (.ok (), m')) :
    w.book.check = .ok () ∧ ∃ m₁,
      (w.activate .primary (w.book.activated .primary)).run.run (w.blank m) = (.ok (), m₁) ∧
      (w.activate .required (w.book.activated .required)).run.run m₁ = (.ok (), m') := by
  cases hc : w.book.check with
  | error defects =>
      rw [run_opening_of_error hc] at h
      cases congrArg Prod.fst h
  | ok _ =>
      rw [run_opening_of_ok hc] at h
      rcases hp : (w.activate .primary (w.book.activated .primary)).run.run (w.blank m) with
        ⟨obstacle | _, m₁⟩ <;> rw [hp] at h
      · cases congrArg Prod.fst h
      · exact ⟨rfl, m₁, rfl, h⟩

section Keeps

variable {P : Moment σ V → Prop} (noted : ∀ m notice, P m → P (m.record (.noted notice)))
  (served : ∀ m wanted, P m → P ((w.getInstance wanted).runFrom m).2)

include noted served

/-- What reports and requests leave true, a round leaves true, whatever it ends in. -/
lemma activate_keeps {activation : Activation} {rs : List (Recipe σ V)} {m : Moment σ V}
    (hm : P m) : P ((w.activate activation rs).run.run m).2 := by
  induction rs generalizing m with
  | nil => exact hm
  | cons r rest ih =>
      have hserved := served _ r.type (noted m (.activating activation r.type.name) hm)
      rw [run_activate_cons]
      rcases hg : (w.getInstance r.type).runFrom
        (m.record (.noted (.activating activation r.type.name))) with ⟨halt | product, m₁⟩ <;>
        rw [hg] at hserved
      · exact hserved
      · exact ih hserved

/-- So does an opening that finds no defects. -/
lemma opening_keeps (hc : w.book.check = .ok ()) {m : Moment σ V} (hm : P (w.blank m)) :
    P (w.opening.run.run m).2 := by
  have hprimary : P ((w.activate .primary (w.book.activated .primary)).run.run (w.blank m)).2 :=
    activate_keeps noted served hm
  rw [run_opening_of_ok hc]
  rcases hp : (w.activate .primary (w.book.activated .primary)).run.run (w.blank m) with
    ⟨obstacle | _, m₁⟩ <;> rw [hp] at hprimary
  · exact hprimary
  · exact activate_keeps noted served hprimary

end Keeps

variable {m : Moment σ V}

lemma Opened.keyed (h : w.Opened m) : w.book.Keyed := by
  obtain ⟨c, exports, hbook, -⟩ := h.composed
  rw [hbook]
  exact Book.keyed_of c exports

/-- The book of an opened workshop is complete. -/
lemma Opened.complete (h : w.Opened m) : w.book.Complete := by
  obtain ⟨world, notices, hopening⟩ := h.opens
  exact (Book.check_eq_ok_iff h.keyed).1 (run_opening_eq_ok hopening).1

/-- The recipes of an opened workshop are well typed. -/
lemma Opened.wellTyped (h : w.Opened m) {key : TypeKey} {r : Recipe σ V}
    (hr : w.book.recipe? key = some r) : r.WellTyped := by
  obtain ⟨c, exports, hbook, hc⟩ := h.composed
  rw [hbook] at hr
  exact hc r (Book.mem_of_recipe?_of hr)

lemma Reached.keyed (h : w.Reached m) : w.book.Keyed := by
  obtain ⟨m₀, acts, ho, -⟩ := h
  exact ho.keyed

lemma Reached.complete (h : w.Reached m) : w.book.Complete := by
  obtain ⟨m₀, acts, ho, -⟩ := h
  exact ho.complete

lemma Reached.wellTyped (h : w.Reached m) {key : TypeKey} {r : Recipe σ V}
    (hr : w.book.recipe? key = some r) : r.WellTyped := by
  obtain ⟨m₀, acts, ho, -⟩ := h
  exact ho.wellTyped hr

/-- A request while nothing is under construction takes its course. -/
lemma Opened.course {m₀ : Moment σ V} (h : w.Opened m₀) (wanted : TypeRef)
    (m : Moment σ V) :
    Course w [] (.serve wanted) m ((w.serveAt [] wanted).runFrom m).1
      ((w.serveAt [] wanted).runFrom m).2 :=
  course_serveAt h.complete.acyclic Book.isStack_nil (Book.isNext_nil wanted.key) m

lemma Reached.course {m₀ : Moment σ V} (h : w.Reached m₀) (wanted : TypeRef)
    (m : Moment σ V) :
    Course w [] (.serve wanted) m ((w.serveAt [] wanted).runFrom m).1
      ((w.serveAt [] wanted).runFrom m).2 := by
  obtain ⟨m₁, acts, ho, -⟩ := h
  exact ho.course wanted m

/-! ### What holds at every moment -/

/-- A property of moments that holds before anything is made, and that is kept by reports,
by every request and by what happens elsewhere. -/
structure Invariant (w : Workshop σ V) (P : Moment σ V → Prop) : Prop where
  blank : ∀ m, m.shelf = w.emptyShelf → m.calls = 0 →
    (∀ e ∈ m.trace, ∃ notice, e = .noted notice) → P m
  noted : ∀ m notice, P m → P (m.record (.noted notice))
  served : ∀ m wanted answer m', P m → Course w [] (.serve wanted) m answer m' → P m'
  elsewhere : ∀ m world, P m → P { m with world := world }

variable {P : Moment σ V → Prop}

/-- An opening that finds no defects makes an invariant true, even if it fails. -/
lemma Invariant.opening (hP : w.Invariant P) (hb : w.book.Keyed) (hc : w.book.check = .ok ())
    {m : Moment σ V} (hcalls : m.calls = 0) (hquiet : ∀ e ∈ m.trace, ∃ notice, e = .noted notice) :
    P (w.opening.run.run m).2 := by
  have ha := ((Book.check_eq_ok_iff hb).1 hc).acyclic
  refine opening_keeps hP.noted (fun m wanted hm => ?_) hc (hP.blank _ rfl hcalls fun e he => ?_)
  · exact hP.served m wanted _ _ hm
      (course_serveAt ha Book.isStack_nil (Book.isNext_nil wanted.key) m)
  · rcases List.mem_append.1 he with he | he
    · exact hquiet e he
    · obtain ⟨notice, -, rfl⟩ := List.mem_map.1 he
      exact ⟨notice, rfl⟩

lemma Invariant.opened (hP : w.Invariant P) (h : w.Opened m) : P m := by
  obtain ⟨world, notices, hopening⟩ := h.opens
  have hm := hP.opening (m := ⟨.empty, 0, world, notices.map .noted⟩) h.keyed
    (run_opening_eq_ok hopening).1 rfl fun e he => by
      obtain ⟨notice, -, rfl⟩ := List.mem_map.1 he
      exact ⟨notice, rfl⟩
  rwa [hopening] at hm

/-- One act keeps an invariant. -/
lemma Invariant.act (hP : w.Invariant P) (ha : w.book.Acyclic) (hm : P m) (a : Act σ) :
    P (w.act a m).2 := by
  cases a with
  | ask q =>
      change P ((w.answer q).runFrom m).2
      cases hidle : w.Idle q with
      | true =>
          rw [runFrom_answer_of_idle hidle]
          exact hm
      | false =>
          rw [runFrom_answer hidle]
          exact hP.served m q.wanted _ _ hm
            (course_serveAt ha Book.isStack_nil (Book.isNext_nil q.wanted.key) m)
  | look key => exact hm
  | elsewhere world => exact hP.elsewhere m world hm

lemma Invariant.run (hP : w.Invariant P) (ha : w.book.Acyclic) (hm : P m)
    (acts : List (Act σ)) : P (w.run acts m).2 := by
  induction acts generalizing m with
  | nil => exact hm
  | cons a rest ih => exact ih (hP.act ha hm a)

/-- **An invariant holds at every moment that is reached.** -/
theorem Reached.invariant (hP : w.Invariant P) (h : w.Reached m) : P m := by
  obtain ⟨m₀, acts, ho, rfl⟩ := h
  exact hP.run ho.complete.acyclic (hP.opened ho) acts

end Workshop

/-! ### A sample -/

namespace Workshop

/-- A workshop with two singletons and a holder without any configuration values. The
factory of the second singleton has the given parameters. -/
def sample (parameters : List Parameter) : Workshop Unit Unit where
  serial := 0
  book := .of ⟨"sample",
    [.ofFactory 0 .retained (.product 0) [] fun _ world => (⟨.made (), []⟩, world),
      .ofFactory 1 .retained (.product 1) parameters fun _ world => (⟨.made (), []⟩, world),
      .ofValue 2 .settings (.given 0) .empty]⟩ [.of (.product 1)]

/-- A parameter for the first singleton of the sample. -/
def needsFirst : Parameter := ⟨.shared (.product 0), none⟩

/-- A parameter for a configuration value, which the holder of the sample lacks. -/
def needsSetting : Parameter := ⟨.setting 7, none⟩

/-- The moment after the opening of the sample. -/
def sampleStart (parameters : List Parameter) : Moment Unit Unit :=
  ((sample parameters).opening.runIn ()).2

lemma opened_sample {parameters : List Parameter}
    (h : (sample parameters).opening.runIn () = (.ok (), sampleStart parameters)) :
    (sample parameters).Opened (sampleStart parameters) := by
  refine ⟨⟨_, _, rfl, ?_⟩, (), [], h⟩
  rw [List.forall_mem_cons, List.forall_mem_cons, List.forall_mem_singleton]
  exact ⟨Recipe.wellTyped_ofFactory .., Recipe.wellTyped_ofFactory ..,
    Recipe.wellTyped_ofValue ..⟩

end Workshop

/-- A facade that is created stands on an opened workshop. -/
lemma Facade.opened_of_create {serial : ℕ} {c : Component σ V} {exports : List TypeKey}
    {f : Facade σ V} {world : σ} {notices : List Notice} {m : Moment σ V}
    (hc : ∀ r ∈ c.recipes, r.WellTyped)
    (h : (Facade.create serial c exports).run.run
      ⟨.empty, 0, world, notices.map .noted⟩ = (.ok f, m)) : f.workshop.Opened m := by
  have step : (Facade.create serial c exports).run.run
      ⟨.empty, 0, world, notices.map .noted⟩ =
      (match (Workshop.mk serial (Book.of c (exports.map .of))).opening.run.run
          ⟨.empty, 0, world, notices.map .noted ++
            [.noted (.creatingFacade c.name exports.length)]⟩ with
        | (answer, m') => ExceptT.bindCont
            (fun _ => (pure ⟨exports, ⟨serial, .of c (exports.map .of)⟩⟩ :
              Opening σ V (Facade σ V))) answer m') := rfl
  rw [step] at h
  rcases ho : (Workshop.mk serial (Book.of c (exports.map .of))).opening.run.run
    ⟨.empty, 0, world, notices.map .noted ++
      [.noted (.creatingFacade c.name exports.length)]⟩ with ⟨obstacle | _, m'⟩
  · rw [ho] at h
    cases congrArg Prod.fst h
  · rw [ho] at h
    obtain ⟨rfl, rfl⟩ : Facade.mk exports ⟨serial, .of c (exports.map .of)⟩ = f ∧ m' = m :=
      ⟨Except.ok.inj (congrArg Prod.fst h), congrArg Prod.snd h⟩
    refine ⟨⟨c, exports.map .of, rfl, hc⟩, world,
      notices ++ [.creatingFacade c.name exports.length], ?_⟩
    rw [List.map_append]
    exact ho

end Wiring
