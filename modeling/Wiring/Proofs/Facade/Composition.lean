/-
What comes of composing a facade.

* `Facade.run_create`, `Facade.run_compose_of_error`, `Facade.run_compose_of_ok`: a composition
  builds the component and then opens the workshop;
* `eager`: the recipes whose products are made when a workshop opens, primary ones first;
* `Moment.Untouched`: nothing was made, only reports;
* `Workshop.Opened.isConstructed`: after an opening all products are there that it is to make;
* `Facade.create_of_error`, `Facade.create_getInTurn`: what comes of creating a facade;
* `Facade.composition`: **a composition is refused for clashes first, then for the defects of
  the book; otherwise it comes to requests for the eager products in turn, up to the first that
  ends without one**.
-/
import Wiring.Proofs.Book.Listing
import Wiring.Proofs.Component.Merging
import Wiring.Proofs.Workshop.Extent
import Wiring.Proofs.Workshop.Turns

namespace Wiring

variable {σ V : Type}

/-! ### The steps of a composition -/

namespace Facade

/-- A facade is created by opening a workshop, and shows it if the opening succeeds. -/
lemma run_create (serial : ℕ) (c : Component σ V) (exports : List TypeKey) (m : Moment σ V) :
    (create serial c exports).run.run m =
      match (Workshop.mk serial (Book.of c (exports.map .of))).opening.run.run
          (m.record (.noted (.creatingFacade c.name exports.length))) with
      | (.ok _, m') => (.ok ⟨exports, ⟨serial, .of c (exports.map .of)⟩⟩, m')
      | (.error obstacle, m') => (.error obstacle, m') := by
  have step : (create serial c exports).run.run m =
      (match (Workshop.mk serial (Book.of c (exports.map .of))).opening.run.run
          (m.record (.noted (.creatingFacade c.name exports.length))) with
        | (answer, m') => ExceptT.bindCont
            (fun _ => (pure ⟨exports, ⟨serial, .of c (exports.map .of)⟩⟩ :
              Opening σ V (Facade σ V))) answer m') := rfl
  rw [step]
  rcases (Workshop.mk serial (Book.of c (exports.map .of))).opening.run.run
    (m.record (.noted (.creatingFacade c.name exports.length))) with ⟨obstacle | _, m'⟩ <;> rfl

/-- The moment at which a composition has built its component or has not. -/
def built (d : Draft σ V) (world : σ) : Moment σ V :=
  ⟨.empty, 0, world, d.buildNotices.map .noted⟩

lemma run_compose_of_error (serial : ℕ) {d : Draft σ V} {conflicts : Conflicts}
    (h : d.build = .error conflicts) (exports : List TypeKey) (world : σ) :
    (compose serial d exports).runIn world =
      (.error (.refused (.component conflicts)), built d world) := by
  rw [compose, h]
  rfl

lemma run_compose_of_ok (serial : ℕ) {d : Draft σ V} {c : Component σ V}
    (h : d.build = .ok c) (exports : List TypeKey) (world : σ) :
    (compose serial d exports).runIn world =
      (create serial c exports).run.run (built d world) := by
  rw [compose, h]
  rfl

end Facade

/-! ### What is made -/

/-- The recipes with factories whose products are made when a workshop opens: the primary ones
in the order of registration, then the required ones. -/
def eager (rs : List (Recipe σ V)) : List (Recipe σ V) :=
  (rs.filter fun r => r.activation = .primary && !r.isGiven) ++
    rs.filter fun r => r.activation = .required && !r.isGiven

lemma Workshop.starters_of {c : Component σ V} {exports : List TypeRef}
    (hn : (c.recipes.map Recipe.key).Nodup) (serial : ℕ) :
    (Workshop.mk serial (Book.of c exports)).starters = eager c.recipes := by
  rw [starters, Book.activated, Book.activated, Book.recipes_of hn]
  rfl

/-- Up to this moment no factory was called and nothing was done but reported. -/
structure Moment.Untouched (world : σ) (m : Moment σ V) : Prop where
  calls : m.calls = 0
  world : m.world = world
  reports : ∀ e ∈ m.trace, ∃ notice, e = .noted notice

namespace Moment

variable {world : σ} {m : Moment σ V}

lemma Untouched.append (h : m.Untouched world) (notices : List Notice) :
    Moment.Untouched world { m with trace := m.trace ++ notices.map .noted } := by
  refine ⟨h.calls, h.world, fun e he => ?_⟩
  rcases List.mem_append.1 he with he | he
  · exact h.reports e he
  · obtain ⟨notice, -, rfl⟩ := List.mem_map.1 he
    exact ⟨notice, rfl⟩

lemma Untouched.record (h : m.Untouched world) (notice : Notice) :
    (m.record (.noted notice)).Untouched world :=
  h.append [notice]

end Moment

lemma Facade.untouched_built (d : Draft σ V) (world : σ) : (built d world).Untouched world :=
  Moment.Untouched.append (m := ⟨.empty, 0, world, []⟩)
    ⟨rfl, rfl, fun e he => by cases he⟩ d.buildNotices

namespace Recipe

/-- Recipes that are made in one of the two ways there are declare their types rightly. -/
lemma Issued.wellTyped {r : Recipe σ V} (h : r.Issued) : r.WellTyped := by
  cases h with
  | factory serial role key parameters make => exact wellTyped_ofFactory ..
  | value serial key origin payload => exact wellTyped_ofValue ..

/-- What is made when a workshop opens is kept. -/
lemma Issued.isKept {r : Recipe σ V} (h : r.Issued) (hgiven : r.isGiven = false)
    (hactivation : r.activation = .primary ∨ r.activation = .required) : r.isKept = true := by
  cases h with
  | value serial key origin payload => cases hgiven
  | factory serial role key parameters make =>
      cases role with
      | primary | required => rfl
      | retained | transient => rcases hactivation with h | h <;> cases h

end Recipe

/-- After an opening all products are there that it is to make. -/
lemma Workshop.Opened.isConstructed {w : Workshop σ V} {m : Moment σ V} (h : w.Opened m)
    (hi : ∀ key r, w.book.recipe? key = some r → r.Issued) {r : Recipe σ V}
    (hr : r ∈ w.starters) : w.isConstructed m.shelf r.key = true := by
  obtain ⟨-, -, -, hcovers⟩ := h.gathers hi
  obtain ⟨q, hq, hgiven, hactivation⟩ := h.keyed.starts_iff.2 ⟨r, hr, rfl⟩
  have hkeeps : w.book.keeps r.key = true := by
    simp [Book.keeps, hq, (hi _ q hq).isKept hgiven hactivation]
  obtain ⟨i, hi⟩ := hcovers r.key ⟨q, hq, hgiven, hactivation⟩ r.key
    ⟨Book.produces_iff.2 ⟨q, hq⟩, .refl⟩ hkeeps
  obtain ⟨place, hplace, hproduct⟩ := Option.bind_eq_some_iff.1 hi
  simp [Workshop.isConstructed, hplace, hproduct]

/-! ### Creation -/

namespace Facade

variable {serial : ℕ} {c : Component σ V} {exports : List TypeKey} {world : σ} {m : Moment σ V}

/-- A creation that finds defects makes nothing. -/
lemma create_of_error {defects : List Defect}
    (h : (Book.of c (exports.map .of)).check = .error defects) (hm : m.Untouched world) :
    ((create serial c exports).run.run m).1 = .error (.refused (.incomplete defects)) ∧
      ((create serial c exports).run.run m).2.Untouched world := by
  rw [run_create, Workshop.run_opening_of_error (w := ⟨serial, .of c (exports.map .of)⟩) h]
  exact ⟨rfl, (hm.record _).append _⟩

/-- **A creation that finds no defects** comes to requests for the eager products in turn, but
for what it reports. -/
theorem create_getInTurn (hn : (c.recipes.map Recipe.key).Nodup)
    (h : (Book.of c (exports.map .of)).check = .ok ()) (hm : m.Untouched world) :
    let w : Workshop σ V := ⟨serial, .of c (exports.map .of)⟩
    let trial := w.getInTurn ((eager c.recipes).map Recipe.type) ⟨w.emptyShelf, 0, world, []⟩
    ((create serial c exports).run.run m).1 =
        (trial.1.mapError Workshop.obstacleOf).map (fun _ => ⟨exports, w⟩) ∧
      ((create serial c exports).run.run m).2.SameDeeds trial.2 := by
  intro w trial
  have hstart : Moment.SameDeeds
      { m.record (.noted (.creatingFacade c.name exports.length)) with shelf := w.emptyShelf }
      ⟨w.emptyShelf, 0, world, []⟩ := by
    refine ⟨rfl, hm.calls, hm.world, List.filter_eq_nil_iff.2 fun e he => ?_⟩
    obtain ⟨notice, rfl⟩ := (hm.record _).reports e he
    simp [Event.isDeed]
  obtain ⟨hanswer, hdeeds⟩ :=
    Workshop.opening_getInTurn (w := w) (Book.keyed_of _ _) h hstart
  rw [Workshop.starters_of hn serial] at hanswer hdeeds
  rw [run_create]
  rcases hopening : w.opening.run.run
      (m.record (.noted (.creatingFacade c.name exports.length))) with ⟨obstacle | _, m'⟩ <;>
    rw [hopening] at hanswer hdeeds
  · exact ⟨congrArg (Except.map fun _ => (⟨exports, w⟩ : Facade σ V)) hanswer, hdeeds⟩
  · exact ⟨congrArg (Except.map fun _ => (⟨exports, w⟩ : Facade σ V)) hanswer, hdeeds⟩

end Facade

/-- The request in turn that ends without a product is for one of the recipes. -/
lemma Workshop.exists_of_getInTurn {w : Workshop σ V} {rs : List (Recipe σ V)}
    {wanted : TypeRef} {halt : Halt} {m m' : Moment σ V}
    (h : w.getInTurn (rs.map Recipe.type) m = (.error (wanted, halt), m')) :
    ∃ front r rest m₁, rs = front ++ r :: rest ∧ r.type = wanted ∧
      w.getInTurn (front.map Recipe.type) m = (.ok (), m₁) ∧
      (w.getInstance r.type).runFrom m₁ = (.error halt, m') := by
  obtain ⟨before, after, m₁, hwanted, hfront, hlast⟩ := getInTurn_eq_error_iff.1 h
  obtain ⟨front, later, rfl, rfl, hlater⟩ := List.map_eq_append_iff.1 hwanted
  obtain ⟨r, rest, rfl, rfl, rfl⟩ := List.map_eq_cons_iff.1 hlater
  exact ⟨front, r, rest, m₁, rfl, rfl, hfront, hlast⟩

/-! ### The whole composition -/

namespace Facade

/-- **The end of a composition.** If insertions clash, it is refused for all their clashes;
otherwise, if the book has defects, it is refused for these; and in both cases nothing is
made. Otherwise it does, but for reports, what requests for the eager products do that are made
in turn, up to the first that ends without one. Either none does, and then all these products
are there; or what this one ends in is the end of the composition, under the name of the type
that was requested, and there it stays. -/
theorem composition (serial : ℕ) (name : String) (additions : List (Addition σ V))
    (exports : List TypeKey) (world : σ)
    (hi : ∀ e ∈ additions.flatMap Addition.entries, e.2.Issued) :
    let entries := additions.flatMap Addition.entries
    let w : Workshop σ V := ⟨serial, .of ⟨name, enlisted entries⟩ (exports.map .of)⟩
    let wanted := (eager (enlisted entries)).map Recipe.type
    let start : Moment σ V := ⟨w.emptyShelf, 0, world, []⟩
    let outcome := (compose serial (Draft.accumulate name additions) exports).runIn world
    (clashes entries ≠ [] →
      outcome.1 = .error (.refused (.component ⟨name, clashes entries⟩)) ∧
        outcome.2.Untouched world) ∧
    (clashes entries = [] → ∀ defects, w.book.check = .error defects →
      outcome.1 = .error (.refused (.incomplete defects)) ∧ outcome.2.Untouched world) ∧
    (clashes entries = [] → w.book.check = .ok () →
      outcome.2.SameDeeds (w.getInTurn wanted start).2 ∧
      ((outcome.1 = .ok ⟨exports, w⟩ ∧ (w.getInTurn wanted start).1 = .ok () ∧
          ∀ r ∈ eager (enlisted entries), w.isConstructed outcome.2.shelf r.key = true) ∨
        ∃ front r rest m halt, eager (enlisted entries) = front ++ r :: rest ∧
          w.getInTurn (front.map Recipe.type) start = (.ok (), m) ∧
          (w.getInstance r.type).runFrom m = (.error halt, (w.getInTurn wanted start).2) ∧
          halt ≠ .tooDeep ∧ outcome.1 = .error (.ofHalt r.type.name halt))) := by
  intro entries w wanted start outcome
  have hbuild := Draft.build_accumulate name additions
  have huntouched := untouched_built (Draft.accumulate name additions) world
  refine ⟨fun hclashes => ?_, fun hclashes defects hcheck => ?_, fun hclashes hcheck => ?_⟩
  · rw [if_neg hclashes] at hbuild
    have hend : outcome = _ := run_compose_of_error serial hbuild exports world
    rw [hend]
    exact ⟨rfl, huntouched⟩
  · rw [if_pos hclashes] at hbuild
    have hend : outcome = _ := run_compose_of_ok serial hbuild exports world
    rw [hend]
    exact create_of_error hcheck huntouched
  · rw [if_pos hclashes] at hbuild
    have hend : outcome = _ := run_compose_of_ok serial hbuild exports world
    have hissued (r) (hr : r ∈ enlisted entries) : r.Issued := by
      obtain ⟨-, e, he, rfl⟩ := mem_of_standing (mem_enlisted.1 hr)
      exact hi e he
    obtain ⟨hanswer, hdeeds⟩ : outcome.1 = ((w.getInTurn wanted start).1.mapError
        Workshop.obstacleOf).map (fun _ => ⟨exports, w⟩) ∧
        outcome.2.SameDeeds (w.getInTurn wanted start).2 := by
      rw [hend]
      exact create_getInTurn (nodup_enlisted entries) hcheck huntouched
    refine ⟨hdeeds, ?_⟩
    rcases htrial : w.getInTurn wanted start with ⟨⟨t, halt⟩ | _, n⟩ <;> rw [htrial] at hanswer
    · right
      obtain ⟨front, r, rest, m, hsplit, rfl, hfront, hlast⟩ :=
        Workshop.exists_of_getInTurn htrial
      have hacyclic : w.book.Acyclic :=
        ((Book.check_eq_ok_iff (Book.keyed_of _ _)).1 hcheck).acyclic
      have hcourse := Workshop.course_getInstance hacyclic r.type m
      rw [hlast] at hcourse
      exact ⟨front, r, rest, m, halt, hsplit, hfront, hlast,
        fun h => hcourse.ne_tooDeep (congrArg _ h), hanswer⟩
    · left
      have hopened : w.Opened outcome.2 :=
        opened_of_create (f := ⟨exports, w⟩) (fun r hr => (hissued r hr).wellTyped)
          (hend.symm.trans (Prod.ext hanswer rfl))
      refine ⟨hanswer, rfl, fun r hr => ?_⟩
      refine hopened.isConstructed (fun key r hr => hissued r (Book.mem_of_recipe?_of hr)) ?_
      rw [Workshop.starters_of (nodup_enlisted entries)]
      exact hr

/-- A history in which a required recipe is overridden by a primary one, whose factory needs a
product that can not be made, and another required recipe comes after it. -/
def mishap : List (Addition Unit Unit) :=
  [.recipe .adding (.ofFactory 0 .primary (.product 0) [] fun _ world => (⟨.made (), []⟩, world)),
    .recipe .adding (.ofFactory 1 .required (.product 1) []
      fun _ world => (⟨.made (), []⟩, world)),
    .recipe .adding (.ofFactory 2 .required (.product 2) []
      fun _ world => (⟨.made (), []⟩, world)),
    .recipe .overriding (.ofFactory 3 .primary (.product 1) [⟨.shared (.product 3), none⟩]
      fun _ world => (⟨.made (), []⟩, world)),
    .recipe .adding (.ofFactory 4 .retained (.product 3) []
      fun _ world => (⟨.failed "broken", []⟩, world))]

/-- The composition ends under the name of the overriding recipe's type, with the failure of
the factory below it, and the recipe after it is not reached. -/
theorem composition_mishap :
    let entries := mishap.flatMap Addition.entries
    let w : Workshop Unit Unit := ⟨0, .of ⟨"mishap", enlisted entries⟩ []⟩
    let start : Moment Unit Unit := ⟨w.emptyShelf, 0, (), []⟩
    let outcome := (compose 0 (Draft.accumulate "mishap" mishap) []).runIn ()
    (eager (enlisted entries)).map Recipe.key = [.product 0, .product 1, .product 2] ∧
    outcome.1 = .error (.refused (.activation (TypeKey.product 1).name
      (.factoryFailed (TypeKey.product 3).name "broken"))) ∧
    outcome.2.calls = 2 ∧
    ∃ front r rest m halt, eager (enlisted entries) = front ++ r :: rest ∧
      w.getInTurn (front.map Recipe.type) start = (.ok (), m) ∧
      (w.getInstance r.type).runFrom m = (.error halt,
        (w.getInTurn ((eager (enlisted entries)).map Recipe.type) start).2) ∧
      halt ≠ .tooDeep ∧ outcome.1 = .error (.ofHalt r.type.name halt) := by
  intro entries w start outcome
  have hissued : ∀ e ∈ entries, e.2.Issued := by
    simp only [entries, mishap, List.flatMap_cons, List.flatMap_nil, Addition.entries,
      List.cons_append, List.nil_append, List.forall_mem_cons]
    exact ⟨.factory .., .factory .., .factory .., .factory .., .factory .., by simp⟩
  obtain ⟨-, hcreated⟩ := (composition 0 "mishap" mishap [] () hissued).2.2 (by decide) (by rfl)
  have houtcome : outcome.1 = .error (.refused (.activation (TypeKey.product 1).name
      (.factoryFailed (TypeKey.product 3).name "broken"))) := by rfl
  refine ⟨by decide, houtcome, by rfl, hcreated.resolve_left fun h => ?_⟩
  cases houtcome.symm.trans h.1

end Facade

end Wiring
