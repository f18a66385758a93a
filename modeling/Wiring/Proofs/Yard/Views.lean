/-
Facades as views of one workshop.

* `Use`, `Views.run`: what is done with a facade and all that are derived from it: they are copied
  and narrowed, and products are requested through them or from the workshop behind them;
* `Views.query?`, `Views.queries`: the queries that come of this;
* `Workshop.answerAll`: the answers to queries in turn; `Workshop.run_asking`: **the workshop
  answers them as it does when it is alone**;
* `Views.Derived`: facades that show no more than the first one, of the same workshop;
  `Views.Derived.derive`: whatever is derived from them is like this, too;
* `Views.Derived.run_eq`: **whatever way the queries take, they come to the same queries to the
  one workshop**;
* `Facade.Founded`: facades whose exports all have recipes;
  `Facade.Founded.lacksOwnSetting`: what it takes for such a facade to lack a type that it shows;
* `Facade.exists_opening`: what a facade comes of;
* `Facade.views`: **all facades derived from one are views of one workshop**;
  `Facade.views_alone`: **they are served as the workshop serves when it is alone**.
-/
import Wiring.Proofs.Facade.Composition
import Wiring.Proofs.Yard.Stocks

namespace Wiring

open Yard

variable {σ V : Type}

/-! ### What is done with facades -/

/-- Something that is done with facades, which are numbered in the order in which they come
about. -/
inductive Use where
  /-- A facade is copied. -/
  | copy (i : ℕ)
  /-- A facade is derived from another one that shows some types of the other one. -/
  | narrow (i : ℕ) (exports : List TypeKey)
  /-- A product is requested through a facade. -/
  | get (i : ℕ) (key : TypeKey)
  /-- The workshop behind a facade is asked for something. -/
  | behind (i : ℕ) (q : Query)
  deriving DecidableEq, Repr

/-- Facades in the order in which they came about. -/
abbrev Views (σ V : Type) := List (Facade σ V)

namespace Views

/-- The facades after a use, with the one that it brings about, if any. -/
def derive (fs : Views σ V) : Use → Views σ V
  | .copy i => fs ++ fs[i]?.toList
  | .narrow i exports => fs ++ (fs[i]?.bind (·.narrow exports)).toList
  | _ => fs

/-- The query that comes of a use, if any does: through a facade only types are requested that
it shows. -/
def query? (fs : Views σ V) : Use → Option Query
  | .get i key => if fs[i]?.any (·.shows key) then some (.get key) else none
  | .behind i q => if fs[i]?.isSome then some q else none
  | _ => none

/-- The queries that come of some uses in turn. -/
def queries : Views σ V → List Use → List Query
  | _, [] => []
  | fs, u :: rest => (fs.query? u).toList ++ (fs.derive u).queries rest

variable [Yard σ V]

/-- The request that is made through a facade, if any is, and the world after it. -/
def serve (fs : Views σ V) (u : Use) (world : σ) : Option (Except Halt (Argument V)) × σ :=
  match u with
  | .get i key =>
    match fs[i]?.bind fun f => (f.get key).map fun x => (f.workshop, x) with
    | some (w, x) => (request w (.shared <$> x) world).map some id
    | none => (none, world)
  | .behind i q =>
    match fs[i]? with
    | some f => (request f.workshop (f.workshop.answer q) world).map some id
    | none => (none, world)
  | _ => (none, world)

/-- The answers that come of some uses in turn, the facades there are then, and the world after
it all. -/
def run : Views σ V → List Use → σ → List (Except Halt (Argument V)) × Views σ V × σ
  | fs, [], world => ([], fs, world)
  | fs, u :: rest, world =>
    ((fs.serve u world).1.toList ++ ((fs.derive u).run rest (fs.serve u world).2).1,
      ((fs.derive u).run rest (fs.serve u world).2).2)

end Views

/-- The answers to some queries in turn to one workshop, and the world after them. -/
def Workshop.answerAll [Yard σ V] (w : Workshop σ V) :
    List Query → σ → List (Except Halt (Argument V)) × σ
  | [], world => ([], world)
  | q :: rest, world =>
    ((request w (w.answer q) world).1 :: (w.answerAll rest (request w (w.answer q) world).2).1,
      (w.answerAll rest (request w (w.answer q) world).2).2)

/-! ### The one workshop alone -/

namespace Workshop

variable [Yard σ V] {w : Workshop σ V} {m : Moment σ V} {world : σ}

/-- Some queries in turn as acts of the workshop alone: before each of them the world is as the
requests before have left it. -/
def asking (w : Workshop σ V) : List Query → σ → List (Act σ)
  | [], _ => []
  | q :: rest, world =>
    .elsewhere world :: .ask q :: w.asking rest (request w (w.answer q) world).2

/-- **Queries in turn are answered as the workshop answers them when it is alone**, and leave
the stock that it has then. -/
theorem run_asking (hb : w.book.Keyed) (ha : w.book.Acyclic)
    (hs : stock? world w.serial = some m.stock) (queries : List Query) :
    (w.run (w.asking queries world) m).1 =
      (w.answerAll queries world).1.flatMap (fun answer => [.silent, .answered answer]) ∧
    stock? (w.answerAll queries world).2 w.serial =
      some (w.run (w.asking queries world) m).2.stock := by
  induction queries generalizing world m with
  | nil => exact ⟨rfl, hs⟩
  | cons q rest ih =>
      have hrequest := request_answer hb ha hs q
      have hnext : stock? (request w (w.answer q) world).2 w.serial =
          some ((w.answer q).runFrom { m with world := world }).2.stock := by
        rw [hrequest]
        exact stock?_after_self ..
      obtain ⟨hreplies, hstock⟩ := ih hnext
      have hanswer : (request w (w.answer q) world).1 =
          ((w.answer q).runFrom { m with world := world }).1 := congrArg Prod.fst hrequest
      refine ⟨?_, hstock⟩
      rw [answerAll, List.flatMap_cons, ← hreplies, hanswer]
      rfl

end Workshop

/-! ### Derived facades -/

namespace Views

/-- The facades are views of the same workshop as `root`, and show no more. -/
def Derived (root : Facade σ V) (fs : Views σ V) : Prop :=
  ∀ f ∈ fs, f.workshop = root.workshop ∧ f.exports ⊆ root.exports

variable {root : Facade σ V} {fs : Views σ V}

lemma derived_self (root : Facade σ V) : Derived root [root] :=
  List.forall_mem_singleton.2 ⟨rfl, fun _ hk => hk⟩

lemma Derived.append (h : Derived root fs) {f? : Option (Facade σ V)}
    (hf : ∀ f, f? = some f → f.workshop = root.workshop ∧ f.exports ⊆ root.exports) :
    Derived root (fs ++ f?.toList) := by
  intro f hmem
  rcases List.mem_append.1 hmem with hmem | hmem
  · exact h f hmem
  · exact hf f (Option.mem_toList.1 hmem)

/-- **What is derived from a view of a workshop is one, too**, and shows no more. -/
lemma Derived.derive (h : Derived root fs) (u : Use) : Derived root (fs.derive u) := by
  cases u with
  | copy i => exact h.append fun f hf => h f (List.mem_of_getElem? hf)
  | narrow i exports =>
      refine h.append fun f hf => ?_
      obtain ⟨g, hg, hnarrow⟩ := Option.bind_eq_some_iff.1 hf
      obtain ⟨hworkshop, hexports⟩ := h g (List.mem_of_getElem? hg)
      obtain ⟨hall, hview⟩ := Option.ite_none_right_eq_some.1 hnarrow
      obtain rfl := Option.some.inj hview
      refine ⟨hworkshop, fun key hkey => hexports ?_⟩
      simpa [Facade.shows] using List.all_eq_true.1 hall key hkey
  | get i key => exact h
  | behind i q => exact h

variable [Yard σ V]

/-- One use comes to its query to the one workshop, if it comes to any. -/
lemma Derived.serve_eq (h : Derived root fs) (u : Use) (world : σ) :
    fs.serve u world =
      match fs.query? u with
      | some q => (request root.workshop (root.workshop.answer q) world).map some id
      | none => (none, world) := by
  cases u with
  | copy i => rfl
  | narrow i exports => rfl
  | get i key =>
      rw [serve, query?]
      cases hi : fs[i]? with
      | none => rfl
      | some f =>
          obtain ⟨hworkshop, -⟩ := h f (List.mem_of_getElem? hi)
          cases hshows : f.shows key <;> simp [Facade.get, hshows, hworkshop, Workshop.answer]
  | behind i q =>
      rw [serve, query?]
      cases hi : fs[i]? with
      | none => rfl
      | some f =>
          obtain ⟨hworkshop, -⟩ := h f (List.mem_of_getElem? hi)
          simp [hworkshop]

/-- **Whatever way the queries take, they come to the same queries to the one workshop.** -/
theorem Derived.run_eq (h : Derived root fs) (uses : List Use) (world : σ) :
    ((fs.run uses world).1, (fs.run uses world).2.2) =
      root.workshop.answerAll (fs.queries uses) world := by
  induction uses generalizing fs world with
  | nil => rfl
  | cons u rest ih =>
      have hrest := ih (h.derive u) (fs.serve u world).2
      rw [run, queries]
      rw [h.serve_eq u world] at hrest ⊢
      cases hq : fs.query? u with
      | none =>
          rw [hq] at hrest
          exact hrest
      | some q =>
          rw [hq] at hrest
          obtain ⟨hanswers, hworld⟩ := Prod.mk.inj hrest
          exact Prod.ext (congrArg (_ :: ·) hanswers) hworld

lemma Derived.run (h : Derived root fs) (uses : List Use) (world : σ) :
    Derived root (fs.run uses world).2.1 := by
  induction uses generalizing fs world with
  | nil => exact h
  | cons u rest ih => exact ih (h.derive u) (fs.serve u world).2

end Views

/-! ### What a view can lack -/

/-- A request for `key` at the moment `m` breaks down at a parameter, of a recipe that `key`
leads to, which needs a configuration value of the very type `key`, because the holder that is
obtained for it does not have any. -/
def Workshop.LacksOwnSetting (w : Workshop σ V) (key : TypeKey) (m m' : Moment σ V) : Prop :=
  ∃ index path r p holder, key = .product index ∧ p.need = .setting index ∧
    Workshop.Breakdown w [] (.of key) m path (.unfit r p holder)
      (.failed (.missing key.name)) m' ∧
    w.LacksSetting key key.name r p holder

namespace Facade

/-- A view of a workshop with a complete book, which has recipes for all types that are
shown. -/
structure Founded (f : Facade σ V) : Prop where
  keyed : f.workshop.book.Keyed
  complete : f.workshop.book.Complete
  exported : ∀ key ∈ f.exports, f.workshop.book.produces key

variable {f : Facade σ V} {serial : ℕ} {exports : List TypeKey}

/-- A facade that was created is a view of a workshop that was opened. -/
lemma opening_of_create {c : Component σ V} {m m' : Moment σ V}
    (h : (create serial c exports).run.run m = (.ok f, m')) :
    f = ⟨exports, ⟨serial, .of c (exports.map .of)⟩⟩ ∧
      f.workshop.opening.run.run (m.record (.noted (.creatingFacade c.name exports.length))) =
        (.ok (), m') := by
  rw [run_create] at h
  rcases ho : (Workshop.mk serial (Book.of c (exports.map .of))).opening.run.run
      (m.record (.noted (.creatingFacade c.name exports.length))) with ⟨obstacle | _, n⟩ <;>
    rw [ho] at h
  · cases congrArg Prod.fst h
  · obtain ⟨hf, rfl⟩ := Prod.mk.inj h
    obtain rfl := Except.ok.inj hf
    exact ⟨rfl, ho⟩

/-- So is one that was composed, after nothing but reports; the stock of the workshop is then in
the world. -/
lemma exists_opening [Yard σ V] {start world : σ}
    (h : (∃ c, opened serial (create serial c exports) start = (.ok f, world)) ∨
      ∃ d, opened serial (compose serial d exports) start = (.ok f, world)) :
    ∃ (c : Component σ V) (notices : List Notice) (m : Moment σ V),
      f = ⟨exports, ⟨serial, .of c (exports.map .of)⟩⟩ ∧
      f.workshop.opening.run.run ⟨.empty, 0, start, notices.map .noted⟩ = (.ok (), m) ∧
      stock? world serial = some m.stock := by
  rcases h with ⟨c, hc⟩ | ⟨d, hd⟩
  · obtain ⟨m, hm, rfl⟩ := exists_of_opened_eq_ok hc
    obtain ⟨hf, hopening⟩ := opening_of_create hm
    exact ⟨c, [.creatingFacade c.name exports.length], m, hf, hopening, stock?_after_self ..⟩
  · obtain ⟨m, hm, rfl⟩ := exists_of_opened_eq_ok hd
    cases hbuild : d.build with
    | error conflicts =>
        rw [run_compose_of_error serial hbuild] at hm
        cases congrArg Prod.fst hm
    | ok c =>
        rw [run_compose_of_ok serial hbuild] at hm
        obtain ⟨hf, hopening⟩ := opening_of_create hm
        refine ⟨c, d.buildNotices ++ [.creatingFacade c.name exports.length], m, hf, ?_,
          stock?_after_self ..⟩
        rw [List.map_append]
        exact hopening

/-- Every type that a facade shows when its workshop was opened has a recipe. -/
lemma founded_of_opening {c : Component σ V} {m m' : Moment σ V}
    (hf : f = ⟨exports, ⟨serial, .of c (exports.map .of)⟩⟩)
    (h : f.workshop.opening.run.run m = (.ok (), m')) : f.Founded := by
  subst hf
  have hkeyed := Book.keyed_of c (exports.map .of)
  have hcomplete := (Book.check_eq_ok_iff hkeyed).1 (Workshop.run_opening_eq_ok h).1
  exact ⟨hkeyed, hcomplete, fun key hkey => hcomplete.exported (.of key) (List.mem_map_of_mem hkey)⟩

/-- So is every view of the same workshop that shows no more. -/
lemma Founded.view {root : Facade σ V} (hroot : root.Founded)
    (hworkshop : f.workshop = root.workshop) (hexports : f.exports ⊆ root.exports) :
    f.Founded where
  keyed := hworkshop ▸ hroot.keyed
  complete := hworkshop ▸ hroot.complete
  exported key hkey := hworkshop ▸ hroot.exported key (hexports hkey)

/-- **A view lacks a type that it shows** only if some recipe needs a configuration value of
this type. -/
lemma Founded.lacksOwnSetting (hf : f.Founded) {key : TypeKey} {x : Request σ V (Instance V)}
    (hx : f.get key = some x) {m m' : Moment σ V}
    (h : x.runFrom m = (.error (.failed (.missing key.name)), m')) :
    f.workshop.LacksOwnSetting key m m' := by
  obtain ⟨hshows, hget⟩ := Option.ite_none_right_eq_some.1 hx
  obtain rfl := Option.some.inj hget
  have hkey : key ∈ f.exports := by simpa [shows] using hshows
  have hanswer : (f.workshop.answer (.get key)).runFrom m =
      (.error (.failed (.missing key.name)), m') := by
    rw [Workshop.answer, Request.runFrom_map, h]
  rw [Workshop.runFrom_answer rfl] at hanswer
  obtain ⟨hreceived, rfl⟩ := Prod.mk.inj hanswer
  have hgiven := Query.given_of_receive_eq_missing rfl hreceived
  obtain ⟨path, cause, hbreaks⟩ := Workshop.exists_breakdown hf.keyed hf.complete.acyclic
    Book.isStack_nil (Book.isNext_nil key) (Prod.ext hgiven rfl)
  obtain ⟨r, p, holder, rfl, hlacks⟩ :=
    hbreaks.exists_lacksSetting hf.keyed hf.complete (hf.exported key hkey) rfl
  obtain ⟨index, held, hneed, hname, -⟩ := hlacks.setting
  exact ⟨index, path, r, p, holder, TypeKey.eq_of_name_eq hname, hneed, hbreaks, hlacks⟩

end Facade

/-! ### Views of one workshop -/

namespace Facade

variable [Yard σ V]

/-- **Facades are views of one workshop.** Take a facade that was created or composed, and
whatever is done with it and with the facades that are derived from it. All answers, and the
world at the end, in which the workshop keeps its products, are the same as if all queries had
been made to the one workshop. All facades are views of this workshop; whatever they show, the
first one shows too, and the workshop has a recipe for it. So a request for a type through one
of them, at any moment, lacks this very type only if some recipe that the type leads to needs a
configuration value of this type which its holder does not have. -/
theorem views {root : Facade σ V} {serial : ℕ} {exports : List TypeKey} {start world : σ}
    (hroot : (∃ c, opened serial (create serial c exports) start = (.ok root, world)) ∨
      ∃ d, opened serial (compose serial d exports) start = (.ok root, world))
    (uses : List Use) :
    let fs := (Views.run [root] uses world).2.1
    ((Views.run [root] uses world).1, (Views.run [root] uses world).2.2) =
      root.workshop.answerAll (Views.queries [root] uses) world ∧
    (∀ f ∈ fs, f.workshop = root.workshop ∧
      ∀ key ∈ f.exports, key ∈ root.exports ∧ root.workshop.book.produces key) ∧
    ∀ f ∈ fs, ∀ key x m m', f.get key = some x →
      x.runFrom m = (.error (.failed (.missing key.name)), m') →
      root.workshop.LacksOwnSetting key m m' := by
  intro fs
  obtain ⟨c, notices, m, hcreated, hopening, -⟩ := exists_opening hroot
  have hfounded := founded_of_opening hcreated hopening
  have hself := Views.derived_self root
  have hderived : Views.Derived root fs := hself.run uses world
  refine ⟨hself.run_eq uses world, fun f hf => ?_, fun f hf key x m m' hx hmissing => ?_⟩
  · obtain ⟨hworkshop, hexports⟩ := hderived f hf
    exact ⟨hworkshop, fun key hkey => ⟨hexports hkey, hfounded.exported key (hexports hkey)⟩⟩
  · obtain ⟨hworkshop, hexports⟩ := hderived f hf
    exact hworkshop ▸ (hfounded.view hworkshop hexports).lacksOwnSetting hx hmissing

/-- **Views of one workshop are served as the workshop serves when it is alone.** Take a facade
that was created or composed, and whatever is done with it and with the facades that are derived
from it. The opening left the workshop at a moment when nothing was under construction. From there
on the queries are answered as the workshop alone answers them, and its stock at the end is the
one that it has then. If the recipes are well typed, all that holds of the moments that are
reached holds of the end. -/
theorem views_alone {root : Facade σ V} {serial : ℕ} {exports : List TypeKey} {start world : σ}
    (hroot : (∃ c, opened serial (create serial c exports) start = (.ok root, world)) ∨
      ∃ d, opened serial (compose serial d exports) start = (.ok root, world))
    (uses : List Use) :
    let acts := root.workshop.asking (Views.queries [root] uses) world
    ∃ m, root.workshop.Rests m ∧ stock? world root.workshop.serial = some m.stock ∧
      (root.workshop.run acts m).1 =
        (Views.run [root] uses world).1.flatMap (fun answer => [.silent, .answered answer]) ∧
      root.workshop.Rests (root.workshop.run acts m).2 ∧
      stock? (Views.run [root] uses world).2.2 root.workshop.serial =
        some (root.workshop.run acts m).2.stock ∧
      ((∃ (c : Component σ V) (exports : List TypeRef), root.workshop.book = .of c exports ∧
        ∀ r ∈ c.recipes, r.WellTyped) → root.workshop.Reached (root.workshop.run acts m).2) := by
  intro acts
  obtain ⟨c, notices, m, rfl, hopening, hstock⟩ := exists_opening hroot
  have hfounded := founded_of_opening rfl hopening
  have hkeyed := hfounded.keyed
  have hacyclic := hfounded.complete.acyclic
  have hrests := Workshop.rests_opening hkeyed (Workshop.run_opening_eq_ok hopening).1 start notices
  rw [hopening] at hrests
  obtain ⟨hanswers, hworld⟩ := Prod.mk.inj ((Views.derived_self _).run_eq uses world)
  obtain ⟨hreplies, hend⟩ := Workshop.run_asking hkeyed hacyclic hstock (Views.queries [_] uses)
  rw [← hanswers] at hreplies
  rw [← hworld] at hend
  exact ⟨m, hrests, hstock, hreplies, hrests.run hkeyed hacyclic acts, hend,
    fun hcomposed => Workshop.Opened.reached ⟨hcomposed, start, notices, hopening⟩ acts⟩

/-- A component with a singleton, a product that needs a configuration value of its own type, and
a holder without values. -/
def panorama : Component (Table ℕ (Stock Unit)) Unit := ⟨"panorama",
  [.ofFactory 0 .retained (.product 0) [] fun _ world => (⟨.made (), []⟩, world),
    .ofFactory 1 .retained (.product 1) [⟨.setting 1, none⟩]
      fun _ world => (⟨.made (), []⟩, world),
    .ofValue 2 .settings (.given 0) .empty]⟩

/-- A facade of both products. -/
def outlook : Facade (Table ℕ (Stock Unit)) Unit :=
  ⟨[.product 0, .product 1], ⟨0, .of panorama [.of (.product 0), .of (.product 1)]⟩⟩

/-- The facade is narrowed to the singleton and the narrow one copied; the singleton is requested
through the copy, then the other product through the narrow one, which does not show it, and
behind it, and last the singleton through the first facade. -/
def visits : List Use :=
  [.narrow 0 [.product 0], .copy 1, .get 2 (.product 0), .get 1 (.product 1),
    .behind 1 (.get (.product 1)), .get 0 (.product 0)]

/-- The queries come to the one workshop: the other product lacks its own type, and the singleton
is made once. No factory was called before, one call is all there was at the end, and what it made
is still kept. -/
theorem views_outlook :
    let world := (opened 0 (create 0 panorama outlook.exports) .empty).2
    let singleton : Instance Unit := ⟨.of (.product 0), .built 0 0, .product 0 ()⟩
    let queries : List Query := [.get (.product 0), .get (.product 1), .get (.product 0)]
    (Views.run [outlook] visits world).1 = [.ok (.shared singleton),
      .error (.failed (.missing (TypeKey.product 1).name)), .ok (.shared singleton)] ∧
    ((Views.run [outlook] visits world).1, (Views.run [outlook] visits world).2.2) =
      outlook.workshop.answerAll queries world ∧
    (Views.run [outlook] visits world).2.1.map Facade.exports =
      [[.product 0, .product 1], [.product 0], [.product 0]] ∧
    (stock? world 0).map Stock.calls = some 0 ∧
    (stock? (Views.run [outlook] visits world).2.2 0).map (fun s =>
      (s.calls, s.shelf.product? (.product 0))) = some (1, some singleton) ∧
    ∃ m', outlook.workshop.LacksOwnSetting (.product 1) (moment world 0) m' := by
  intro world singleton queries
  have hroot : opened 0 (create 0 panorama outlook.exports) .empty = (.ok outlook, world) := rfl
  obtain ⟨hrun, -, hlacks⟩ := views (.inl ⟨panorama, hroot⟩) visits
  have hmem : outlook ∈ (Views.run [outlook] visits world).2.1 := List.mem_cons_self ..
  have hmissing := hlacks outlook hmem (.product 1) _ (moment world 0) _ rfl rfl
  exact ⟨by decide, hrun, by decide, rfl, by decide, _, hmissing⟩

end Facade

end Wiring
