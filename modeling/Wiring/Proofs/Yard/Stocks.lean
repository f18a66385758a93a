/-
Worlds that hold the stocks of several workshops.

* `Yard`: such a world, with the stocks under the numbers of the workshops;
* `Yard.request`, `Yard.opened`: a request to one of the workshops, and the opening of one;
  `Yard.request_answer`: **a query does what it does when the workshop is alone**;
  `Yard.stock?_request_of_ne`, `Yard.stock?_opened_of_ne`: **the stocks of all others stay as
  they are**;
* `Yard.Discreet`: books whose factories reach workshops only by their parameters;
  `Script.Conduct.stocks_factory`: so do scripted factories that ask no other workshop;
* `Script.World.request_eq`, `Script.Session.world_openWith`: scripts use their workshops in
  just this way.
-/
import Wiring.Proofs.Workshop.Outside
import Wiring.Proofs.Workshop.Turns
import Wiring.Script.Conduct
import Wiring.Script.Session

namespace Wiring

/-- A world that holds, besides anything else, the stocks of workshops by their numbers. A
workshop has a stock from its successful opening on. -/
class Yard (σ : Type) (V : outParam Type) where
  /-- The stocks. -/
  stocks : σ → Table ℕ (Stock V)
  /-- The world with other stocks. -/
  restock : σ → Table ℕ (Stock V) → σ
  /-- Other stocks are there when they were put there. -/
  stocks_restock : ∀ world table, stocks (restock world table) = table

/-- A world of stocks and nothing else. -/
instance (V : Type) : Yard (Table ℕ (Stock V)) V where
  stocks := id
  restock _ table := table
  stocks_restock _ _ := rfl

instance : Yard Script.World Script.Made where
  stocks := Script.World.stocks
  restock world table := { world with stocks := table }
  stocks_restock _ _ := rfl

namespace Yard

variable {σ V α : Type} [Yard σ V]

/-- The stock of the workshop with this number, if it is open. -/
def stock? (world : σ) (n : ℕ) : Option (Stock V) := (stocks world).get? n

/-- The world after a moment of the workshop with this number, whose stock is put back. -/
def after (n : ℕ) (m : Moment σ V) : σ := restock m.world ((stocks m.world).insert n m.stock)

/-- The moment in which the workshop with this number takes a request. -/
def moment (world : σ) (n : ℕ) : Moment σ V := ((stock? world n).getD ⟨.empty, 0⟩).moment world

/-- A request to a workshop: its stock is taken from the world and put back. -/
def request (w : Workshop σ V) (x : Request σ V α) (world : σ) : Except Halt α × σ :=
  ((x.runFrom (moment world w.serial)).1, after w.serial (x.runFrom (moment world w.serial)).2)

/-- The opening of the workshop with this number, which has a stock if it succeeds. If not,
nothing is left of the workshop. -/
def opened (n : ℕ) (x : Opening σ V α) (world : σ) : Except Obstacle α × σ :=
  match x.runIn world with
  | (.ok a, m) => (.ok a, after n m)
  | (.error obstacle, m) => (.error obstacle, m.world)

variable {world : σ} {n k : ℕ} {m : Moment σ V}

lemma opened_of_ok {x : Opening σ V α} {a : α} (h : x.runIn world = (.ok a, m)) :
    opened n x world = (.ok a, after n m) := by
  rw [opened, h]

lemma opened_of_error {x : Opening σ V α} {obstacle : Obstacle}
    (h : x.runIn world = (.error obstacle, m)) : opened n x world = (.error obstacle, m.world) := by
  rw [opened, h]

lemma exists_of_opened_eq_ok {x : Opening σ V α} {a : α} {world' : σ}
    (h : opened n x world = (.ok a, world')) :
    ∃ m, x.runIn world = (.ok a, m) ∧ world' = after n m := by
  rcases hx : x.runIn world with ⟨obstacle | b, m⟩
  · rw [opened_of_error hx] at h
    cases congrArg Prod.fst h
  · rw [opened_of_ok hx] at h
    obtain ⟨hresult, rfl⟩ := Prod.mk.inj h
    obtain rfl := Except.ok.inj hresult
    exact ⟨m, rfl, rfl⟩

lemma stock?_restock (world : σ) (table : Table ℕ (Stock V)) (n : ℕ) :
    stock? (restock world table) n = table.get? n := by
  rw [stock?, stocks_restock]

/-- The stock that was put back is there. -/
@[simp] lemma stock?_after_self (n : ℕ) (m : Moment σ V) :
    stock? (after n m) n = some m.stock := by
  rw [after, stock?_restock, Table.get?_insert_self]

/-- No other stock is touched when one is put back. -/
lemma stock?_after_of_ne (h : k ≠ n) (m : Moment σ V) :
    stock? (after n m) k = stock? m.world k := by
  rw [after, stock?_restock, Table.get?_insert_of_ne _ h]
  rfl

lemma moment_of_stock? {s : Stock V} (h : stock? world n = some s) :
    moment world n = s.moment world := by
  rw [moment, h]
  rfl

/-! ### A workshop in a yard and alone -/

variable {w : Workshop σ V}

/-- **A query to an open workshop does what it does when the workshop is alone.** In the yard
the request starts without a record, while alone there is one of all that happened before. -/
lemma request_answer (hb : w.book.Keyed) (ha : w.book.Acyclic)
    (hs : stock? world w.serial = some m.stock) (q : Query) :
    request w (w.answer q) world =
      (((w.answer q).runFrom { m with world := world }).1,
        after w.serial ((w.answer q).runFrom { m with world := world }).2) := by
  have hstart : { m with world := world } = (moment world w.serial).after m.trace := by
    simp [moment_of_stock? hs, Stock.moment, Moment.stock, Moment.after]
  rw [hstart, Workshop.runFrom_answer_after hb ha]
  rfl

/-! ### Workshops that keep to themselves -/

/-- The factories of the book reach workshops only by their parameters: none of them changes
any stock. -/
def Discreet (b : Book σ V) : Prop := b.Preserves (stocks : σ → Table ℕ (Stock V))

/-- A query to one workshop leaves the stocks of the others as they are. -/
lemma stock?_request_of_ne (ha : w.book.Acyclic) (hd : Discreet w.book) (h : k ≠ w.serial)
    (q : Query) : stock? (request w (w.answer q) world).2 k = stock? world k := by
  have hpreserves : stocks ((w.answer q).runFrom (moment world w.serial)).2.world = stocks world :=
    Workshop.answer_preserves ha hd q
  rw [request, stock?_after_of_ne h, stock?, hpreserves]
  rfl

/-- So does the opening of a workshop, even if it fails. -/
lemma stock?_opened_of_ne (hb : w.book.Keyed) (hd : Discreet w.book) (h : k ≠ w.serial) :
    stock? (opened w.serial w.opening world).2 k = stock? world k := by
  have hpreserves : stocks (w.opening.runIn world).2.world = stocks world :=
    Workshop.opening_preserves hb hd _
  rcases ho : w.opening.runIn world with ⟨obstacle | _, m⟩ <;> rw [ho] at hpreserves
  · rw [opened_of_error ho, stock?, hpreserves, stock?]
  · rw [opened_of_ok ho, stock?_after_of_ne h, stock?, hpreserves, stock?]

/-- An opening that fails leaves all stocks as they are. -/
lemma stocks_opened_of_error (hb : w.book.Keyed) (hd : Discreet w.book) {obstacle : Obstacle}
    {m : Moment σ V} (h : w.opening.runIn world = (.error obstacle, m)) :
    stocks (opened w.serial w.opening world).2 = stocks world := by
  have hpreserves : stocks (w.opening.runIn world).2.world = stocks world :=
    Workshop.opening_preserves hb hd _
  rw [h] at hpreserves
  rw [opened_of_error h, hpreserves]

end Yard

/-! ### Scripts -/

namespace Script

/-- Scripts make their requests to workshops in just this way. -/
lemma World.request_eq {α : Type} (world : World) (w : Workshop World Made)
    (x : Request World Made α) :
    world.request w x = ((Yard.request w x world).1,
      (x.runFrom (Yard.moment world w.serial)).2.notices, (Yard.request w x world).2) := rfl

/-- Scripts open their workshops in just this way. -/
lemma Session.world_openWith {α : Type} (serial : ℕ) (x : Opening World Made α) (s : Session) :
    ∃ result, Session.openWith serial x (fun _ => pure ()) s = .ok (result,
      { s with
        world := (Yard.opened serial x s.world).2
        notices := s.notices ++ (x.runIn s.world).2.notices }) := by
  rcases h : x.runIn s.world with ⟨obstacle | a, m⟩
  · refine ⟨.error (.ofObstacle obstacle), ?_⟩
    rw [Yard.opened_of_error h]
    simp only [openWith, bind, StateT.bind, Except.bind, get, getThe, MonadStateOf.get, StateT.get,
      pure, Except.pure, h]
    rfl
  · refine ⟨.ok .nothing, ?_⟩
    rw [Yard.opened_of_ok h]
    simp only [openWith, bind, StateT.bind, Except.bind, get, getThe, MonadStateOf.get, StateT.get,
      pure, Except.pure, h]
    rfl

lemma World.stocks_newSettings (w : World) (held : Settings Made) (pairs : List (ℕ × String)) :
    (w.newSettings held pairs).2.2.stocks = w.stocks := by
  induction pairs generalizing w held with
  | nil => rfl
  | cons pair rest ih =>
      obtain ⟨index, label⟩ := pair
      rw [newSettings]
      dsimp only
      rcases held.add (w.newSetting index label).1 with e | held'
      · rfl
      · exact ih (w.newSetting index label).2 held'

/-- A scripted factory that asks no other workshop changes no stock. -/
lemma Conduct.stocks_factory {c : Conduct} (hvia : c.via = none) (recipe : ℕ) (key : TypeKey)
    (arguments : List (Argument Made)) (world : World) :
    (c.factory recipe key arguments world).2.stocks = world.stocks := by
  have hproduce (parts : List Part) (w : World) : (c.produce parts key w).2.stocks = w.stocks := by
    cases key with
    | product index => rfl
    | settings =>
        have hnew := w.stocks_newSettings .empty c.settings
        rw [produce]
        rcases hmade : w.newSettings .empty c.settings with ⟨e | held, notices, w'⟩ <;>
          rw [hmade] at hnew <;> exact hnew
  rw [factory, hvia]
  simp only [act]
  split
  · exact hproduce _ _
  · rfl
  · rfl

end Script

end Wiring
