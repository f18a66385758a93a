/-
Several workshops in one yard, which may share recipes and whole books.

* `Crew`, `Deed`, `Crew.perform`, `Crew.run`: the books of the workshops, and what is done in the
  yard: workshops are opened and asked for something in any order;
* `Crew.Accounts`: the stock of every workshop that is open is one that the workshop comes to
  when it is alone;
* `Crew.Accounts.stock?_perform`: **what is done to one workshop leaves the stocks of all others
  as they are**; `Crew.Accounts.perform`: every deed keeps the accounts;
* `Workshop.Reached.built_of_product?`: products on a shelf were made by the workshop itself;
  `Workshop.Reached.same_eq_false`: so those of two workshops are never the same;
* `Workshop.Reached.delivers_shared`: existing values are delivered as they are;
* `Crew.isolation`: **workshops share no products but the existing values of their recipes**.
-/
import Wiring.Proofs.Workshop.Delivery
import Wiring.Proofs.Yard.Stocks

namespace Wiring

open Yard

variable {σ V : Type}

/-! ### What is done in a yard -/

/-- Something that is done in a yard. -/
inductive Deed (σ : Type) where
  /-- The workshop with this number is opened. -/
  | opens (n : ℕ)
  /-- It is asked for something. -/
  | asks (n : ℕ) (q : Query)
  /-- Somebody looks whether it has the product of a type. -/
  | looks (n : ℕ) (key : TypeKey)
  /-- The world outside all workshops changes. -/
  | elsewhere (world : σ)
  deriving DecidableEq, Repr

/-- The workshop that something is done to. -/
def Deed.workshop? : Deed σ → Option ℕ
  | .opens n => some n
  | .asks n _ => some n
  | .looks n _ => some n
  | .elsewhere _ => none

/-- What comes of a deed. -/
inductive Echo (V : Type) where
  /-- An opening ended like this. -/
  | opened (outcome : Except Obstacle Unit)
  /-- A workshop replied. -/
  | replied (reply : Reply V)

/-- The books that the workshops of a yard work by. -/
abbrev Crew (σ V : Type) := ℕ → Book σ V

namespace Crew

/-- The workshop with this number. -/
def workshop (crew : Crew σ V) (n : ℕ) : Workshop σ V := ⟨n, crew n⟩

variable [Yard σ V]

/-- What comes of a deed, and the world after it. A workshop that is open is not opened again,
and one that is not open does nothing. -/
def perform (crew : Crew σ V) : Deed σ → σ → Echo V × σ
  | .opens n, world =>
    match stock? world n with
    | some _ => (.replied .silent, world)
    | none => ((opened n (crew.workshop n).opening world).map .opened id)
  | .asks n q, world =>
    match stock? world n with
    | some _ =>
      (request (crew.workshop n) ((crew.workshop n).answer q) world).map
        (fun answer => .replied (.answered answer)) id
    | none => (.replied .silent, world)
  | .looks n key, world =>
    match stock? world n with
    | some s => (.replied (.shown ((crew.workshop n).isConstructed s.shelf key)), world)
    | none => (.replied .silent, world)
  | .elsewhere changed, world => (.replied .silent, restock changed (stocks world))

/-- What comes of some deeds in turn, and the world after them. -/
def run (crew : Crew σ V) : List (Deed σ) → σ → List (Echo V) × σ
  | [], world => ([], world)
  | d :: rest, world =>
    ((crew.perform d world).1 :: (crew.run rest (crew.perform d world).2).1,
      (crew.run rest (crew.perform d world).2).2)

/-- The books are those of components whose recipes are well typed, and whose factories reach
workshops only by their parameters. -/
structure Sound (crew : Crew σ V) : Prop where
  composed : ∀ n, ∃ (c : Component σ V) (exports : List TypeRef),
    crew n = .of c exports ∧ ∀ r ∈ c.recipes, r.WellTyped
  discreet : ∀ n, Discreet (crew n)

/-- The stock of each workshop that is open is that of a moment which the workshop reaches when
it is alone, in a world that changes. -/
def Accounts (crew : Crew σ V) (world : σ) : Prop :=
  ∀ n s, stock? world n = some s → ∃ m, (crew.workshop n).Reached m ∧ m.stock = s

variable {crew : Crew σ V} {world : σ} {n k : ℕ}

lemma Sound.keyed (hc : crew.Sound) (n : ℕ) : (crew.workshop n).book.Keyed := by
  obtain ⟨c, exports, hbook, -⟩ := hc.composed n
  change (crew n).Keyed
  rw [hbook]
  exact Book.keyed_of c exports

/-- Before anything is done no workshop is open. -/
lemma accounts_of_empty (h : stocks world = .empty) : crew.Accounts world := by
  intro n s hs
  rw [stock?, h] at hs
  cases hs

/-! ### One deed -/

/-- A query to an open workshop does what it does when the workshop is alone. -/
lemma Accounts.request (h : crew.Accounts world) {s : Stock V} (hs : stock? world n = some s)
    (q : Query) : ∃ m, (crew.workshop n).Reached m ∧
      stock? (Yard.request (crew.workshop n) ((crew.workshop n).answer q) world).2 n =
        some m.stock := by
  obtain ⟨m, hm, rfl⟩ := h n s hs
  have hrequest := request_answer (w := crew.workshop n) hm.keyed hm.complete.acyclic hs q
  refine ⟨_, hm.after [.elsewhere world, .ask q], ?_⟩
  rw [hrequest]
  exact stock?_after_self n _

/-- A workshop that is opened has the stock that it has when it is alone. -/
lemma Sound.opened (hc : crew.Sound) {m : Moment σ V}
    (h : (crew.workshop n).opening.runIn world = (.ok (), m)) : (crew.workshop n).Reached m :=
  Workshop.Opened.reached ⟨hc.composed n, world, [], h⟩ []

/-- Nothing changes when somebody looks. -/
lemma perform_looks (key : TypeKey) : (crew.perform (.looks n key) world).2 = world := by
  rw [perform]
  cases stock? world n <;> rfl

/-- **What is done to one workshop leaves the stocks of all others as they are.** -/
theorem Accounts.stock?_perform (h : crew.Accounts world) (hc : crew.Sound) {d : Deed σ}
    (hd : d.workshop? ≠ some k) : stock? (crew.perform d world).2 k = stock? world k := by
  cases d with
  | opens n =>
      have hne : k ≠ (crew.workshop n).serial := fun hk => hd (congrArg some hk.symm)
      rw [perform]
      cases hs : stock? world n with
      | some s => rfl
      | none => exact stock?_opened_of_ne (hc.keyed n) (hc.discreet n) hne
  | asks n q =>
      have hne : k ≠ (crew.workshop n).serial := fun hk => hd (congrArg some hk.symm)
      rw [perform]
      cases hs : stock? world n with
      | some s =>
          obtain ⟨m, hm, -⟩ := h n s hs
          exact stock?_request_of_ne hm.complete.acyclic (hc.discreet n) hne q
      | none => rfl
  | looks n key => rw [perform_looks]
  | elsewhere changed => exact stock?_restock changed (stocks world) k

/-- After an opening the workshop has a stock that it has when it is alone, if it has any. -/
lemma Accounts.opens (h : crew.Accounts world) (hc : crew.Sound) {s : Stock V}
    (hs : stock? (crew.perform (.opens n) world).2 n = some s) :
    ∃ m, (crew.workshop n).Reached m ∧ m.stock = s := by
  cases hopen : stock? world n with
  | some s' =>
      rw [perform, hopen] at hs
      exact h n s hs
  | none =>
      replace hs : stock? (Yard.opened n (crew.workshop n).opening world).2 n = some s := by
        rwa [perform, hopen] at hs
      rcases ho : (crew.workshop n).opening.runIn world with ⟨obstacle | _, m⟩
      · -- a workshop that could not be opened has no stock
        have hstocks : stocks (Yard.opened n (crew.workshop n).opening world).2 = stocks world :=
          stocks_opened_of_error (hc.keyed n) (hc.discreet n) ho
        rw [stock?, hstocks] at hs
        exact h n s hs
      · rw [opened_of_ok ho, stock?_after_self] at hs
        exact ⟨m, hc.opened ho, Option.some.inj hs⟩

/-- So it has after a query. -/
lemma Accounts.asks (h : crew.Accounts world) {q : Query} {s : Stock V}
    (hs : stock? (crew.perform (.asks n q) world).2 n = some s) :
    ∃ m, (crew.workshop n).Reached m ∧ m.stock = s := by
  cases hopen : stock? world n with
  | some s' =>
      obtain ⟨m, hm, hstock⟩ := h.request hopen q
      rw [perform, hopen] at hs
      exact ⟨m, hm, Option.some.inj (hstock.symm.trans hs)⟩
  | none =>
      rw [perform, hopen] at hs
      exact h n s hs

/-- **Every deed keeps the accounts.** -/
theorem Accounts.perform (h : crew.Accounts world) (hc : crew.Sound) (d : Deed σ) :
    crew.Accounts (crew.perform d world).2 := by
  intro k s hk
  by_cases hd : d.workshop? = some k
  · cases d with
    | opens n =>
        obtain rfl : n = k := Option.some.inj hd
        exact h.opens hc hk
    | asks n q =>
        obtain rfl : n = k := Option.some.inj hd
        exact h.asks hk
    | looks n key =>
        rw [perform_looks] at hk
        exact h k s hk
    | elsewhere changed => cases hd
  · rw [h.stock?_perform hc hd] at hk
    exact h k s hk

/-- So do any deeds in turn. -/
lemma Accounts.run (h : crew.Accounts world) (hc : crew.Sound) (deeds : List (Deed σ)) :
    crew.Accounts (crew.run deeds world).2 := by
  induction deeds generalizing world with
  | nil => exact h
  | cons d rest ih => exact ih (h.perform hc d)

end Crew

/-! ### What workshops share -/

namespace Workshop

variable {w : Workshop σ V} {m : Moment σ V} {key : TypeKey}

/-- A product that a factory made is known by the workshop that called the factory. -/
lemma exists_origin_of_made {events : List (Event V)} {i : Instance V}
    (h : i ∈ w.made key events) : ∃ call, i.origin = .built w.serial call := by
  obtain ⟨e, -, he⟩ := List.mem_filterMap.1 h
  cases e with
  | called serial k arguments call =>
      obtain ⟨value | cause | text, notices⟩ := call
      · by_cases hkey : k = key
        · obtain rfl : w.product serial value = i := by simpa [madeBy, hkey] using he
          exact ⟨serial, rfl⟩
        · simp [madeBy, hkey] at he
      · cases he
      · cases he
  | _ => cases he

/-- **Products on a shelf were made by the workshop itself.** -/
theorem Reached.built_of_product? (h : w.Reached m) {i : Instance V}
    (hi : m.shelf.product? key = some i) : ∃ call, i.origin = .built w.serial call := by
  have hk : w.book.keeps key = true :=
    (h.ledger.placed key).symm.trans (Shelf.contains_of_product? hi)
  have hmade : i ∈ w.made key m.trace := by
    rw [h.ledger.made key hk, hi]
    simp
  exact exists_origin_of_made hmade

/-- **Products on the shelves of two workshops are never the same.** -/
lemma Reached.same_eq_false (h : w.Reached m) {w' : Workshop σ V} {m' : Moment σ V}
    (h' : w'.Reached m') (hne : w.serial ≠ w'.serial) {key' : TypeKey} {i j : Instance V}
    (hi : m.shelf.product? key = some i) (hj : m'.shelf.product? key' = some j) :
    i.same j = false := by
  obtain ⟨call, hcall⟩ := h.built_of_product? hi
  obtain ⟨call', hcall'⟩ := h'.built_of_product? hj
  refine decide_eq_false fun horigin => hne ?_
  rw [hcall, hcall'] at horigin
  exact (Origin.built.inj horigin).1

section Given

variable (h : w.Reached m) {r : Recipe σ V} {p : Instance V} (hr : w.book.recipe? key = some r)
  (hsource : r.source = .given p)

include h hr hsource

/-- An existing value is of the type of its recipe. -/
lemma Reached.key_of_given : p.value.key = key := by
  obtain ⟨-, hgiven⟩ := h.wellTyped hr
  rw [hsource] at hgiven
  exact hgiven.2.trans (h.keyed.key_of_recipe? hr)

/-- A type with an existing value has no place on the shelf. -/
lemma Reached.product?_of_given : m.shelf.product? key = none := by
  refine Shelf.product?_of_contains_eq_false ((h.placed key).trans ?_)
  simp [Book.keeps, hr, Recipe.isKept, Recipe.isGiven, hsource]

/-- The existing value is delivered under any optional layers. -/
lemma Reached.delivers_shared (layers : ℕ) :
    w.Delivers ((Need.shared key).nested layers) (.ok ((Argument.shared p).within layers)) := by
  have hneed : ((Need.shared key).nested layers).key = key := Need.key_nested _ layers
  have hdelivers : w.Delivers ((Need.shared key).nested layers) _ :=
    delivers_of_given h.keyed h.complete.acyclic (fun _ _ => h.wellTyped) (hneed.symm ▸ hr) hsource
  rwa [Need.take_of_key ((h.key_of_given hr hsource).trans hneed.symm),
    Need.accept_nested_shared] at hdelivers

end Given

end Workshop

/-! ### Isolation -/

namespace Crew

variable [Yard σ V]

/-- **Workshops are isolated.** Let any workshops work by books that may share recipes or be the
same, where the recipes are well typed and no factory reaches a workshop but by its parameters.
After any deeds, successful or not, one more leaves the stocks of all workshops but one as they
are. The products on the shelves of two workshops, at whatever times, are never the same. If a
recipe is an existing value, every open workshop that has it serves this very value, to all
queries and to all parameters, and keeps none of its own. -/
theorem isolation {crew : Crew σ V} (hc : crew.Sound) {start : σ} (hstart : stocks start = .empty)
    (deeds : List (Deed σ)) :
    let world := (crew.run deeds start).2
    (∀ d k, d.workshop? ≠ some k → stock? (crew.perform d world).2 k = stock? world k) ∧
    (∀ later n k s s' key key' i j, n ≠ k → stock? world n = some s →
      stock? (crew.run later world).2 k = some s' → s.shelf.product? key = some i →
      s'.shelf.product? key' = some j → i.same j = false) ∧
    ∀ n s key r p, stock? world n = some s → (crew n).recipe? key = some r →
      r.source = .given p → s.shelf.product? key = none ∧
      (∀ q, (q = .get key ∨ ∃ name, q = .getInstance ⟨name, key⟩) →
        (crew.perform (.asks n q) world).1 = .replied (.answered (.ok (.shared p)))) ∧
      ∀ layers, (crew.workshop n).Delivers ((Need.shared key).nested layers)
        (.ok ((Argument.shared p).within layers)) := by
  intro world
  have haccounts : crew.Accounts world := (accounts_of_empty hstart).run hc deeds
  refine ⟨fun d k hd => haccounts.stock?_perform hc hd, ?_, ?_⟩
  · intro later n k s s' key key' i j hne hs hs' hi hj
    obtain ⟨m, hm, rfl⟩ := haccounts n s hs
    obtain ⟨m', hm', rfl⟩ := haccounts.run hc later k s' hs'
    exact hm.same_eq_false hm' hne hi hj
  · intro n s key r p hs hr hsource
    obtain ⟨m, hm, rfl⟩ := haccounts n s hs
    refine ⟨hm.product?_of_given hr hsource, fun q hq => ?_, hm.delivers_shared hr hsource⟩
    have hanswer : ((crew.workshop n).answer q).runFrom (Yard.moment world n) = _ :=
      Workshop.runFrom_answer_of_given hr hsource (hm.key_of_given hr hsource) hq _
    rw [perform, hs]
    exact congrArg (fun x => Echo.replied (.answered x)) (congrArg Prod.fst hanswer)

/-- A value that exists already. -/
def heirloom : Instance Unit := .new (.product 1) (.given 0) ()

/-- Workshops with one book, of a singleton that needs the value. Nothing is in their world but
their stocks. -/
def twins : Crew (Table ℕ (Stock Unit)) Unit := fun _ => .of ⟨"twins",
  [.ofShared 0 heirloom, .ofFactory 1 .retained (.product 0) [⟨.shared (.product 1), none⟩]
    fun _ world => (⟨.made (), []⟩, world)]⟩ []

lemma sound_twins : twins.Sound := by
  refine ⟨fun n => ⟨_, _, rfl, ?_⟩, fun n key r make hr hsource arguments world => ?_⟩
  · rw [List.forall_mem_cons, List.forall_mem_singleton]
    exact ⟨Recipe.wellTyped_ofValue .., Recipe.wellTyped_ofFactory ..⟩
  · rcases List.mem_cons.1 (Book.mem_of_recipe?_of hr) with rfl | hmem
    · cases hsource
    · obtain rfl := List.mem_singleton.1 hmem
      obtain rfl := Source.factory.inj hsource
      rfl

/-- The second workshop is opened when the first one has made its singleton and has failed to
make something else. -/
def encounter : List (Deed (Table ℕ (Stock Unit))) :=
  [.opens 0, .asks 0 (.get (.product 0)), .asks 0 (.get (.product 7)), .opens 1,
    .asks 1 (.get (.product 0))]

/-- Then both have singletons of their own, and serve the same value. -/
theorem isolation_twins :
    let world := (twins.run encounter .empty).2
    (∃ s s' i j, stock? world 0 = some s ∧ stock? world 1 = some s' ∧
      s.shelf.product? (.product 0) = some i ∧ s'.shelf.product? (.product 0) = some j ∧
      i.same j = false) ∧
    (∀ n, n = 0 ∨ n = 1 → (twins.perform (.asks n (.get (.product 1))) world).1 =
      .replied (.answered (.ok (.shared heirloom)))) ∧
    stock? (twins.perform (.asks 1 (.resolve (.setting 3))) world).2 0 = stock? world 0 := by
  intro world
  have hstart : stocks (.empty : Table ℕ (Stock Unit)) = .empty := rfl
  obtain ⟨hframe, hdiffer, hserve⟩ := isolation sound_twins hstart encounter
  have hopen : (stock? world 0).isSome ∧ (stock? world 1).isSome := by decide
  obtain ⟨s, hs⟩ := Option.isSome_iff_exists.1 hopen.1
  obtain ⟨s', hs'⟩ := Option.isSome_iff_exists.1 hopen.2
  have hmade : (s.shelf.product? (.product 0)).isSome ∧
      (s'.shelf.product? (.product 0)).isSome := by
    have hstocks : ((stock? world 0).all fun s => (s.shelf.product? (.product 0)).isSome) ∧
        ((stock? world 1).all fun s => (s.shelf.product? (.product 0)).isSome) := by decide
    rwa [hs, hs'] at hstocks
  obtain ⟨i, hi⟩ := Option.isSome_iff_exists.1 hmade.1
  obtain ⟨j, hj⟩ := Option.isSome_iff_exists.1 hmade.2
  refine ⟨⟨s, s', i, j, hs, hs', hi, hj, ?_⟩, ?_, ?_⟩
  · exact hdiffer [] 0 1 s s' _ _ i j (by decide) hs hs' hi hj
  · rintro n (rfl | rfl)
    · exact (hserve 0 s (.product 1) _ heirloom hs rfl rfl).2.1 _ (.inl rfl)
    · exact (hserve 1 s' (.product 1) _ heirloom hs' rfl rfl).2.1 _ (.inl rfl)
  · exact hframe (.asks 1 (.resolve (.setting 3))) 0 (by decide)

end Crew

end Wiring
