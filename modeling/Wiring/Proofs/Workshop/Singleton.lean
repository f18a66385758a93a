/-
The singletons of a workshop over its whole life.

* `Need.shares`, `Argument.product?`: the type whose shared product a parameter is for,
  under any optional layers, and the product in what it receives;
* `Workshop.Ledger`: the record of all calls agrees with the shelf, up to products that
  are still to be put there; `Workshop.Course.ledger`: every course of a request keeps this;
* `Workshop.Unique`: the product in the place of a type is the only one that its factory
  ever made and that was ever put there, and all who asked for one got it;
* `Workshop.Reached.unique`: **at every moment each singleton is unique, and it stays the
  same from then on**.
-/
import Wiring.Proofs.Workshop.Growth

namespace Wiring

variable {σ V : Type}

/-! ### Shared products in parameters -/

/-- The type whose shared product a need is for. -/
def Need.shares : Need → Option TypeKey
  | .shared key => some key
  | .setting _ => none
  | .optional inner => inner.shares

/-- The shared product in an argument. -/
def Argument.product? : Argument V → Option (Instance V)
  | .shared product => some product
  | .setting _ => none
  | .absent => none
  | .present inner => inner.product?

namespace Need

lemma key_of_shares {need : Need} {k : TypeKey} (h : need.shares = some k) :
    need.key = k := by
  induction need with
  | shared key => exact Option.some.inj h
  | setting index => cases h
  | optional inner ih => exact ih h

/-- An optional layer around a need for a shared product holds just this product. -/
lemma acceptOptional_of_shares {need : Need} {k : TypeKey} (h : need.shares = some k)
    (product : Instance V) :
    ∃ a, need.acceptOptional product = .ok (some a) ∧ a.product? = some product := by
  induction need with
  | shared key => exact ⟨.shared product, rfl, rfl⟩
  | setting index => cases h
  | optional inner ih =>
      obtain ⟨a, ha, hproduct⟩ := ih h
      exact ⟨.present a, by rw [acceptOptional, ha]; rfl, hproduct⟩

/-- A need for a shared product receives just this product. -/
lemma product?_of_accept {need : Need} {k : TypeKey} (h : need.shares = some k)
    {product : Instance V} {a : Argument V} (ha : need.accept product = .ok a) :
    a.product? = some product := by
  cases need with
  | shared key =>
      obtain rfl := Except.ok.inj ha
      rfl
  | setting index => cases h
  | optional inner =>
      have hinner : inner.shares = some k := h
      obtain ⟨b, hb, hproduct⟩ := acceptOptional_of_shares hinner product
      rw [accept, hb] at ha
      obtain rfl := Except.ok.inj ha
      exact hproduct

/-- What a need for a shared product receives is the product that was requested. -/
lemma product?_of_receive {need : Need} {k : TypeKey} (h : need.shares = some k)
    {given : Except Halt (Instance V)} {a : Argument V} (ha : need.receive given = .ok a) :
    ∃ product, given = .ok product ∧ a.product? = some product := by
  obtain ⟨product, rfl, haccept⟩ := exists_of_receive_eq_ok ha
  exact ⟨product, rfl, product?_of_accept h haccept⟩

end Need

/-- The type whose shared product a query is for. -/
def Query.shares : Query → Option TypeKey
  | .getInstance wanted => some wanted.key
  | .get key => some key
  | .resolve need => need.shares

namespace Query

lemma key_of_shares {q : Query} {k : TypeKey} (h : q.shares = some k) :
    q.wanted.key = k := by
  cases q with
  | getInstance wanted => exact Option.some.inj h
  | get key => exact Option.some.inj h
  | resolve need => exact Need.key_of_shares h

/-- The answer to a query for a shared product is the product that was requested. -/
lemma product?_of_receive {q : Query} {k : TypeKey} (h : q.shares = some k)
    {given : Except Halt (Instance V)} {a : Argument V} (ha : q.receive given = .ok a) :
    ∃ product, given = .ok product ∧ a.product? = some product := by
  cases q with
  | getInstance wanted =>
      cases given with
      | error halt => cases ha
      | ok product =>
          obtain rfl := Except.ok.inj ha
          exact ⟨product, rfl, rfl⟩
  | get key =>
      have hneed : (Need.shared key).shares = some k := h
      exact Need.product?_of_receive hneed ha
  | resolve need => exact Need.product?_of_receive h ha

end Query

namespace Workshop

/-! ### The record and the shelf -/

/-- The products that were put in the place of `key` during some events. -/
def shelved (key : TypeKey) (events : List (Event V)) : List (Instance V) :=
  events.filterMap fun
    | .shelved k product => if k = key then some product else none
    | _ => none

/-- For a singleton a parameter received what stands in its place. -/
def Received (w : Workshop σ V) (m : Moment σ V) (p : Parameter) (a : Argument V) : Prop :=
  ∀ k, w.book.keeps k → p.need.shares = some k →
    ∃ i, m.shelf.product? k = some i ∧ a.product? = some i

/-- The record agrees with the shelf: of each singleton, no more products were made than
the one in its place and those that are `due` to be put there, no other was ever put there,
and all factories that were called received it. -/
structure Ledger (w : Workshop σ V) (due : TypeKey → List (Instance V)) (m : Moment σ V) :
    Prop where
  placed : w.Placed m
  made : ∀ k, w.book.keeps k → w.made k m.trace = (m.shelf.product? k).toList ++ due k
  shelved : ∀ k, shelved k m.trace = (m.shelf.product? k).toList
  handed : ∀ serial t arguments call, .called serial t arguments call ∈ m.trace →
    ∀ r, w.book.recipe? t = some r → List.Forall₂ (w.Received m) r.parameters arguments

/-- Nothing is due. -/
def settled : TypeKey → List (Instance V) := fun _ => []

/-- The product of an attempt for `key` is due, once it is there. -/
def due (key : TypeKey) (answer : Except Halt (Instance V)) : TypeKey → List (Instance V) :=
  fun k => if k = key then answer.toOption.toList else []

@[simp] lemma settled_apply (k : TypeKey) : (settled k : List (Instance V)) = [] := rfl

@[simp] lemma due_error (key : TypeKey) (halt : Halt) :
    due (V := V) key (.error halt) = settled := by
  funext k
  simp [due, Except.toOption]

lemma due_self (key : TypeKey) (product : Instance V) :
    due key (.ok product) key = [product] := by
  simp [due, Except.toOption]

lemma due_of_ne {key k : TypeKey} (h : k ≠ key) (answer : Except Halt (Instance V)) :
    due key answer k = [] := by
  simp [due, h]

lemma due_eq_update (key : TypeKey) (answer : Except Halt (Instance V)) :
    due key answer = Function.update settled key answer.toOption.toList := by
  funext k
  by_cases hk : k = key
  · simp [due, hk]
  · simp [due, hk]

@[simp] lemma update_due (key : TypeKey) (answer : Except Halt (Instance V)) :
    Function.update (due key answer) key [] = settled := by
  rw [due_eq_update, Function.update_idem]
  exact Function.update_eq_self key settled

@[simp] lemma shelved_append (key : TypeKey) (before after : List (Event V)) :
    shelved key (before ++ after) = shelved key before ++ shelved key after :=
  List.filterMap_append

variable {w : Workshop σ V} {m m' : Moment σ V}

lemma Received.mono {p : Parameter} {a : Argument V} (h : w.Received m p a)
    (hkeeps : ∀ k i, m.shelf.product? k = some i → m'.shelf.product? k = some i) :
    w.Received m' p a := by
  intro k hk hshares
  obtain ⟨i, hi, ha⟩ := h k hk hshares
  exact ⟨i, hkeeps k i hi, ha⟩

lemma Ledger.handed_mono {due : TypeKey → List (Instance V)} (h : w.Ledger due m)
    (hkeeps : ∀ k i, m.shelf.product? k = some i → m'.shelf.product? k = some i)
    {serial : ℕ} {t : TypeKey} {arguments : List (Argument V)} {call : Call (Value V)}
    (hcall : .called serial t arguments call ∈ m.trace) {r : Recipe σ V}
    (hr : w.book.recipe? t = some r) :
    List.Forall₂ (w.Received m') r.parameters arguments :=
  (h.handed serial t arguments call hcall r hr).imp fun _ _ ha => ha.mono hkeeps

/-- Events that are neither calls nor uses of the shelf. -/
def Quiet (events : List (Event V)) : Prop :=
  ∀ e ∈ events, (∃ stack, e = .began stack) ∨ ∃ notice, e = .noted notice

lemma quiet_noted (notices : List Notice) : Quiet (V := V) (notices.map .noted) := by
  intro e he
  obtain ⟨notice, -, rfl⟩ := List.mem_map.1 he
  exact .inr ⟨notice, rfl⟩

lemma made_of_quiet {events : List (Event V)} (h : Quiet events) (key : TypeKey) :
    w.made key events = [] := by
  refine List.filterMap_eq_nil_iff.2 fun e he => ?_
  rcases h e he with ⟨stack, rfl⟩ | ⟨notice, rfl⟩ <;> rfl

lemma shelved_of_quiet {events : List (Event V)} (h : Quiet events) (key : TypeKey) :
    shelved key events = [] := by
  refine List.filterMap_eq_nil_iff.2 fun e he => ?_
  rcases h e he with ⟨stack, rfl⟩ | ⟨notice, rfl⟩ <;> rfl

lemma not_called_of_quiet {events : List (Event V)} (h : Quiet events) {serial : ℕ}
    {t : TypeKey} {arguments : List (Argument V)} {call : Call (Value V)} :
    .called serial t arguments call ∉ events := by
  intro he
  rcases h _ he with ⟨stack, he⟩ | ⟨notice, he⟩ <;> cases he

variable {due : TypeKey → List (Instance V)} {answer : Except Halt (Instance V)}

/-- Quiet events that leave the products alone do not matter. -/
lemma Ledger.quiet (h : w.Ledger due m) (new : List (Event V)) (hquiet : Quiet new)
    (htrace : m'.trace = m.trace ++ new)
    (hplaces : ∀ k, m'.shelf.contains k = m.shelf.contains k)
    (hsame : ∀ k, m'.shelf.product? k = m.shelf.product? k) : w.Ledger due m' where
  placed k := (hplaces k).trans (h.placed k)
  made k hk := by
    rw [htrace, made_append, made_of_quiet hquiet, List.append_nil, hsame, h.made k hk]
  shelved k := by
    rw [htrace, shelved_append, shelved_of_quiet hquiet, List.append_nil, hsame, h.shelved k]
  handed serial t arguments call hcall r hr := by
    rw [htrace, List.mem_append] at hcall
    rcases hcall with hcall | hcall
    · exact h.handed_mono (fun k i hi => (hsame k).trans hi) hcall hr
    · exact absurd hcall (not_called_of_quiet hquiet)

lemma Ledger.began (h : w.Ledger due m) (stack : List TypeKey) :
    w.Ledger due (m.record (.began stack)) :=
  h.quiet _ (fun _ he => .inl ⟨stack, List.mem_singleton.1 he⟩) rfl (fun _ => rfl) fun _ => rfl

lemma Ledger.noted (h : w.Ledger due m) (notice : Notice) :
    w.Ledger due (m.record (.noted notice)) :=
  h.quiet _ (fun _ he => .inr ⟨notice, List.mem_singleton.1 he⟩) rfl (fun _ => rfl)
    fun _ => rfl

lemma Ledger.reported (h : w.Ledger due m) (name : String)
    (answer : Except Halt (Instance V)) : w.Ledger due (m.reported name answer) := by
  obtain ⟨notices, htrace⟩ := m.exists_trace_reported name answer
  exact h.quiet _ (quiet_noted notices) htrace (fun _ => by rw [Moment.shelf_reported])
    fun _ => by rw [Moment.shelf_reported]

/-- If a product is due for an empty place, it is no longer due once it is put there. -/
lemma Ledger.store {key : TypeKey} {product : Instance V} (h : w.Ledger due m)
    (hdue : due key = [product]) (hk : w.book.keeps key)
    (hempty : m.shelf.product? key = none) :
    w.Ledger (Function.update due key []) (m.store key product) := by
  have hself : (m.store key product).shelf.product? key = some product :=
    m.product?_store_self ((h.placed key).trans hk) product
  have htrace : (m.store key product).trace = m.trace ++ [.shelved key product] := rfl
  refine ⟨fun k => (m.contains_store key k product).trans (h.placed k), fun k hk' => ?_,
    fun k => ?_, fun serial t arguments call hcall r hr => ?_⟩
  · rw [htrace, made_append, made_shelved, List.append_nil, h.made k hk']
    by_cases hkey : k = key
    · subst hkey
      simp [hempty, hself, hdue]
    · simp [m.product?_store_of_ne hkey, hkey]
  · rw [htrace, shelved_append, h.shelved k]
    by_cases hkey : k = key
    · subst hkey
      simp [hempty, hself, Workshop.shelved]
    · simp [m.product?_store_of_ne hkey, Workshop.shelved, Ne.symm hkey]
  · have hold : .called serial t arguments call ∈ m.trace := by simpa [htrace] using hcall
    exact h.handed_mono (fun k i => m.product?_store_of_some hempty product) hold hr

/-- The end of an attempt for an empty place settles what is due. -/
lemma Ledger.released {wanted : TypeRef} (h : w.Ledger (Workshop.due wanted.key answer) m)
    (hk : w.book.keeps wanted.key) (hempty : m.shelf.product? wanted.key = none) :
    w.Ledger settled (m.released wanted answer) ∧
      ∀ i, answer = .ok i → (m.released wanted answer).shelf.product? wanted.key = some i := by
  cases answer with
  | error halt =>
      rw [due_error] at h
      refine ⟨h.quiet [] (fun e he => by cases he) ?_ (fun k => ?_) fun k => ?_,
        fun i hi => by cases hi⟩
      · rw [List.append_nil, Moment.trace_released_error]
      · exact Moment.contains_released ..
      · exact m.product?_released_error wanted halt k
  | ok product =>
      have hnoted := h.noted (.constructed wanted.name)
      have hstored := hnoted.store (due_self wanted.key product) hk hempty
      rw [update_due] at hstored
      refine ⟨hstored, fun i hi => ?_⟩
      obtain rfl := Except.ok.inj hi
      exact Moment.product?_store_self _ ((hnoted.placed _).trans hk) _

/-! ### Courses -/

/-- A task that is under way: the parameters resolved so far received what they are to
receive. -/
def Task.Underway (w : Workshop σ V) (received : Parameter → Argument V → Prop) :
    Task σ V → Prop
  | .serve _ => True
  | .build r _ ready rest => w.book.recipe? r.key = some r ∧
    ∃ done, r.parameters = done ++ rest ∧ List.Forall₂ received done ready

/-- After a task the record agrees with the shelf, where the product of a factory is still
due; a singleton that was requested stands in its place. -/
def Task.Balanced (w : Workshop σ V) (m : Moment σ V) :
    Task σ V → Except Halt (Instance V) → Prop
  | .serve wanted, answer => w.Ledger settled m ∧
    ∀ i, answer = .ok i → w.book.keeps wanted.key → m.shelf.product? wanted.key = some i
  | .build r _ _ _, answer => w.Ledger (Workshop.due r.key answer) m

section Underway

variable {received received' : Parameter → Argument V → Prop} {r : Recipe σ V}
  {make : Factory σ V (Value V)} {ready : List (Argument V)} {p : Parameter}
  {rest : List Parameter}

/-- The arguments are complete when no parameter is left. -/
lemma Task.Underway.forall₂ (h : (Task.build r make ready []).Underway w received) :
    List.Forall₂ received r.parameters ready := by
  obtain ⟨-, done, hdone, hready⟩ := h
  rwa [hdone, List.append_nil]

lemma Task.Underway.mono (h : (Task.build r make ready rest).Underway w received)
    (himp : ∀ p a, received p a → received' p a) :
    (Task.build r make ready rest).Underway w received' := by
  obtain ⟨hr, done, hdone, hready⟩ := h
  exact ⟨hr, done, hdone, hready.imp himp⟩

/-- One more parameter is resolved. -/
lemma Task.Underway.next (h : (Task.build r make ready (p :: rest)).Underway w received)
    {a : Argument V} (ha : received p a) :
    (Task.build r make (ready ++ [a]) rest).Underway w received := by
  obtain ⟨hr, done, hdone, hready⟩ := h
  exact ⟨hr, done ++ [p], by simpa using hdone, List.rel_append hready (.cons ha .nil)⟩

lemma Task.underway_start {t : TypeKey} (hb : w.book.Keyed) (hr : w.book.recipe? t = some r) :
    (Task.build r make [] r.parameters).Underway w received :=
  ⟨hb.recipe?_of_mem (hb.recipe?_eq_some_iff.1 hr).1, [], rfl, .nil⟩

end Underway

/-- A call of a factory is recorded, and its product is due. -/
lemma Ledger.called (h : w.Ledger due m) {r : Recipe σ V} {make : Factory σ V (Value V)}
    {ready : List (Argument V)} (hr : w.book.recipe? r.key = some r)
    (hready : List.Forall₂ (w.Received m) r.parameters ready)
    (ended : (w.call r make ready).runFrom m = (answer, m')) :
    w.Ledger (Function.update due r.key (due r.key ++ answer.toOption.toList)) m' := by
  rw [runFrom_call] at ended
  obtain ⟨hanswer, rfl⟩ := Prod.mk.inj ended
  refine ⟨h.placed, fun k hk => ?_, fun k => ?_, fun serial t arguments call hcall q hq => ?_⟩
  · dsimp only
    rw [made_append, h.made k hk]
    by_cases hkey : k = r.key
    · subst hkey
      rw [Function.update_self, ← List.append_assoc]
      congr 1
      cases answer with
      | error halt => exact made_called_error _ hanswer
      | ok product => exact made_called hanswer
    · rw [made_called_of_ne (Ne.symm hkey), List.append_nil, Function.update_of_ne hkey]
  · dsimp only
    rw [shelved_append, h.shelved k]
    exact List.append_nil _
  · rcases List.mem_append.1 hcall with hcall | hcall
    · exact h.handed serial t arguments call hcall q hq
    · obtain ⟨-, rfl, rfl, -⟩ : _ = serial ∧ t = r.key ∧ arguments = ready ∧ _ = call := by
        simpa [eq_comm] using hcall
      obtain rfl : r = q := Option.some.inj (hr.symm.trans hq)
      exact hready

/-- What is due counts only for products that are kept. -/
lemma Ledger.congr_of_not_keeps {due' : TypeKey → List (Instance V)} {key : TypeKey}
    (h : w.Ledger due m) (hk : w.book.keeps key = false) (hsame : ∀ k ≠ key, due' k = due k) :
    w.Ledger due' m := by
  refine ⟨h.placed, fun k hk' => ?_, h.shelved, h.handed⟩
  have hne : k ≠ key := by
    rintro rfl
    rw [hk] at hk'
    cases hk'
  rw [h.made k hk', hsame k hne]

/-- Nothing is due for products that are not kept. -/
lemma Ledger.settled_of_not_keeps {key : TypeKey}
    (h : w.Ledger (Workshop.due key answer) m) (hk : w.book.keeps key = false) :
    w.Ledger settled m :=
  h.congr_of_not_keeps hk fun _ hne => (due_of_ne hne answer).symm

/-- What is left out for a parameter is no singleton, since it has no recipe. -/
lemma received_of_skips {p : Parameter} (hs : w.Skips p = true) (a : Argument V) :
    w.Received m p a := by
  intro k hk hshares
  have hskips : w.book.produces p.need.key = false := by
    simpa using (Bool.and_eq_true_iff.1 hs).2
  rw [Need.key_of_shares hshares, Book.produces_eq_false_iff] at hskips
  simp [Book.keeps, hskips] at hk

/-- What a parameter makes of an answer stands in its place if the answer does. -/
lemma received_of_receive {p : Parameter} {given : Except Halt (Instance V)} {a : Argument V}
    (hfits : p.need.receive given = .ok a) (hplace : ∀ i, given = .ok i →
      w.book.keeps p.need.key → m.shelf.product? p.need.key = some i) :
    w.Received m p a := by
  intro k hk hshares
  obtain ⟨product, rfl, hargument⟩ := Need.product?_of_receive hshares hfits
  have hkey : p.need.key = k := Need.key_of_shares hshares
  rw [← hkey] at hk ⊢
  exact ⟨product, hplace product rfl hk, hargument⟩

/-- **Every course of a request keeps the ledger.** -/
theorem Course.ledger (hb : w.book.Keyed) (ha : w.book.Acyclic) {stack : List TypeKey}
    {task : Task σ V} (hc : Course w stack task m answer m') (hu : task.Underway w (w.Received m))
    (hl : w.Ledger settled m) : task.Balanced w m' answer := by
  induction hc with
  | missing absent => exact ⟨hl, fun i hi => by cases hi⟩
  | @given stack wanted m r product found source =>
      refine ⟨hl, fun i _ hk => ?_⟩
      -- given values are not kept
      simp [Book.keeps, found, Recipe.isKept, Recipe.isGiven, source] at hk
  | @shelved stack wanted m r make product found source there =>
      exact ⟨hl, fun i hi _ => there.trans (congrArg some (Except.ok.inj hi))⟩
  | @passed stack wanted m m' r make answer found source placeless built ih =>
      have hnot : w.book.keeps wanted.key = false := (hl.placed _).symm.trans placeless
      have hbuilt : w.Ledger (Workshop.due r.key answer) m' :=
        ih (Task.underway_start hb found) (hl.began _)
      rw [hb.key_of_recipe? found] at hbuilt
      refine ⟨(hbuilt.settled_of_not_keeps hnot).reported _ _, fun i _ hk => ?_⟩
      rw [hnot] at hk
      cases hk
  | @kept stack wanted m m' r make answer found source placed empty built ih =>
      have hk : w.book.keeps wanted.key = true := (hl.placed _).symm.trans placed
      have hbuilt : w.Ledger (Workshop.due r.key answer) m' :=
        ih (Task.underway_start hb found) (hl.began _)
      rw [hb.key_of_recipe? found] at hbuilt
      -- the type does not lead to itself, so nobody filled its place in the meantime
      obtain ⟨new, hgrows, -⟩ := built.grows hb ha
      have hempty : m'.shelf.product? wanted.key = none :=
        hgrows.eq_none empty fun hleads => ha _ (hleads.transGen found)
      obtain ⟨hledger, hproduct⟩ := (hbuilt.reported wanted.name answer).released hk
        (by rwa [Moment.shelf_reported])
      exact ⟨hledger, fun i hi _ => hproduct i hi⟩
  | called ended =>
      rw [Task.Balanced, due_eq_update]
      exact hl.called hu.1 hu.forall₂ ended
  | @skipped stack r make ready p rest m m' answer skips others ih =>
      exact ih (hu.next (received_of_skips skips _)) hl
  | @supplied stack r make ready p rest m m₁ m' given answer argument asks served fits others
      ihs iho =>
      obtain ⟨hledger, hproduct⟩ := ihs trivial hl
      obtain ⟨new, hgrows, -⟩ := served.grows hb ha
      have hreceived := hu.mono fun q a (ha : w.Received m q a) => ha.mono hgrows.keeps
      exact iho (hreceived.next (received_of_receive fits hproduct)) hledger
  | stopped asks served unfit ih =>
      obtain ⟨hledger, -⟩ := ih trivial hl
      change w.Ledger (Workshop.due _ (.error _)) _
      rw [due_error]
      exact hledger

/-! ### The life of a singleton -/

lemma invariant_ledger (hb : w.book.Keyed) (ha : w.book.Acyclic) :
    w.Invariant (w.Ledger settled) where
  blank m hshelf _ htrace := by
    have hquiet : Quiet m.trace := fun e he => .inr (htrace e he)
    have hnone : ∀ k, m.shelf.product? k = none := by
      intro k
      rw [hshelf]
      exact product?_emptyShelf hb k
    refine ⟨(invariant_placed hb ha).blank m hshelf ‹_› htrace, fun k _ => ?_, fun k => ?_,
      fun serial t arguments call hcall => absurd hcall (not_called_of_quiet hquiet)⟩
    · rw [made_of_quiet hquiet, hnone]
      rfl
    · rw [shelved_of_quiet hquiet, hnone]
      rfl
  noted m notice hm := hm.noted notice
  served m wanted answer m' hm hc := (hc.ledger hb ha trivial hm).1
  elsewhere m world hm := hm.quiet [] (fun _ he => by cases he)
    (List.append_nil _).symm (fun _ => rfl) fun _ => rfl

lemma Reached.ledger (h : w.Reached m) : w.Ledger settled m :=
  h.invariant (invariant_ledger h.keyed h.complete.acyclic)

/-- The answer to a query for a singleton is what then stands in its place. -/
lemma Reached.product?_of_answer (h : w.Reached m) {q : Query} {k : TypeKey}
    (hk : w.book.keeps k) (hq : q.shares = some k) {a : Argument V}
    (ha : (w.answer q).runFrom m = (.ok a, m')) :
    ∃ i, m'.shelf.product? k = some i ∧ a.product? = some i := by
  have hkey : q.wanted.key = k := Query.key_of_shares hq
  have hidle : w.Idle q = false := by
    cases q with
    | getInstance wanted => rfl
    | get key => rfl
    | resolve need =>
        -- a singleton has a recipe
        obtain ⟨r, hr, -⟩ := (Option.any_eq_true _ _).1 hk
        have hp : w.book.produces need.key = true := by
          rw [show need.key = k from hkey, Book.produces, hr]
          rfl
        simp [Idle, hp]
  rw [runFrom_answer hidle] at ha
  obtain ⟨hanswer, rfl⟩ := Prod.mk.inj ha
  obtain ⟨product, hgiven, hproduct⟩ := Query.product?_of_receive hq hanswer
  obtain ⟨-, hplace⟩ :=
    (h.course q.wanted m).ledger h.keyed h.complete.acyclic trivial h.ledger
  refine ⟨product, ?_, hproduct⟩
  rw [← hkey] at hk ⊢
  exact hplace product hgiven hk

/-- The product in the place of `key` is the only one that its factory ever made and that
was ever put there, every factory that was called with a product of this type received it,
and the type is shown to be constructed as soon as it is there. -/
structure Unique (w : Workshop σ V) (key : TypeKey) (m : Moment σ V) : Prop where
  made : w.made key m.trace = (m.shelf.product? key).toList
  shelved : Workshop.shelved key m.trace = (m.shelf.product? key).toList
  handed : ∀ serial t arguments call r, .called serial t arguments call ∈ m.trace →
    w.book.recipe? t = some r →
    List.Forall₂ (fun p a => p.need.shares = some key →
      ∃ i, m.shelf.product? key = some i ∧ a.product? = some i) r.parameters arguments
  shown : w.isConstructed m.shelf key = (m.shelf.product? key).isSome

/-- During some acts from `m` on, the product in the place of `key` stays, every answer to
a query for the shared product of this type is the one that stands in its place at the end,
and the type is shown to be constructed if its product was there from the start, and only
if it is there at the end. -/
structure Lasts (w : Workshop σ V) (key : TypeKey) (m : Moment σ V) (acts : List (Act σ)) :
    Prop where
  stays : ∀ i, m.shelf.product? key = some i →
    (w.run acts m).2.shelf.product? key = some i
  answered : ∀ q a, (.ask q, .answered (.ok a)) ∈ acts.zip (w.run acts m).1 →
    q.shares = some key →
    ∃ i, (w.run acts m).2.shelf.product? key = some i ∧ a.product? = some i
  shown : ∀ b, (.look key, .shown b) ∈ acts.zip (w.run acts m).1 →
    ((m.shelf.product? key).isSome → b = true) ∧
      (b = true → ((w.run acts m).2.shelf.product? key).isSome)

/-- A singleton is shown to be constructed exactly if its place is filled. -/
lemma Placed.isConstructed_eq (h : w.Placed m) {key : TypeKey} (hk : w.book.keeps key) :
    w.isConstructed m.shelf key = (m.shelf.product? key).isSome := by
  obtain ⟨place, hplace⟩ := Option.isSome_iff_exists.1 ((h key).trans hk)
  rw [isConstructed, Shelf.product?, hplace]
  rfl

lemma Reached.lasts (h : w.Reached m) {key : TypeKey} (hk : w.book.keeps key)
    (acts : List (Act σ)) : w.Lasts key m acts := by
  induction acts generalizing m with
  | nil =>
      exact ⟨fun i hi => hi, fun q a hmem => (by cases hmem), fun b hmem => (by cases hmem)⟩
  | cons a rest ih =>
      have hstays := fun i => h.product?_run (a :: rest) (k := key) (i := i)
      have hnext := h.after [a]
      have hlasts := ih hnext
      refine ⟨hstays, fun q b hmem hq => ?_, fun b hmem => ?_⟩
      · rcases List.mem_cons.1 hmem with heq | hmem
        · obtain ⟨rfl, hb⟩ := Prod.mk.inj heq
          obtain ⟨i, hi, hproduct⟩ := h.product?_of_answer hk hq
            (Prod.ext (Reply.answered.inj hb).symm rfl)
          exact ⟨i, hlasts.stays i hi, hproduct⟩
        · exact hlasts.answered q b hmem hq
      · rcases List.mem_cons.1 hmem with heq | hmem
        · obtain ⟨rfl, hb⟩ := Prod.mk.inj heq
          obtain rfl := Reply.shown.inj hb
          rw [h.placed.isConstructed_eq hk]
          refine ⟨id, fun hsome => ?_⟩
          obtain ⟨i, hi⟩ := Option.isSome_iff_exists.1 hsome
          rw [hstays i hi]
          rfl
        · refine ⟨fun hsome => ?_, (hlasts.shown b hmem).2⟩
          obtain ⟨i, hi⟩ := Option.isSome_iff_exists.1 hsome
          refine (hlasts.shown b hmem).1 ?_
          rw [h.product?_run [a] hi]
          rfl

/-- **A singleton is unique over the whole life of a workshop**: at every moment that is
reached, what stands in its place is the only product of its factory so far, nothing else
was ever put there or handed to a factory, and it is what all later queries get. -/
theorem Reached.unique (h : w.Reached m) {key : TypeKey} {r : Recipe σ V}
    (hr : w.book.recipe? key = some r) (hkept : r.isKept = true) :
    w.Unique key m ∧ ∀ acts, w.Lasts key m acts := by
  have hk : w.book.keeps key = true := by
    rw [Book.keeps, hr]
    exact hkept
  have hledger := h.ledger
  refine ⟨⟨?_, hledger.shelved key, fun serial t arguments call q hcall hq => ?_,
    h.placed.isConstructed_eq hk⟩, h.lasts hk⟩
  · rw [hledger.made key hk, settled_apply, List.append_nil]
  · exact (hledger.handed serial t arguments call hcall q hq).imp
      fun p a hreceived => hreceived key hk

/-- When the second singleton of the sample could not be made, the first one is unique. -/
theorem unique_sample :
    ((sample [needsFirst, needsSetting]).run [.ask (.get (.product 1))]
      (sampleStart [needsFirst, needsSetting])).2.shelf.product? (.product 0) =
        some ⟨.of (.product 0), .built 0 0, .product 0 ()⟩ ∧
      (sample [needsFirst, needsSetting]).Unique (.product 0)
        ((sample [needsFirst, needsSetting]).run [.ask (.get (.product 1))]
          (sampleStart [needsFirst, needsSetting])).2 ∧
      ∀ acts, (sample [needsFirst, needsSetting]).Lasts (.product 0)
        ((sample [needsFirst, needsSetting]).run [.ask (.get (.product 1))]
          (sampleStart [needsFirst, needsSetting])).2 acts :=
  ⟨by decide, Reached.unique ((opened_sample rfl).reached [.ask (.get (.product 1))]) rfl rfl⟩

end Workshop

end Wiring
