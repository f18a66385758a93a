/-
Products that are made anew for every request.

* `Workshop.Numbered`: the calls on record are numbered in order;
  `Workshop.Numbered.nodup_made`: so no two products that factories made are the same;
* `Workshop.Answered`: the products that the queries of a run are served with;
  `Workshop.Reached.run_recorded`: **a run multiplies no products that are made anew**;
* `Workshop.Unkept`: a type whose products are nowhere on the shelf;
* `Workshop.Opened.sole_receiver`: **a product that is made anew is made for one receiver, who alone
  gets it, and it is never kept**.
-/
import Wiring.Proofs.Workshop.Record

namespace Wiring

variable {σ V : Type}

namespace Workshop

variable {w : Workshop σ V} {m m' : Moment σ V}

/-! ### The numbers of calls -/

/-- The numbers of the calls among some events. -/
def serials (events : List (Event V)) : List ℕ :=
  events.filterMap fun
    | .called serial _ _ _ => some serial
    | _ => none

/-- The calls on record are numbered in order, without gaps. -/
def Numbered (m : Moment σ V) : Prop := serials m.trace = List.range m.calls

lemma serials_append (before after : List (Event V)) :
    serials (before ++ after) = serials before ++ serials after := List.filterMap_append

lemma serials_of_closing {closing : List (Event V)} (h : ∀ e ∈ closing, e.IsClosing) :
    serials closing = [] := by
  refine List.filterMap_eq_nil_iff.2 fun e he => ?_
  cases e with
  | began stack => rfl
  | called serial key arguments call => cases h _ he
  | shelved key product => rfl
  | noted notice => rfl

lemma Numbered.began (h : Numbered m) (stack : List TypeKey) :
    Numbered (m.record (.began stack)) := by
  rw [Numbered, Moment.record, serials_append, h]
  exact List.append_nil _

/-- What is recorded when a construction is over has no number. -/
lemma Numbered.closing (h : Numbered m) {closing : List (Event V)}
    (hcalls : m'.calls = m.calls) (htrace : m'.trace = m.trace ++ closing)
    (hclosing : ∀ e ∈ closing, e.IsClosing) : Numbered m' := by
  rw [Numbered, htrace, hcalls, serials_append, serials_of_closing hclosing, List.append_nil, h]

lemma Numbered.reported (h : Numbered m) (name : String) (answer : Except Halt (Instance V)) :
    Numbered (m.reported name answer) := by
  obtain ⟨closing, htrace, hclosing⟩ := m.exists_closing_reported name answer
  refine h.closing ?_ htrace hclosing
  rcases answer with (failure | text | _) | product <;> rfl

lemma Numbered.released (h : Numbered m) (wanted : TypeRef)
    (answer : Except Halt (Instance V)) : Numbered (m.released wanted answer) := by
  obtain ⟨closing, htrace, hclosing⟩ := m.exists_closing_released wanted answer
  refine h.closing ?_ htrace hclosing
  rcases answer with (failure | text | _) | product <;> rfl

/-- Every task numbers its calls in order. -/
lemma Course.numbered {stack : List TypeKey} {task : Task σ V}
    {answer : Except Halt (Instance V)} (hc : Course w stack task m answer m')
    (hm : Numbered m) : Numbered m' := by
  induction hc with
  | missing absent => exact hm
  | given found source => exact hm
  | shelved found source there => exact hm
  | passed found source placeless built ih => exact (ih (hm.began _)).reported _ _
  | kept found source placed empty built ih =>
      exact ((ih (hm.began _)).reported _ _).released _ _
  | @called stack r make ready m m' answer ended =>
      rw [runFrom_call] at ended
      obtain ⟨-, rfl⟩ := Prod.mk.inj ended
      rw [Numbered] at hm ⊢
      dsimp only
      rw [serials_append, hm, List.range_succ]
      rfl
  | skipped skips others ih => exact ih hm
  | supplied asks served fits others ihs iho => exact iho (ihs hm)
  | stopped asks served unfit ih => exact ih hm

lemma invariant_numbered : w.Invariant Numbered where
  blank m _ hcalls hquiet := by
    have hclosing : ∀ e ∈ m.trace, e.IsClosing := fun e he => by
      obtain ⟨notice, rfl⟩ := hquiet e he
      trivial
    rw [Numbered, serials_of_closing hclosing, hcalls]
    rfl
  noted m notice hm :=
    hm.closing rfl rfl fun e he => by
      obtain rfl := List.mem_singleton.1 he
      trivial
  served m wanted answer m' hm hc := hc.numbered hm
  elsewhere m world hm := hm

/-- The origin of a product tells the number of the call that made it. -/
lemma sublist_made (w : Workshop σ V) (key : TypeKey) (events : List (Event V)) :
    ((w.made key events).map Instance.origin).Sublist
      ((serials events).map (Origin.built w.serial)) := by
  induction events with
  | nil => exact List.Sublist.slnil
  | cons e rest ih =>
      cases e with
      | began stack => exact ih
      | shelved k product => exact ih
      | noted notice => exact ih
      | called serial k arguments call =>
          rw [← List.singleton_append, made_append, List.map_append, serials_append,
            List.map_append]
          refine List.Sublist.append ?_ ih
          by_cases hkey : k = key
          · obtain ⟨value | cause | text, notices⟩ := call
            · have hmade : w.made key [.called serial k arguments ⟨.made value, notices⟩] =
                  [w.product serial value] := by simp [made, madeBy, hkey]
              rw [hmade]
              exact List.Sublist.refl _
            · exact List.nil_sublist _
            · exact List.nil_sublist _
          · rw [made_called_of_ne hkey]
            exact List.nil_sublist _

/-- No two products that factories made are the same. -/
lemma Numbered.nodup_made (h : Numbered m) (key : TypeKey) :
    ((w.made key m.trace).map Instance.origin).Nodup := by
  refine (w.sublist_made key m.trace).nodup ?_
  rw [h]
  exact List.nodup_range.map fun _ _ heq => (Origin.built.inj heq).2

/-- Counting products of one type with one origin. -/
lemma count_origin (key : TypeKey) (origin : Origin) (products : List (Instance V)) :
    List.count origin ((products.filter fun i => i.value.key = key).map Instance.origin) =
      copies key origin products := by
  rw [List.count, List.countP_map, List.countP_filter, copies]
  refine List.countP_congr fun i _ => ?_
  simp [and_comm]

lemma Numbered.copies_made_le (h : Numbered m) (key : TypeKey) (origin : Origin) :
    copies key origin (w.made key m.trace) ≤ 1 := by
  have hfilter : ((w.made key m.trace).filter fun i => i.value.key = key).Sublist
      (w.made key m.trace) := List.filter_sublist
  rw [← count_origin]
  exact List.nodup_iff_count_le_one.1 ((hfilter.map _).nodup (h.nodup_made key)) origin

/-! ### Queries -/

/-- The products that the queries among some acts are served with, in turn: each that is
answered, and requests anything, makes its answer of such a product. -/
inductive Answered (w : Workshop σ V) :
    List (Act σ) → Moment σ V → List (Instance V) → Prop
  | nil {m : Moment σ V} : Answered w [] m []
  | served {q : Query} {rest : List (Act σ)} {m : Moment σ V} {product : Instance V}
      {a : Argument V} {others : List (Instance V)}
      (serves : w.Serves [] q.wanted product m (w.act (.ask q) m).2)
      (fits : q.receive (.ok product) = .ok a)
      (answers : (w.act (.ask q) m).1 = .answered (.ok a))
      (later : Answered w rest (w.act (.ask q) m).2 others) :
      Answered w (.ask q :: rest) m (product :: others)
  | unserved {a : Act σ} {rest : List (Act σ)} {m : Moment σ V} {others : List (Instance V)}
      (nothing : ∀ q, a = .ask q →
        w.Idle q = true ∨ ∃ halt, (w.act a m).1 = .answered (.error halt))
      (later : Answered w rest (w.act a m).2 others) : Answered w (a :: rest) m others

/-- During some acts from `m` on, when `handed` was handed to factories before, they are handed
the products `more`, and the queries are served with the products `answered`. None of these
that is made anew was made before, or counts twice. -/
structure Spends (w : Workshop σ V) (handed : List (Instance V)) (acts : List (Act σ))
    (m : Moment σ V) (more answered : List (Instance V)) : Prop where
  record : w.Recorded (w.run acts m).2.trace (handed ++ more)
  queries : w.Answered acts m answered
  conserves : ∀ key origin, w.book.renews key →
    copies key origin more + copies key origin answered +
        copies key origin (w.made key m.trace) ≤
      copies key origin (w.made key (w.run acts m).2.trace)

section Spends

variable {handed more answered : List (Instance V)}

lemma spends_nil (hr : w.Recorded m.trace handed) : w.Spends handed [] m [] [] := by
  refine ⟨?_, .nil, fun key origin hrenews => by simp [run]⟩
  rw [List.append_nil]
  exact hr

/-- What one act and those after it spend. -/
lemma Spends.cons {a : Act σ} {rest : List (Act σ)} {more' answered' : List (Instance V)}
    (h : w.Spends handed [a] m more answered)
    (h' : w.Spends (handed ++ more) rest (w.act a m).2 more' answered') :
    w.Spends handed (a :: rest) m (more ++ more') (answered ++ answered') := by
  refine ⟨?_, ?_, fun key origin hrenews => ?_⟩
  · rw [← List.append_assoc]
    exact h'.record
  · cases h.queries with
    | served serves fits answers later =>
        cases later
        exact .served serves fits answers h'.queries
    | unserved nothing later =>
        cases later
        exact .unserved nothing h'.queries
  · have hfirst : copies key origin more + copies key origin answered +
          copies key origin (w.made key m.trace) ≤
        copies key origin (w.made key (w.act a m).2.trace) := h.conserves key origin hrenews
    have hothers : copies key origin more' + copies key origin answered' +
          copies key origin (w.made key (w.act a m).2.trace) ≤
        copies key origin (w.made key (w.run (a :: rest) m).2.trace) :=
      h'.conserves key origin hrenews
    rw [copies_append, copies_append]
    omega

/-- An act that requests nothing spends nothing. -/
lemma spends_of_quiet {a : Act σ} (hr : w.Recorded m.trace handed)
    (htrace : (w.act a m).2.trace = m.trace)
    (hnothing : ∀ q, a = .ask q → w.Idle q = true) : w.Spends handed [a] m [] [] := by
  have hrun : (w.run [a] m).2.trace = m.trace := htrace
  refine ⟨?_, .unserved (fun q hq => .inl (hnothing q hq)) .nil, fun key origin hrenews => ?_⟩
  · rw [hrun, List.append_nil]
    exact hr
  · rw [hrun, copies_nil]
    omega

/-- What a query spends that requests something. -/
lemma Reached.spends_ask (h : w.Reached m) (hr : w.Recorded m.trace handed) {q : Query}
    (hidle : w.Idle q = false) : ∃ more answered, w.Spends handed [.ask q] m more answered := by
  have hw : ∀ key r, w.book.recipe? key = some r → r.WellTyped := fun _ _ => h.wellTyped
  have hanswer := runFrom_answer hidle m
  have hcourse := h.course q.wanted m
  obtain ⟨more, hrecorded, hconserves⟩ :=
    h.rests.serve_recorded h.keyed h.complete.acyclic hw hr q.wanted
  rw [getInstance_eq] at hrecorded hconserves
  rcases hserved : (w.serveAt [] q.wanted).runFrom m with ⟨given, m'⟩
  rw [hserved] at hanswer hcourse hrecorded hconserves
  dsimp only at hanswer hcourse hrecorded hconserves
  have hmoment : (w.act (.ask q) m).2 = m' := congrArg Prod.snd hanswer
  have hreply : (w.act (.ask q) m).1 = .answered (q.receive given) :=
    congrArg (fun x => Reply.answered (Prod.fst x)) hanswer
  have hrun : (w.run [.ask q] m).2 = m' := hmoment
  cases hreceive : q.receive given with
  | error halt =>
      refine ⟨more, [], ?_, .unserved (fun q' hq => .inr ⟨halt, ?_⟩) .nil, ?_⟩
      · rw [hrun]
        exact hrecorded
      · rw [hreply, hreceive]
      · intro key origin hrenews
        have hless := hconserves key origin hrenews
        rw [copies_nil] at hless
        rw [hrun, copies_nil]
        omega
  | ok a =>
      obtain ⟨product, rfl⟩ := Query.exists_of_receive_eq_ok hreceive
      have hserves := hcourse.serves h.keyed h.complete.acyclic hw Book.isStack_nil
        (Book.isNext_nil q.wanted.key) h.ledger h.typed
      refine ⟨more, [product], ?_, .served ?_ hreceive ?_ .nil, ?_⟩
      · rw [hrun]
        exact hrecorded
      · rw [hmoment]
        exact hserves
      · rw [hreply, hreceive]
      · intro key origin hrenews
        have hless := hconserves key origin hrenews
        rw [copies_nil, Nat.zero_add] at hless
        rw [hrun]
        exact hless

/-- **A run multiplies no products that are made anew.** -/
theorem Reached.spends (h : w.Reached m) (hr : w.Recorded m.trace handed)
    (acts : List (Act σ)) : ∃ more answered, w.Spends handed acts m more answered := by
  induction acts generalizing m handed with
  | nil => exact ⟨[], [], spends_nil hr⟩
  | cons a rest ih =>
      have hfirst : ∃ more answered, w.Spends handed [a] m more answered := by
        cases a with
        | look key => exact ⟨[], [], spends_of_quiet hr rfl fun q hq => by cases hq⟩
        | elsewhere world => exact ⟨[], [], spends_of_quiet hr rfl fun q hq => by cases hq⟩
        | ask q =>
            cases hidle : w.Idle q with
            | false => exact h.spends_ask hr hidle
            | true =>
                have hmoment : (w.act (.ask q) m).2 = m :=
                  congrArg Prod.snd (runFrom_answer_of_idle hidle m)
                refine ⟨[], [], spends_of_quiet hr (congrArg Moment.trace hmoment) fun q' hq => ?_⟩
                obtain rfl := Act.ask.inj hq
                exact hidle
      obtain ⟨more, answered, hspends⟩ := hfirst
      obtain ⟨more', answered', hspends'⟩ := ih (h.after [a]) hspends.record
      exact ⟨more ++ more', answered ++ answered', hspends.cons hspends'⟩

end Spends

/-! ### Types whose products are not kept -/

/-- The type `key` has no place, no product of this type stands in the place of another one,
and it is not shown to be constructed. -/
structure Unkept (w : Workshop σ V) (key : TypeKey) (m : Moment σ V) : Prop where
  placeless : m.shelf.contains key = false
  nowhere : ∀ k i, m.shelf.product? k = some i → i.value.key ≠ key
  unshown : w.isConstructed m.shelf key = false

/-- Places and types are as they should be whenever a request is made. -/
lemma Passes.ledger (hb : w.book.Keyed) (ha : w.book.Acyclic) {stack : List TypeKey}
    {inner : TypeRef} (h : w.Passes stack inner m) : w.Ledger settled m := by
  have hlasting : w.Lasting (w.Ledger settled) :=
    ⟨fun m stack hm => hm.began stack,
      fun stack wanted m answer m' hm hc => (hc.ledger hb ha trivial hm).1⟩
  exact h.keeps hlasting (invariant_ledger hb ha) ha

lemma Passes.typed (hb : w.book.Keyed) (ha : w.book.Acyclic)
    (hw : ∀ key r, w.book.recipe? key = some r → r.WellTyped) {stack : List TypeKey}
    {inner : TypeRef} (h : w.Passes stack inner m) : Typed m :=
  h.furnished hb ha (supplies_of_wellTyped hb hw)

/-- Whenever a request is made, it is served as requests are that succeed. -/
lemma Passes.serves (hb : w.book.Keyed) (ha : w.book.Acyclic)
    (hw : ∀ key r, w.book.recipe? key = some r → r.WellTyped) {stack : List TypeKey}
    {inner : TypeRef} (h : w.Passes stack inner m) {product : Instance V}
    (hserved : (w.serveAt stack inner).runFrom m = (.ok product, m')) :
    w.Serves stack inner product m m' := by
  obtain ⟨hs, hn⟩ := h.isStack
  have hcourse := course_serveAt ha hs hn m
  rw [hserved] at hcourse
  exact hcourse.serves hb ha hw hs hn (h.ledger hb ha) (h.typed hb ha hw)

/-- Products that are made anew are not kept. -/
lemma unkept_of_renews {key : TypeKey} (hk : w.book.renews key) (hm : w.Placed m)
    (ht : Typed m) : w.Unkept key m := by
  have hplaceless : m.shelf.contains key = false := (hm key).trans (Book.keeps_of_renews hk)
  refine ⟨hplaceless, fun k i hi hkey => ?_, ?_⟩
  · have hplace : m.shelf.contains k = true := Shelf.contains_of_product? hi
    rw [← ht k i hi, hkey] at hplace
    exact hm.not_renews hplace hk
  · obtain ⟨r, make, hr, hsource, -⟩ := Book.exists_of_renews hk
    have hnone : m.shelf.get? key = none := by simpa [Table.contains] using hplaceless
    simp [isConstructed, hnone, hr, Recipe.isGiven, hsource]

/-- **A product that is made anew for every request has one receiver.** In every run from the
opening of a workshop on, all such products of a type are different, and so are those that
were handed to factories, over the whole record, and those that the queries got. Each was made
by the only call of its factory during the request that it was made for. None is on the shelf
after the run, nor whenever a request is made, at any depth. -/
theorem Opened.sole_receiver (h : w.Opened m) (acts : List (Act σ)) {key : TypeKey}
    (hk : w.book.renews key) :
    ((w.made key (w.run acts m).2.trace).map Instance.origin).Nodup ∧
    (∃ handed answered, w.Recorded (w.run acts m).2.trace handed ∧ w.Answered acts m answered ∧
      (((handed ++ answered).filter fun i => i.value.key = key).map Instance.origin).Nodup) ∧
    (∀ stack inner n product n', w.Passes stack inner n →
      (w.serveAt stack inner).runFrom n = (.ok product, n') →
      w.Serves stack inner product n n') ∧
    w.Unkept key (w.run acts m).2 ∧
    ∀ stack inner n, w.Passes stack inner n → w.Unkept key n := by
  have hb := h.keyed
  have ha := h.complete.acyclic
  have hw : ∀ key r, w.book.recipe? key = some r → r.WellTyped := fun _ _ => h.wellTyped
  have hnumbered : Numbered (w.run acts m).2 := (h.reached acts).invariant invariant_numbered
  refine ⟨hnumbered.nodup_made key, ?_,
    fun stack inner n product n' hpasses => hpasses.serves hb ha hw,
    unkept_of_renews hk (h.reached acts).placed (h.reached acts).typed,
    fun stack inner n hpasses => unkept_of_renews hk (hpasses.ledger hb ha).placed
      (hpasses.typed hb ha hw)⟩
  -- what was handed over during the opening was made during the opening
  have hstart : w.Reached m := h.reached []
  obtain ⟨handed, hrecorded, hcopies⟩ := hstart.rests.recorded hb ha hw
  obtain ⟨more, answered, hspends⟩ := hstart.spends hrecorded acts
  refine ⟨handed ++ more, answered, hspends.record, hspends.queries, ?_⟩
  rw [List.nodup_iff_count_le_one]
  intro origin
  rw [count_origin, copies_append, copies_append]
  have hopening : copies key origin handed ≤ copies key origin (w.made key m.trace) :=
    hcopies key origin hk
  have hrun := hspends.conserves key origin hk
  calc copies key origin handed + copies key origin more + copies key origin answered
      ≤ copies key origin (w.made key m.trace) + copies key origin more +
          copies key origin answered := by omega
    _ ≤ copies key origin (w.made key (w.run acts m).2.trace) := by omega
    _ ≤ 1 := hnumbered.copies_made_le key origin

/-- A workshop with a singleton that takes two products of one type, which are made anew for
every request. -/
def couple : Workshop Unit Unit where
  serial := 0
  book := .of ⟨"couple",
    [.ofFactory 0 .transient (.product 0) [] fun _ world => (⟨.made (), []⟩, world),
      .ofFactory 1 .retained (.product 1) [needsFirst, needsFirst]
        fun _ world => (⟨.made (), []⟩, world)]⟩ [.of (.product 1)]

/-- The moment after the opening of the couple. -/
def coupleStart : Moment Unit Unit := (couple.opening.runIn ()).2

lemma opened_couple : couple.Opened coupleStart := by
  refine ⟨⟨_, _, rfl, ?_⟩, (), [], rfl⟩
  rw [List.forall_mem_cons, List.forall_mem_singleton]
  exact ⟨Recipe.wellTyped_ofFactory .., Recipe.wellTyped_ofFactory ..⟩

/-- The singleton of the couple takes two products, and whoever asks for one gets a third. -/
theorem sole_receiver_couple :
    let acts : List (Act Unit) := [.ask (.get (.product 1)), .ask (.get (.product 0))]
    let key : TypeKey := .product 0
    couple.book.renews key = true ∧
    (couple.made key (couple.run acts coupleStart).2.trace).map Instance.origin =
      [.built 0 0, .built 0 1, .built 0 3] ∧
    ((couple.made key (couple.run acts coupleStart).2.trace).map Instance.origin).Nodup ∧
    (∃ handed answered, couple.Recorded (couple.run acts coupleStart).2.trace handed ∧
      couple.Answered acts coupleStart answered ∧
      (((handed ++ answered).filter fun i => i.value.key = key).map Instance.origin).Nodup) ∧
    (∀ stack inner n product n', couple.Passes stack inner n →
      (couple.serveAt stack inner).runFrom n = (.ok product, n') →
      couple.Serves stack inner product n n') ∧
    couple.Unkept key (couple.run acts coupleStart).2 ∧
    ∀ stack inner n, couple.Passes stack inner n → couple.Unkept key n :=
  ⟨rfl, rfl, opened_couple.sole_receiver [.ask (.get (.product 1)), .ask (.get (.product 0))] rfl⟩

end Workshop

end Wiring
