/-
The names by which a workshop is asked, and those in its book.

* `Workshop.serve_renamed`, `Workshop.act_renamed`, `Workshop.opening_renamed`: with a book that
  is the same but for names a workshop does just the same;
* `Workshop.getInstance_renamed`: so it does when a type is requested under another name, but for
  what it reports;
* `Act.Renamed`, `Workshop.SameReplies`: acts in which requests are renamed, and the replies to
  them;
* `Workshop.ignores_names`: **names make no difference**, neither to the check of a book nor to
  what a workshop does and answers, but for the name of what is missing.
-/
import Wiring.Proofs.Book.Names
import Wiring.Proofs.Workshop.Turns

namespace Wiring

open List (Forall₂)

variable {σ V : Type}

/-! ### Names in a book -/

/-- Parameters that ask for the same are resolved in the same way. -/
lemma resolveAll_renamed {produces : TypeKey → Bool}
    {obtain : TypeKey → Request σ V (Instance V)} {ps ps' : List Parameter}
    (h : Forall₂ Parameter.Renamed ps ps') :
    resolveAll produces obtain ps = resolveAll produces obtain ps' := by
  induction h with
  | nil => rfl
  | @cons p p' rest rest' hp hrest ih =>
      have hneed : p.need = p'.need := hp
      rw [resolveAll, resolveAll, hneed, ih]

namespace Workshop

section Book

variable {b b' : Book σ V} (h : b.Renamed b') (serial : ℕ)

include h

/-- The requests are the same, however many are nested. -/
lemma serve_renamed (room : ℕ) (stack : List TypeKey) (wanted : TypeRef) :
    Workshop.serve ⟨serial, b⟩ room stack wanted =
      Workshop.serve ⟨serial, b'⟩ room stack wanted := by
  induction room generalizing stack wanted with
  | zero => rfl
  | succ room ih =>
      have hfound := h.recipe? wanted.key
      have hproduces : b.produces = b'.produces := funext h.produces
      rw [serve_succ, serve_succ]
      dsimp only
      generalize b.recipe? wanted.key = o, b'.recipe? wanted.key = o' at hfound ⊢
      cases hfound with
      | none => rfl
      | @some r r' hr =>
          dsimp only
          rw [hr.source]
          cases r'.source with
          | given product => rfl
          | factory make =>
              simp only [construct, call, ih, hproduces, resolveAll_renamed hr.parameters,
                hr.key, hr.type]

lemma room_renamed : Workshop.room ⟨serial, b⟩ = Workshop.room ⟨serial, b'⟩ := by
  rw [room, room]
  exact congrArg (· + 1) h.size

lemma getInstance_renamed_book (wanted : TypeRef) :
    Workshop.getInstance ⟨serial, b⟩ wanted = Workshop.getInstance ⟨serial, b'⟩ wanted := by
  rw [getInstance, getInstance, room_renamed h, serve_renamed h]

/-- Queries have the same answers. -/
lemma answer_renamed (q : Query) :
    Workshop.answer ⟨serial, b⟩ q = Workshop.answer ⟨serial, b'⟩ q := by
  have hget : Workshop.get ⟨serial, b⟩ = Workshop.get ⟨serial, b'⟩ := by
    funext key
    rw [get, get, getInstance_renamed_book h]
  cases q with
  | getInstance wanted => rw [answer, answer, getInstance_renamed_book h]
  | get key => rw [answer, answer, hget]
  | resolve need =>
      rw [answer, answer, resolve, resolve, hget]
      exact congrArg (need.resolve · _) (funext h.produces)

/-- **Acts have the same replies and effects.** -/
theorem act_renamed (a : Act σ) (m : Moment σ V) :
    Workshop.act ⟨serial, b⟩ a m = Workshop.act ⟨serial, b'⟩ a m := by
  cases a with
  | ask q => rw [act, act, answer_renamed h]
  | look key =>
      have hfound := h.recipe? key
      have hgiven : (b.recipe? key).any Recipe.isGiven = (b'.recipe? key).any Recipe.isGiven := by
        generalize b.recipe? key = o, b'.recipe? key = o' at hfound ⊢
        cases hfound with
        | none => rfl
        | some hr => exact hr.isGiven
      rw [act, act, isConstructed, isConstructed, hgiven]
  | elsewhere world => rfl

lemma run_renamed (acts : List (Act σ)) (m : Moment σ V) :
    Workshop.run ⟨serial, b⟩ acts m = Workshop.run ⟨serial, b'⟩ acts m := by
  induction acts generalizing m with
  | nil => rfl
  | cons a rest ih => rw [run, run, act_renamed h, ih]

lemma activate_renamed (activation : Activation) {rs rs' : List (Recipe σ V)}
    (hrs : Forall₂ Recipe.Renamed rs rs') :
    Workshop.activate ⟨serial, b⟩ activation rs =
      Workshop.activate ⟨serial, b'⟩ activation rs' := by
  induction hrs with
  | nil => rfl
  | @cons r r' rest rest' hr hrest ih =>
      rw [activate, activate, ih, getInstance_renamed_book h, hr.type]

/-- The shelf is the same before anything is made. -/
lemma emptyShelf_renamed :
    Workshop.emptyShelf ⟨serial, b⟩ = Workshop.emptyShelf ⟨serial, b'⟩ := by
  have hplaces : Forall₂ Eq ((b.recipes.filter Recipe.isKept).map fun r =>
      (r.key, (Place.empty : Place V))) ((b'.recipes.filter Recipe.isKept).map fun r =>
        (r.key, Place.empty)) := by
    rw [List.forall₂_map_left_iff, List.forall₂_map_right_iff]
    refine (List.rel_filter (fun r r' hr => ?_) h.listed).imp fun r r' hr => ?_
    · dsimp only
      rw [hr.isKept]
    · rw [hr.key]
  rw [emptyShelf, emptyShelf]
  exact congrArg Table.ofList (List.forall₂_eq_eq_eq ▸ hplaces)

/-- **Openings are the same** if there are no defects. -/
theorem opening_renamed (hcheck : b.check = .ok ()) (m : Moment σ V) :
    (Workshop.opening ⟨serial, b⟩).run.run m = (Workshop.opening ⟨serial, b'⟩).run.run m := by
  have hnone := Book.check_eq_ok_iff_defects.1 hcheck
  have hnone' : b'.defects = [] := by
    have hdefects := h.defects
    rwa [hnone, List.forall₂_nil_left_iff] at hdefects
  have hcheck' := Book.check_eq_ok_iff_defects.2 hnone'
  have hblank : Workshop.blank ⟨serial, b⟩ m = Workshop.blank ⟨serial, b'⟩ m := by
    have hnotices : b.checkNotices = b'.checkNotices := by
      rw [Book.checkNotices, Book.checkNotices, hnone, hnone']
      rfl
    rw [blank, blank, emptyShelf_renamed h, hnotices]
  rw [run_opening_of_ok (w := ⟨serial, b⟩) hcheck, run_opening_of_ok (w := ⟨serial, b'⟩) hcheck',
    hblank, activate_renamed h serial .primary (h.activated .primary),
    activate_renamed h serial .required (h.activated .required)]

end Book

end Workshop

/-! ### Names of requests -/

namespace Moment

variable {m n : Moment σ V}

lemma SameDeeds.refl (m : Moment σ V) : m.SameDeeds m := ⟨rfl, rfl, rfl, rfl⟩

lemma SameDeeds.symm (h : m.SameDeeds n) : n.SameDeeds m :=
  ⟨h.shelf.symm, h.calls.symm, h.world.symm, h.deeds.symm⟩

/-- The report on an attempt makes no difference. -/
lemma sameDeeds_reported (m : Moment σ V) (name : String) (answer : Except Halt (Instance V)) :
    (m.reported name answer).SameDeeds m := by
  rcases answer with (failure | text | _) | product
  · exact m.sameDeeds_record _
  all_goals exact .refl m

/-- The same is put in a place, whatever the name of its type. -/
lemma SameDeeds.released (h : m.SameDeeds n) (name name' : String) (key : TypeKey)
    (answer : Except Halt (Instance V)) :
    (m.released ⟨name, key⟩ answer).SameDeeds (n.released ⟨name', key⟩ answer) := by
  rcases answer with (failure | text | _) | product
  · exact h
  · refine ⟨?_, h.calls, h.world, h.deeds⟩
    simp only [Moment.released, poison, h.shelf]
  · exact h
  · refine ⟨?_, h.calls, h.world, ?_⟩
    · simp only [Moment.released, store, record, h.shelf]
    · simp [Moment.released, store, record, h.deeds, Event.isDeed]

end Moment

namespace Workshop

variable {w : Workshop σ V} {m n : Moment σ V}

/-- A request for a type with a recipe, under any name: it is answered at once, or an attempt is
made, which is reported under the name, and fills the place of the type if there is one. -/
lemma getInstance_cases {key : TypeKey} (hp : w.book.produces key) (m : Moment σ V) :
    (∃ product, ∀ name, (w.getInstance ⟨name, key⟩).runFrom m = (.ok product, m)) ∨
    ∃ (answer : Except Halt (Instance V)) (m' : Moment σ V),
      (∀ name, (w.getInstance ⟨name, key⟩).runFrom m = (answer, m'.reported name answer)) ∨
      ∀ name, (w.getInstance ⟨name, key⟩).runFrom m =
        (answer, (m'.reported name answer).released ⟨name, key⟩ answer) := by
  obtain ⟨r, hr⟩ := Book.produces_iff.1 hp
  have hle : ([] : List TypeKey).length ≤ w.book.size := Nat.zero_le _
  cases hsource : r.source with
  | given product =>
      refine .inl ⟨product, fun name => ?_⟩
      rw [getInstance_eq, serveAt_of_given hle hr hsource, Request.runFrom_pure]
  | factory make =>
      have hserve (name : String) : w.getInstance ⟨name, key⟩ = fromShelf ⟨name, key⟩
          (w.construct [] ⟨name, key⟩ r make (w.fetch [key])) :=
        serveAt_of_factory hle hr hsource
      rcases hinner : (resolveAll w.book.produces (w.fetch [key]) r.parameters >>=
        w.call r make).runFrom (m.record (.began [key])) with ⟨answer, m'⟩
      have hattempt (name : String) :
          (w.construct [] ⟨name, key⟩ r make (w.fetch [key])).runFrom m =
            (answer, m'.reported name answer) := by
        rw [runFrom_construct, hinner]
      cases hplace : m.shelf.get? key with
      | none =>
          refine .inr ⟨answer, m', .inl fun name => ?_⟩
          rw [hserve, runFrom_fromShelf_of_none hplace, hattempt]
      | some place =>
          cases hthere : place.product with
          | some product =>
              have hproduct : m.shelf.product? key = some product := by
                simp [Shelf.product?, hplace, hthere]
              refine .inl ⟨product, fun name => ?_⟩
              rw [hserve, runFrom_fromShelf_of_product hproduct]
          | none =>
              refine .inr ⟨answer, m', .inr fun name => ?_⟩
              rw [hserve, runFrom_fromShelf_of_empty hplace hthere, hattempt]

/-- **A type that has a recipe may be requested under any name.** -/
theorem getInstance_renamed {t t' : TypeRef} (h : t.Means t') (hp : w.book.produces t.key)
    (m : Moment σ V) :
    ((w.getInstance t).runFrom m).1 = ((w.getInstance t').runFrom m).1 ∧
      ((w.getInstance t).runFrom m).2.SameDeeds ((w.getInstance t').runFrom m).2 := by
  obtain ⟨name, key⟩ := t
  obtain ⟨name', key'⟩ := t'
  obtain rfl : key = key' := h
  rcases getInstance_cases hp m with ⟨product, hrun⟩ | ⟨answer, m', hrun | hrun⟩ <;>
    rw [hrun, hrun]
  · exact ⟨rfl, .refl m⟩
  · exact ⟨rfl, (m'.sameDeeds_reported name answer).trans (m'.sameDeeds_reported name' answer).symm⟩
  · exact ⟨rfl, ((m'.sameDeeds_reported name answer).trans
      (m'.sameDeeds_reported name' answer).symm).released name name' key answer⟩

lemma act_getInstance_renamed {t t' : TypeRef} (h : t.Means t') (hp : w.book.produces t.key)
    (m : Moment σ V) :
    (w.act (.ask (.getInstance t)) m).1 = (w.act (.ask (.getInstance t')) m).1 ∧
      (w.act (.ask (.getInstance t)) m).2.SameDeeds (w.act (.ask (.getInstance t')) m).2 := by
  obtain ⟨hanswer, hdeeds⟩ := getInstance_renamed h hp m
  rw [act, act, runFrom_answer rfl, runFrom_answer rfl]
  exact ⟨congrArg (Reply.answered ∘ Except.map .shared) hanswer, hdeeds⟩

/-- Under any name a type without a recipe is missing. -/
lemma act_getInstance_of_not_produces {t : TypeRef} (hp : w.book.produces t.key = false)
    (m : Moment σ V) :
    w.act (.ask (.getInstance t)) m = (.answered (.error (.failed (.missing t.name))), m) := by
  have hrun : (w.serveAt [] t).runFrom m = (.error (.failed (.missing t.name)), m) := by
    rw [serveAt_of_none (Nat.zero_le _) (Book.produces_eq_false_iff.1 hp), Request.runFrom_fail]
  rw [act, runFrom_answer rfl, Query.wanted, hrun]
  rfl

/-- A query gets the same answer after the same deeds, and does the same. -/
lemma sameDeeds_answer (hb : w.book.Keyed) (ha : w.book.Acyclic) (h : m.SameDeeds n) (q : Query) :
    ((w.answer q).runFrom m).1 = ((w.answer q).runFrom n).1 ∧
      ((w.answer q).runFrom m).2.SameDeeds ((w.answer q).runFrom n).2 := by
  cases hidle : w.Idle q with
  | true =>
      rw [runFrom_answer_of_idle hidle, runFrom_answer_of_idle hidle]
      exact ⟨rfl, h⟩
  | false =>
      obtain ⟨hanswer, hdeeds⟩ := sameDeeds_getInstance hb ha h q.wanted
      rw [runFrom_answer hidle, runFrom_answer hidle, ← getInstance_eq, hanswer]
      exact ⟨rfl, hdeeds⟩

/-- So does every act. -/
lemma sameDeeds_act (hb : w.book.Keyed) (ha : w.book.Acyclic) (h : m.SameDeeds n) (a : Act σ) :
    (w.act a m).1 = (w.act a n).1 ∧ (w.act a m).2.SameDeeds (w.act a n).2 := by
  cases a with
  | ask q =>
      obtain ⟨hanswer, hdeeds⟩ := sameDeeds_answer hb ha h q
      exact ⟨congrArg Reply.answered hanswer, hdeeds⟩
  | look key =>
      rw [act, act, h.shelf]
      exact ⟨rfl, h⟩
  | elsewhere world => exact ⟨rfl, h.shelf, h.calls, rfl, h.deeds⟩

end Workshop

/-- The acts are the same, or are requests for the same type. -/
inductive Act.Renamed : Act σ → Act σ → Prop
  | same (a : Act σ) : Renamed a a
  | getInstance {t t' : TypeRef} (h : t.Means t') :
      Renamed (.ask (.getInstance t)) (.ask (.getInstance t'))

namespace Workshop

variable {w : Workshop σ V} {m n : Moment σ V}

/-- The replies to acts in which requests are renamed: the same, unless a type is requested that
has no recipe. In each of the two replies it is then missing under the name that it is requested
by. -/
inductive SameReplies (w : Workshop σ V) :
    List (Act σ) → List (Act σ) → List (Reply V) → List (Reply V) → Prop
  | nil : SameReplies w [] [] [] []
  | same {a a' : Act σ} {reply : Reply V} {acts acts' : List (Act σ)}
      {replies replies' : List (Reply V)} (renamed : a.Renamed a')
      (others : SameReplies w acts acts' replies replies') :
      SameReplies w (a :: acts) (a' :: acts') (reply :: replies) (reply :: replies')
  | missing {t t' : TypeRef} {acts acts' : List (Act σ)} {replies replies' : List (Reply V)}
      (means : t.Means t') (absent : w.book.produces t.key = false)
      (others : SameReplies w acts acts' replies replies') :
      SameReplies w (.ask (.getInstance t) :: acts) (.ask (.getInstance t') :: acts')
        (.answered (.error (.failed (.missing t.name))) :: replies)
        (.answered (.error (.failed (.missing t'.name))) :: replies')

/-- **Requests may be renamed in a run**, if names of missing types do not matter. -/
theorem sameReplies_run (hb : w.book.Keyed) (ha : w.book.Acyclic) {acts acts' : List (Act σ)}
    (hacts : Forall₂ Act.Renamed acts acts') (h : m.SameDeeds n) :
    w.SameReplies acts acts' (w.run acts m).1 (w.run acts' n).1 ∧
      (w.run acts m).2.SameDeeds (w.run acts' n).2 := by
  induction hacts generalizing m n with
  | nil => exact ⟨.nil, h⟩
  | @cons a a' rest rest' hrenamed hrest ih =>
      cases hrenamed with
      | same =>
          obtain ⟨hreply, hdeeds⟩ := sameDeeds_act hb ha h a
          obtain ⟨hreplies, hend⟩ := ih hdeeds
          rw [run, run, hreply]
          exact ⟨.same (.same a) hreplies, hend⟩
      | @getInstance t t' ht =>
          cases hp : w.book.produces t.key with
          | true =>
              -- first at the other moment, then under the other name
              obtain ⟨hreply, hdeeds⟩ := sameDeeds_act hb ha h (.ask (.getInstance t))
              obtain ⟨hreply', hdeeds'⟩ := act_getInstance_renamed ht hp n
              obtain ⟨hreplies, hend⟩ := ih (hdeeds.trans hdeeds')
              rw [run, run, hreply, hreply']
              exact ⟨.same (.getInstance ht) hreplies, hend⟩
          | false =>
              have hp' : w.book.produces t'.key = false := by
                rwa [← show t.key = t'.key from ht]
              obtain ⟨hreplies, hend⟩ := ih h
              rw [run, run, act_getInstance_of_not_produces hp, act_getInstance_of_not_produces hp']
              exact ⟨.missing ht hp hreplies, hend⟩

/-- **Names make no difference.** If two books are the same but for the names under which
dependencies are declared and exports are required, then their checks come to the same verdict,
with the same circles and, but for names, the same gaps in the same order. If there are none,
workshops with these books open in the same way and have recipes for the same types. From then
on, whatever names are used in requests, the same products are put in the same places and the
same factories are called with the same arguments in the same order, and the replies are the same
but for the name of a type that is requested and has no recipe. -/
theorem ignores_names {c c' : Component σ V} {exports exports' : List TypeRef}
    (hrecipes : Forall₂ Recipe.Renamed c.recipes c'.recipes)
    (hexports : Forall₂ TypeRef.Means exports exports') (serial : ℕ) :
    let w : Workshop σ V := ⟨serial, .of c exports⟩
    let w' : Workshop σ V := ⟨serial, .of c' exports'⟩
    SameVerdict w.book.check w'.book.check ∧
    (w.book.check = .ok () → ∀ m, w.opening.run.run m = w'.opening.run.run m) ∧
    (∀ key, w.book.produces key = w'.book.produces key) ∧
    ∀ m₀ m, w.opening.run.run m₀ = (.ok (), m) →
      ∀ acts acts', Forall₂ Act.Renamed acts acts' →
        w.SameReplies acts acts' (w.run acts m).1 (w'.run acts' m).1 ∧
        (w.run acts m).2.SameDeeds (w'.run acts' m).2 := by
  intro w w'
  have h : w.book.Renamed w'.book := Book.renamed_of hrecipes hexports
  refine ⟨h.check, opening_renamed h serial, h.produces, fun m₀ m hopening acts acts' hacts => ?_⟩
  have hb : w.book.Keyed := Book.keyed_of c exports
  have ha : w.book.Acyclic := ((Book.check_eq_ok_iff hb).1 (run_opening_eq_ok hopening).1).acyclic
  have hrun : w'.run acts' m = w.run acts' m := (run_renamed h serial acts' m).symm
  rw [hrun]
  exact sameReplies_run hb ha hacts (.refl m)

/-- Two singletons, of which the second one declares its dependency on the first one under some
name. -/
def labelled (label : Option String) : Component Unit Unit :=
  ⟨"labelled", [.ofFactory 0 .retained (.product 0) [] fun _ world => (⟨.made (), []⟩, world),
    .ofFactory 1 .retained (.product 1) [⟨.shared (.product 0), label⟩]
      fun _ world => (⟨.made (), []⟩, world)]⟩

/-- The second singleton and a type without a recipe are requested under two names each. -/
theorem ignores_names_labelled :
    let w : Workshop Unit Unit := ⟨0, .of (labelled none) [.of (.product 1)]⟩
    let w' : Workshop Unit Unit := ⟨0, .of (labelled (some "zero")) [⟨"one", .product 1⟩]⟩
    let m := (w.opening.runIn ()).2
    let acts : List (Act Unit) := [.ask (.getInstance (.of (.product 1))),
      .ask (.getInstance ⟨"nine", .product 9⟩), .look (.product 0)]
    let acts' : List (Act Unit) := [.ask (.getInstance ⟨"uno", .product 1⟩),
      .ask (.getInstance ⟨"nove", .product 9⟩), .look (.product 0)]
    w.opening.runIn () = (.ok (), m) ∧ w'.opening.runIn () = (.ok (), m) ∧
    (w.run acts m).2.notices ≠ (w'.run acts' m).2.notices ∧
    w.SameReplies acts acts' (w.run acts m).1 (w'.run acts' m).1 ∧
    (w.run acts m).2.SameDeeds (w'.run acts' m).2 := by
  intro w w' m acts acts'
  have hrecipes : Forall₂ Recipe.Renamed (labelled none).recipes (labelled (some "zero")).recipes :=
    .cons ⟨rfl, .nil, rfl, rfl, rfl⟩ (.cons ⟨rfl, .cons rfl .nil, rfl, rfl, rfl⟩ .nil)
  have hexports : Forall₂ TypeRef.Means [.of (.product 1)] [⟨"one", .product 1⟩] :=
    .cons rfl .nil
  obtain ⟨-, hopening, -, hruns⟩ := ignores_names hrecipes hexports 0
  have hacts : Forall₂ Act.Renamed acts acts' :=
    .cons (.getInstance rfl) (.cons (.getInstance rfl) (.cons (.same _) .nil))
  exact ⟨rfl, (hopening rfl _).symm, by decide, hruns _ m rfl acts acts' hacts⟩

end Workshop

end Wiring
