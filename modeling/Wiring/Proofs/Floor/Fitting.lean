/-
The types of what is stored and answered in all that comes of a composition.

* `Stage.Fitting`, `Worker.Fitting`, `Floor.Fitting`: what the workers of a floor have at hand, and
  what they were answered, is of the type it is for; `Workshop.Advance.fitting`,
  `Workshop.Move.fitting`, `Floor.Fitting.turn`: every turn keeps this;
* `Floor.Reached.fitting`: **so it is on every floor that is reached**;
* `Draft.typed_storage`: **in all that comes of a history of additions everything is of the type
  that it is registered, stored or answered for**, and nothing fails because it is not.
-/
import Wiring.Proofs.Facade.Composition
import Wiring.Proofs.Floor.Order
import Wiring.Proofs.Workshop.Fitting

namespace Wiring

variable {ι σ V : Type}

/-! ### Workers -/

/-- What is there at a stage of an errand is of the type that is requested. -/
def Stage.Fitting (key : TypeKey) : Stage σ V → Prop
  | .built product => product.Fits key
  | .finished _ answer => Wiring.Fitting key answer
  | _ => True

/-- What a worker has at hand and was answered is of the types that it requested. -/
structure Worker.Fitting (x : Worker σ V) : Prop where
  stages : ∀ e ∈ x.errands, e.stage.Fitting e.wanted.key
  told : ∀ a ∈ x.answered, Wiring.Fitting a.1.key a.2

/-- What stands in the places, and what the workers have at hand and were answered, is of the
types it is for. -/
structure Floor.Fitting (f : Floor ι σ V) : Prop where
  stored : ∀ key i, f.hall.moment.shelf.product? key = some i → i.Fits key
  workers : ∀ j, (f.workers j).Fitting

namespace Workshop

variable {w : Workshop σ V} {stack : List TypeKey} {wanted : TypeRef} {stage stage' : Stage σ V}
  {x x' : Worker σ V} {h h' : Hall σ V}

/-- What a factory call answers is of the type of the recipe. -/
lemma fitting_answerOf (hP : w.Supplies fun key i => i.Fits key) {r : Recipe σ V}
    {make : Factory σ V (Value V)} (hr : w.book.recipe? wanted.key = some r)
    (hs : r.source = .factory make) (arguments : List (Argument V)) (world : σ) (serial : ℕ) :
    Fitting wanted.key (w.answerOf r serial (make arguments world).1.outcome) := by
  cases ho : (make arguments world).1.outcome with
  | made value => exact hP.made hr hs ho serial
  | failed cause => nofun
  | panicked text => nofun

/-- A step of an errand leaves what is there of the right types. -/
lemma Advance.fitting (hP : w.Supplies fun key i => i.Fits key)
    (hs : w.Advance stack wanted stage h stage' h') (hsound : stage.Sound w h.moment wanted)
    (hm : Furnished (fun key i => i.Fits key) h.moment) (hstage : stage.Fitting wanted.key) :
    Furnished (fun key i => i.Fits key) h'.moment ∧ stage'.Fitting wanted.key := by
  cases hs with
  | missing absent => exact ⟨hm, nofun⟩
  | given found source => exact ⟨hm, hP.given found source⟩
  | found there => exact ⟨hm, hm _ _ there⟩
  | @called h holds r make ready answer m ended =>
      obtain ⟨hr, hsource, -⟩ := hsound
      rw [runFrom_call] at ended
      obtain ⟨rfl, rfl⟩ := Prod.mk.inj ended
      have hanswer := fitting_answerOf hP hr hsource ready h.moment.world h.moment.calls
      refine ⟨fun key i hi => hm key i ?_, ?_⟩
      · rwa [Hall.moment_turnTo, Moment.shelf_reported] at hi
      · generalize w.answerOf r h.moment.calls (make ready h.moment.world).1.outcome = answer
          at hanswer ⊢
        cases holds <;> cases answer <;> exact hanswer
  | stored =>
      refine ⟨hm.released fun i hi => ?_, hstage⟩
      rwa [← Except.ok.inj hi]
  | released => exact ⟨fun key i hi => hm key i ((h.moment.product?_left ..).symm.trans hi), hstage⟩
  | _ => exact ⟨hm, trivial⟩

/-- **A move leaves everything of the right types.** -/
theorem Move.fitting (hP : w.Supplies fun key i => i.Fits key) (hm : w.Move x h x' h')
    (hsound : x.Sound w h.moment) (hstored : Furnished (fun key i => i.Fits key) h.moment)
    (hx : x.Fitting) : Furnished (fun key i => i.Fits key) h'.moment ∧ x'.Fitting := by
  obtain ⟨hstages, htold⟩ := hx
  cases hm with
  | begins => exact ⟨hstored, List.forall_mem_singleton.2 trivial, htold⟩
  | proceeds step =>
      obtain ⟨htop, houter⟩ := List.forall_mem_cons.1 hstages
      obtain ⟨hstored', htop'⟩ :=
        step.fitting hP (hsound.stages _ (List.mem_cons_self ..)) hstored htop
      exact ⟨hstored', List.forall_mem_cons.2 ⟨htop', houter⟩, htold⟩
  | asks asks => exact ⟨hstored, List.forall_mem_cons.2 ⟨trivial, hstages⟩, htold⟩
  | supplied fits =>
      obtain ⟨hgiven, hstages⟩ := List.forall_mem_cons.1 hstages
      obtain ⟨-, houter⟩ := List.forall_mem_cons.1 hstages
      exact ⟨hstored, List.forall_mem_cons.2 ⟨trivial, houter⟩,
        List.forall_mem_append.2 ⟨htold, List.forall_mem_singleton.2 hgiven⟩⟩
  | @stopped h inner wanted given holds r make ready p halt rest outer todo answered unfit =>
      obtain ⟨hgiven, hstages⟩ := List.forall_mem_cons.1 hstages
      obtain ⟨-, houter⟩ := List.forall_mem_cons.1 hstages
      have hinner : inner = .of p.need.key :=
        (List.isChain_cons_cons.1 hsound.nested).1.wanted_eq
      have hhalt : Wiring.Fitting wanted.key (.error halt : Except Halt (Instance V)) := by
        subst hinner
        rcases Need.receive_eq_error (fun i => hgiven.fits) unfit with rfl | ⟨index, -, rfl⟩
        · exact hgiven
        · nofun
      exact ⟨Furnished.reported hstored _ _, List.forall_mem_cons.2 ⟨hhalt, houter⟩,
        List.forall_mem_append.2 ⟨htold, List.forall_mem_singleton.2 hgiven⟩⟩
  | answers =>
      have hgiven := hstages _ (List.mem_singleton_self _)
      exact ⟨hstored, List.forall_mem_nil _,
        List.forall_mem_append.2 ⟨htold, List.forall_mem_singleton.2 hgiven⟩⟩
  | quits =>
      have hgiven := hstages _ (List.mem_singleton_self _)
      exact ⟨hstored, List.forall_mem_nil _,
        List.forall_mem_append.2 ⟨htold, List.forall_mem_singleton.2 hgiven⟩⟩

end Workshop

/-! ### Floors -/

namespace Floor

variable {w : Workshop σ V} {f f' : Floor ι σ V}

lemma Starts.fitting (hs : f.Starts w) (hP : w.Supplies fun key i => i.Fits key) : f.Fitting where
  stored := hs.reached.invariant (hP.invariant hs.reached.keyed)
  workers j := by
    obtain ⟨herrands, hanswered⟩ := hs.idle j
    refine ⟨?_, ?_⟩
    · rw [herrands]
      exact List.forall_mem_nil _
    · rw [hanswered]
      exact List.forall_mem_nil _

variable [DecidableEq ι]

/-- Every turn of an orderly floor leaves everything of the right types. -/
lemma Fitting.turn (hP : w.Supplies fun key i => i.Fits key) (ho : f.Orderly w) (hf : f.Fitting)
    (ht : w.Turn f f') : f'.Fitting := by
  cases ht with
  | @works i x h move =>
      obtain ⟨hstored, hx⟩ := move.fitting hP (ho.sound i) hf.stored (hf.workers i)
      exact ⟨hstored, (Function.forall_update_iff f.workers fun _ => Worker.Fitting).2
        ⟨hx, fun j _ => hf.workers j⟩⟩
  | elsewhere world => exact ⟨hf.stored, hf.workers⟩

/-- **On every floor that is reached everything is of the right types**, in whatever order the
workers move. -/
theorem Reached.fitting (h : f.Reached w) (hP : w.Supplies fun key i => i.Fits key) : f.Fitting :=
  (h.induction (P := Floor.Fitting) (fun _ hs => hs.fitting hP)
    fun _ _ ho hf ht => hf.turn hP ho ht).2

end Floor

/-! ### Compositions -/

namespace Draft

/-- All recipes of a built component are from its history. -/
lemma exists_entry_of_build {name : String} {additions : List (Addition σ V)} {c : Component σ V}
    (h : (accumulate name additions).build = .ok c) {r : Recipe σ V} (hr : r ∈ c.recipes) :
    ∃ e ∈ additions.flatMap Addition.entries, e.2 = r := by
  rw [build_accumulate] at h
  split at h
  · obtain rfl := Except.ok.inj h
    exact (mem_of_standing (mem_enlisted.1 hr)).2
  · cases h

/-- **Everything is of the type that it is registered, stored or answered for.** Recipes and whole
components are added to a draft in any way, and the component is built. The recipes are those of
typed factories and values, and come up with holders of configuration values only that came about
by offers. Then such a holder stores each value under its own type, and finds it there. Each
instance in a recipe is of the recipe's type. In a workshop that works by the component and finds
no defects, whenever a request is made, be it while it opens, or from outside, or for a parameter,
what is stored is of the type it is stored for, what is answered is of the type it is answered
for, a typed request is answered like one with the type erased, and no configuration value is
refused for its type. So nothing that it is ever asked for fails because of a type, and neither
does anything if several workers use it at once. -/
theorem typed_storage (name : String) (additions : List (Addition σ V))
    (hi : ∀ e ∈ additions.flatMap Addition.entries, e.2.Issued)
    (hp : ∀ e ∈ additions.flatMap Addition.entries, e.2.Proper)
    {c : Component σ V} (hbuild : (accumulate name additions).build = .ok c)
    (exports : List TypeRef) (serial : ℕ) :
    let w : Workshop σ V := ⟨serial, .of c exports⟩
    (∀ held : Settings V, held.Proper → held.WellTyped ∧
      ∀ index, held.find index = .ok ((held.entries.get? index).map Settings.Entry.value)) ∧
    (∀ e ∈ additions.flatMap Addition.entries, ∀ i, e.2.source = .given i → i.Fits e.2.key) ∧
    (w.book.check = .ok () → ∀ stack wanted m, w.Passes stack wanted m →
      w.Truthful stack wanted m) ∧
    (∀ m, w.Reached m → (∀ wanted, w.Passes [] wanted m) ∧ ∀ q required actual,
      ((w.answer q).runFrom m).1 ≠ .error (.failed (.wrongType required actual))) ∧
    ∀ (ι : Type) [DecidableEq ι] (f : Floor ι σ V), f.Reached w → f.Fitting := by
  intro w
  have hb : w.book.Keyed := Book.keyed_of c exports
  have hwell : ∀ key r, w.book.recipe? key = some r → r.WellTyped := by
    intro key r hr
    obtain ⟨e, he, rfl⟩ := exists_entry_of_build hbuild (Book.mem_of_recipe?_of hr)
    exact (hi e he).wellTyped
  have hproper : ∀ key r, w.book.recipe? key = some r → r.Proper := by
    intro key r hr
    obtain ⟨e, he, rfl⟩ := exists_entry_of_build hbuild (Book.mem_of_recipe?_of hr)
    exact hp e he
  refine ⟨fun held hheld => ⟨hheld.wellTyped, hheld.wellTyped.find_eq⟩,
    fun e he i hs => (hi e he).wellTyped.fits (hp e he) hs, fun hcheck stack wanted m h => ?_,
    fun m h => ⟨h.rests.passes, fun q => ?_⟩, fun ι _ f h => ?_⟩
  · exact h.truthful hb ((Book.check_eq_ok_iff hb).1 hcheck) hwell hproper
  · exact (h.rests.passes q.wanted).answer_ne_wrongType hb h.complete hwell hproper
  · exact h.fitting (Workshop.supplies_fits hb hwell hproper)

/-- A recipe that shares a value. -/
def warehouseShared : Recipe Unit String :=
  .ofShared 0 ⟨.of (.product 0), .given 7, .product 0 "shared"⟩

/-- A component with something that is made anew each time from what is shared, and with a holder
of configuration values that is made by a factory. -/
def warehouseParts : Component Unit String :=
  ⟨"parts",
    [.ofFactory 1 .transient (.product 1) [⟨.shared (.product 0), none⟩]
        fun _ world => (⟨.made "part", []⟩, world),
      .ofFactory 2 .retained .settings []
        fun _ world => (⟨.made (Settings.offerAll Settings.offered .empty).2, []⟩, world)]⟩

/-- A singleton that is made from a part and from configuration values. -/
def warehouseWhole : Recipe Unit String :=
  .ofFactory 3 .retained (.product 2)
    [⟨.shared (.product 1), none⟩, ⟨.setting 0, none⟩, ⟨.optional (.setting 9), none⟩]
    fun _ world => (⟨.made "whole", []⟩, world)

/-- All of these, where the shared value overrides a singleton. -/
def warehouse : List (Addition Unit String) :=
  [.recipe .adding (.ofFactory 4 .retained (.product 0) []
      fun _ world => (⟨.made "own", []⟩, world)),
    .recipe .overriding warehouseShared, .component .adding warehouseParts,
    .recipe .adding warehouseWhole]

lemma issued_warehouse : ∀ e ∈ warehouse.flatMap Addition.entries, e.2.Issued := by
  simp only [warehouse, warehouseParts, List.flatMap_cons, List.flatMap_nil, Addition.entries,
    List.cons_append, List.nil_append, List.map_cons, List.map_nil, List.forall_mem_cons]
  exact ⟨.factory .., .value .., .factory .., .factory .., .factory .., by simp⟩

lemma proper_warehouse : ∀ e ∈ warehouse.flatMap Addition.entries, e.2.Proper := by
  simp only [warehouse, warehouseParts, List.flatMap_cons, List.flatMap_nil, Addition.entries,
    List.cons_append, List.nil_append, List.map_cons, List.map_nil, List.forall_mem_cons]
  refine ⟨Recipe.proper_ofFactory 4 .retained [] fun _ _ _ _ => trivial, trivial,
    Recipe.proper_ofFactory 1 .transient _ fun _ _ _ _ => trivial,
    Recipe.proper_ofFactory 2 .retained [] fun _ _ held h => ?_,
    Recipe.proper_ofFactory 3 .retained _ fun _ _ _ _ => trivial, by simp⟩
  cases h
  exact ⟨Settings.offered, rfl⟩

/-- The workshop that comes of the warehouse. -/
def assembly : Workshop Unit String :=
  ⟨0, .of ⟨"warehouse", warehouseShared :: warehouseParts.recipes ++ [warehouseWhole]⟩ []⟩

lemma build_warehouse : (accumulate "warehouse" warehouse).build =
    .ok ⟨"warehouse", warehouseShared :: warehouseParts.recipes ++ [warehouseWhole]⟩ := rfl

/-- The moment after the opening of the assembly. -/
def assemblyStart : Moment Unit String := (assembly.opening.runIn ()).2

lemma opened_assembly (h : assembly.opening.runIn () = (.ok (), assemblyStart)) :
    assembly.Opened assemblyStart := by
  refine ⟨⟨_, _, rfl, fun r hr => ?_⟩, (), [], h⟩
  obtain ⟨e, he, rfl⟩ := exists_entry_of_build build_warehouse hr
  exact (issued_warehouse e he).wellTyped

/-- The whole is made from everything else, and is stored and answered under its type. A
configuration value that the holder lacks is missing, and that is all. -/
theorem typed_storage_warehouse :
    let product : Instance String := ⟨.of (.product 2), .built 0 2, .product 2 "whole"⟩
    let answered := (assembly.get (.product 2)).runFrom assemblyStart
    assembly.Reached assemblyStart ∧ assembly.Truthful [] (.of (.product 2)) assemblyStart ∧
    answered.1 = .ok product ∧ answered.2.shelf.product? (.product 2) = some product ∧
    product.Fits (.product 2) ∧
    ((assembly.answer (.resolve (.setting 9))).runFrom assemblyStart).1 =
      .error (.failed (.missing (TypeKey.product 9).name)) ∧
    ∀ q required actual, ((assembly.answer q).runFrom assemblyStart).1 ≠
      .error (.failed (.wrongType required actual)) := by
  intro product answered
  obtain ⟨-, -, htruthful, hreached, -⟩ :=
    typed_storage "warehouse" warehouse issued_warehouse proper_warehouse build_warehouse [] 0
  have h : assembly.Reached assemblyStart := (opened_assembly rfl).reached []
  obtain ⟨hpasses, hanswers⟩ := hreached assemblyStart h
  exact ⟨h, htruthful rfl _ _ _ (hpasses _), rfl, rfl, ⟨rfl, rfl, trivial⟩, rfl, hanswers⟩

end Draft

end Wiring
