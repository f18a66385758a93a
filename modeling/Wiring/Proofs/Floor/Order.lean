/-
What is so at each stage of an errand, whoever else is on the floor.

* `Stage.Sound`: what the shelf holds for an errand, which nobody else changes while the
  lock of its place is held;
* `Errand.Serves`: how the errands of a worker are nested;
* `Worker.Sound`: both for all errands of a worker, and for the answers it was given;
  `Workshop.Move.sound`, `Worker.Sound.mono`: it is kept by the moves of the worker and of
  the others;
* `Floor.Reached.orderly`: **whatever the workers come to, the locks are those they hold,
  and every worker is sound**.
-/
import Wiring.Proofs.Floor.Locks

namespace Wiring

open Relation

variable {ι σ V : Type}

/-! ### Stages and workers -/

/-- The answer to a request for a singleton stands in its place, or is the value that exists
already. -/
def Workshop.Stands (w : Workshop σ V) (m : Moment σ V) (wanted : TypeRef)
    (answer : Except Halt (Instance V)) : Prop :=
  (∀ i, answer = .ok i → w.book.keeps wanted.key → m.shelf.product? wanted.key = some i) ∧
    w.Grants wanted.key answer

/-- For a singleton a parameter received what stands in its place, or the value that exists
already. -/
def Workshop.Obtained (w : Workshop σ V) (m : Moment σ V) (p : Parameter) (a : Argument V) :
    Prop :=
  w.Received m p a ∧ w.Granted p a

/-- What is so at a stage of the errand for `wanted`: as long as the worker holds the lock of
a place and no product is there, the place is empty; the arguments that are ready stand in
their places; and the answer for a singleton stands in its place. -/
def Stage.Sound (w : Workshop σ V) (m : Moment σ V) (wanted : TypeRef) : Stage σ V → Prop
  | .posed => True
  | .locked r make => w.book.recipe? wanted.key = some r ∧ r.source = .factory make ∧
      w.book.keeps wanted.key
  | .building holds r make ready rest =>
    w.book.recipe? wanted.key = some r ∧ r.source = .factory make ∧
      holds = w.book.keeps wanted.key ∧
      (holds = true → m.shelf.product? wanted.key = none) ∧
      (Workshop.Task.build r make ready rest).Underway w (w.Obtained m)
  | .built _ => w.book.keeps wanted.key ∧ m.shelf.product? wanted.key = none
  | .finished holds answer => (holds = true → w.book.keeps wanted.key) ∧ w.Stands m wanted answer

/-- The request `e` is made for the next parameter of the recipe that `o` is about. -/
def Errand.Serves (w : Workshop σ V) (e o : Errand σ V) : Prop :=
  ∃ holds r make ready p rest, o.stage = .building holds r make ready (p :: rest) ∧
    e.wanted = .of p.need.key ∧ w.Skips p = false

/-- The errands of a worker are nested as its recipes want it, each is sound, and what it was
answered for a singleton stands in its place. -/
structure Worker.Sound (w : Workshop σ V) (m : Moment σ V) (x : Worker σ V) : Prop where
  nested : x.errands.IsChain (Errand.Serves w)
  stages : ∀ e ∈ x.errands, e.stage.Sound w m e.wanted
  told : ∀ a ∈ x.answered, w.Stands m a.1 a.2

variable {w : Workshop σ V} {m m' : Moment σ V} {stack : List TypeKey} {wanted : TypeRef}
  {stage stage' : Stage σ V} {x x' : Worker σ V} {h h' : Hall σ V}

/-- An answer stands in its place for good. -/
lemma Workshop.Stands.mono {answer : Except Halt (Instance V)}
    (h : w.Stands m wanted answer)
    (hkeeps : ∀ k i, m.shelf.product? k = some i → m'.shelf.product? k = some i) :
    w.Stands m' wanted answer :=
  ⟨fun i hi hk => hkeeps _ _ (h.1 i hi hk), h.2⟩

/-- What has no answer stands nowhere. -/
lemma Workshop.stands_error (m : Moment σ V) (wanted : TypeRef) (halt : Halt) :
    w.Stands m wanted (.error halt) := ⟨nofun, nofun⟩

lemma Workshop.Obtained.mono {p : Parameter} {a : Argument V} (h : w.Obtained m p a)
    (hkeeps : ∀ k i, m.shelf.product? k = some i → m'.shelf.product? k = some i) :
    w.Obtained m' p a :=
  ⟨h.1.mono hkeeps, h.2⟩

/-- A nested request is for what the next parameter uses. -/
lemma Errand.Serves.wanted_eq {e : Errand σ V} {holds : Bool} {r : Recipe σ V}
    {make : Factory σ V (Value V)} {ready : List (Argument V)} {p : Parameter}
    {rest : List Parameter}
    (h : e.Serves w ⟨wanted, .building holds r make ready (p :: rest)⟩) :
    e.wanted = .of p.need.key := by
  obtain ⟨holds', r', make', ready', p', rest', hstage, hwanted, -⟩ := h
  cases hstage
  exact hwanted

/-- The requests that a request is nested in do not care how far it has come. -/
lemma nested_congr {inner inner' : Stage σ V} {outer : List (Errand σ V)}
    (h : (⟨wanted, inner⟩ :: outer).IsChain (Errand.Serves w)) :
    (⟨wanted, inner'⟩ :: outer).IsChain (Errand.Serves w) := by
  cases outer with
  | nil => exact .singleton _
  | cons o outer =>
      obtain ⟨hserves, hrest⟩ := List.isChain_cons_cons.1 h
      exact List.isChain_cons_cons.2 ⟨hserves, hrest⟩

/-- A stage stays sound while products come to the shelf, unless one comes to the place whose
lock is held. -/
lemma Stage.Sound.mono (hs : stage.Sound w m wanted)
    (hkeeps : ∀ k i, m.shelf.product? k = some i → m'.shelf.product? k = some i)
    (hsame : stage.holds = true →
      m'.shelf.product? wanted.key = m.shelf.product? wanted.key) :
    stage.Sound w m' wanted := by
  cases stage with
  | posed => trivial
  | locked r make => exact hs
  | building holds r make ready rest =>
      obtain ⟨hr, hsource, hholds, hempty, hunder⟩ := hs
      exact ⟨hr, hsource, hholds, fun hb => (hsame hb).trans (hempty hb),
        hunder.mono fun p a ha => ha.mono hkeeps⟩
  | built product => exact ⟨hs.1, (hsame rfl).trans hs.2⟩
  | finished holds answer => exact ⟨hs.1, hs.2.mono hkeeps⟩

/-- A worker stays sound while products come to the shelf in places whose locks it does not
hold. -/
lemma Worker.Sound.mono (hx : x.Sound w m)
    (hkeeps : ∀ k i, m.shelf.product? k = some i → m'.shelf.product? k = some i)
    (hsame : ∀ k ∈ x.held, m'.shelf.product? k = m.shelf.product? k) : x.Sound w m' where
  nested := hx.nested
  stages e he := (hx.stages e he).mono hkeeps fun hholds => hsame _ (mem_heldFor he hholds)
  told a ha := (hx.told a ha).mono hkeeps

namespace Workshop

/-- Products stay where they are, since only empty places are filled. -/
lemma Move.keeps (hm : w.Move x h x' h') (hx : x.Sound w h.moment) (k : TypeKey)
    (i : Instance V) (hi : h.moment.shelf.product? k = some i) :
    h'.moment.shelf.product? k = some i := by
  rcases hm.stores_or_same with ⟨e, he, product, hstage, hmoment⟩ | hsame
  · have hsound := hx.stages e he
    rw [hstage] at hsound
    rw [hmoment]
    exact Moment.product?_store_of_some _ hsound.2 product hi
  · exact (hsame k).trans hi

/-- A step of an errand leads from one sound stage to another. -/
lemma Advance.sound (hb : w.book.Keyed) (hp : w.Placed h.moment)
    (hs : w.Advance stack wanted stage h stage' h') (hsound : stage.Sound w h.moment wanted) :
    stage'.Sound w h'.moment wanted := by
  cases hs with
  | missing absent => exact ⟨nofun, stands_error _ _ _⟩
  | given found source =>
      refine ⟨nofun, fun i _ hk => ?_, fun i product hi hgives => ?_⟩
      · -- values that exist already are not kept
        simp [Book.keeps, found, Recipe.isKept, Recipe.isGiven, source] at hk
      · obtain rfl := Except.ok.inj hi
        exact Source.given.inj (source.symm.trans (hgives.source_eq found))
  | passed found source placeless =>
      exact ⟨found, source, placeless.symm.trans (hp _), nofun, Task.underway_start hb found⟩
  | taken found source placed free => exact ⟨found, source, (hp _).symm.trans placed⟩
  | found there =>
      obtain ⟨-, -, hk⟩ := hsound
      exact ⟨fun _ => hk, fun i hi _ => there.trans (congrArg some (Except.ok.inj hi)),
        grants_of_keeps hk⟩
  | empty empty =>
      obtain ⟨hr, hsource, hk⟩ := hsound
      exact ⟨hr, hsource, hk.symm, fun _ => empty, Task.underway_start hb hr⟩
  | skipped skips =>
      obtain ⟨hr, hsource, hholds, hempty, hunder⟩ := hsound
      exact ⟨hr, hsource, hholds, hempty,
        hunder.next ⟨received_of_skips skips _, granted_of_skips skips _⟩⟩
  | @called h holds r make ready answer m ended =>
      obtain ⟨hr, hsource, hholds, hempty, -⟩ := hsound
      rw [runFrom_call] at ended
      obtain ⟨-, rfl⟩ := Prod.mk.inj ended
      rw [Hall.moment_turnTo]
      cases holds with
      | false =>
          exact ⟨nofun, fun i _ hk => by simp [← hholds] at hk, grants_of_factory hr hsource⟩
      | true =>
          cases answer with
          | ok product =>
              refine ⟨hholds.symm, ?_⟩
              rw [Moment.shelf_reported]
              exact hempty rfl
          | error halt => exact ⟨fun _ => hholds.symm, stands_error _ _ _⟩
  | stored =>
      refine ⟨fun _ => hsound.1, fun i hi _ => ?_, grants_of_keeps hsound.1⟩
      obtain rfl := Except.ok.inj hi
      exact Moment.product?_store_self _ ((hp _).trans hsound.1) _
  | released =>
      exact ⟨nofun, hsound.2.mono fun k i hi => (h.moment.product?_left ..).trans hi⟩

/-- **A move leads a sound worker to a sound one.** -/
theorem Move.sound (hb : w.book.Keyed) (hp : w.Placed h.moment) (hn : x.held.Nodup)
    (hm : w.Move x h x' h') (hx : x.Sound w h.moment) : x'.Sound w h'.moment := by
  have hkeeps := hm.keeps hx
  obtain ⟨hnested, hstages, htold⟩ := hx
  cases hm with
  | begins => exact ⟨.singleton _, List.forall_mem_singleton.2 trivial, htold⟩
  | @proceeds h h' wanted stage stage' outer todo answered step =>
      obtain ⟨htop, houter⟩ := List.forall_mem_cons.1 hstages
      -- the lock that is held for the innermost errand is not held for another one
      have hsame : ∀ k ∈ Worker.heldFor outer,
          h'.moment.shelf.product? k = h.moment.shelf.product? k := by
        intro k hk
        rcases step.stores_or_same with ⟨product, rfl, hmoment⟩ | hsame
        · have hne : wanted.key ∉ Worker.heldFor outer := (List.nodup_cons.1 hn).1
          rw [hmoment]
          refine Moment.product?_store_of_ne _ ?_ _
          rintro rfl
          exact hne hk
        · exact hsame k
      exact ⟨nested_congr hnested, List.forall_mem_cons.2 ⟨step.sound hb hp htop,
        fun e he => (houter e he).mono hkeeps fun hholds =>
          hsame _ (Worker.mem_heldFor he hholds)⟩,
        fun a ha => (htold a ha).mono hkeeps⟩
  | @asks h wanted holds r make ready p rest outer todo answered asks =>
      exact ⟨List.isChain_cons_cons.2
        ⟨⟨holds, r, make, ready, p, rest, rfl, rfl, asks⟩, hnested⟩,
        List.forall_mem_cons.2 ⟨trivial, hstages⟩, htold⟩
  | @supplied h inner wanted given holds r make ready p argument rest outer todo answered
      fits =>
      obtain ⟨hserves, hrest⟩ := List.isChain_cons_cons.1 hnested
      obtain ⟨⟨-, hgiven⟩, hstages⟩ := List.forall_mem_cons.1 hstages
      obtain ⟨⟨hr, hsource, hholds, hempty, hunder⟩, houter⟩ := List.forall_mem_cons.1 hstages
      have hinner : inner = .of p.need.key := hserves.wanted_eq
      have hobtained : w.Obtained h.moment p argument := by
        rw [hinner] at hgiven
        exact ⟨received_of_receive fits hgiven.1, granted_of_receive fits hgiven.2⟩
      exact ⟨nested_congr hrest, List.forall_mem_cons.2
          ⟨⟨hr, hsource, hholds, hempty, hunder.next hobtained⟩, houter⟩,
        List.forall_mem_append.2 ⟨htold, List.forall_mem_singleton.2 hgiven⟩⟩
  | @stopped h inner wanted given holds r make ready p halt rest outer todo answered unfit =>
      obtain ⟨-, hrest⟩ := List.isChain_cons_cons.1 hnested
      obtain ⟨⟨-, hgiven⟩, hstages⟩ := List.forall_mem_cons.1 hstages
      obtain ⟨⟨-, -, hholds, -, -⟩, houter⟩ := List.forall_mem_cons.1 hstages
      have hsame : ∀ k, (h.moment.reported wanted.name (.error halt)).shelf.product? k =
          h.moment.shelf.product? k := fun k => by rw [Moment.shelf_reported]
      have htop : (Stage.finished holds (.error halt)).Sound w
          (h.moment.reported wanted.name (.error halt)) wanted :=
        ⟨fun hb => hholds.symm.trans hb, stands_error _ _ _⟩
      refine ⟨nested_congr hrest, List.forall_mem_cons.2 ⟨htop, fun e he => ?_⟩,
        List.forall_mem_append.2 ⟨fun a ha => ?_, List.forall_mem_singleton.2 ?_⟩⟩
      · exact (houter e he).mono hkeeps fun _ => hsame _
      · exact (htold a ha).mono hkeeps
      · exact hgiven.mono hkeeps
  | answers =>
      obtain ⟨-, hgiven⟩ := hstages _ (List.mem_singleton_self _)
      exact ⟨.nil, List.forall_mem_nil _,
        List.forall_mem_append.2 ⟨htold, List.forall_mem_singleton.2 hgiven⟩⟩
  | quits =>
      obtain ⟨-, hgiven⟩ := hstages _ (List.mem_singleton_self _)
      exact ⟨.nil, List.forall_mem_nil _,
        List.forall_mem_append.2 ⟨htold, List.forall_mem_singleton.2 hgiven⟩⟩

end Workshop

/-! ### The floor -/

namespace Floor

/-- The types that are kept have places, the locks are those that the workers hold, and every
worker is sound. -/
structure Orderly (w : Workshop σ V) (f : Floor ι σ V) : Prop where
  placed : w.Placed f.hall.moment
  guarded : f.Guarded
  sound : ∀ i, (f.workers i).Sound w f.hall.moment

variable {f f' : Floor ι σ V}

/-- Where no lock is taken and nobody is busy, the floor is in order. -/
lemma orderly_of_idle (placed : w.Placed f.hall.moment) (free : ∀ k, f.hall.locked k = false)
    (idle : ∀ i, (f.workers i).errands = [] ∧ (f.workers i).answered = []) : f.Orderly w where
  placed := placed
  guarded := guarded_of_idle free fun i => (idle i).1
  sound i := by
    obtain ⟨herrands, hanswered⟩ := idle i
    refine ⟨?_, ?_, ?_⟩
    · rw [herrands]
      exact .nil
    · rw [herrands]
      exact List.forall_mem_nil _
    · rw [hanswered]
      exact List.forall_mem_nil _

lemma Starts.orderly (h : f.Starts w) : f.Orderly w :=
  orderly_of_idle h.reached.placed h.free h.idle

variable [DecidableEq ι]

/-- Products stay where they are, whoever moves. -/
lemma Orderly.keeps (ho : f.Orderly w) (ht : w.Turn f f') (k : TypeKey) (i : Instance V)
    (hi : f.hall.moment.shelf.product? k = some i) :
    f'.hall.moment.shelf.product? k = some i := by
  cases ht with
  | works j move => exact move.keeps (ho.sound j) k i hi
  | elsewhere world => exact hi

/-- **Every turn keeps the floor in order.** The worker who moves changes only places whose
locks it holds, so that it does not disturb the others. -/
theorem Orderly.turn (hb : w.book.Keyed) (ho : f.Orderly w) (ht : w.Turn f f') :
    f'.Orderly w := by
  have hkeeps := ho.keeps ht
  cases ht with
  | @works i x h move =>
      refine ⟨fun k => (move.contains k).trans (ho.placed k), ho.guarded.move move,
        (Function.forall_update_iff f.workers fun _ y => y.Sound w h.moment).2
          ⟨move.sound hb ho.placed (ho.guarded.nodup i) (ho.sound i), fun j hj => ?_⟩⟩
      refine (ho.sound j).mono hkeeps fun k hk => move.product?_of_not_held fun hki => ?_
      exact hj (ho.guarded.alone j i k hk hki)
  | elsewhere world =>
      exact ⟨ho.placed, ho.guarded, fun j => (ho.sound j).mono hkeeps fun _ _ => rfl⟩

lemma Orderly.turns (hb : w.book.Keyed) (ho : f.Orderly w) (ht : ReflTransGen w.Turn f f') :
    f'.Orderly w := by
  induction ht with
  | refl => exact ho
  | tail _ hturn ih => exact ih.turn hb hturn

lemma Reached.keyed (h : f.Reached w) : w.book.Keyed := by
  obtain ⟨f₀, hstart, -⟩ := h
  exact hstart.reached.keyed

lemma Reached.complete (h : f.Reached w) : w.book.Complete := by
  obtain ⟨f₀, hstart, -⟩ := h
  exact hstart.reached.complete

/-- What holds at the start and is kept by every turn of an orderly floor holds at all
times. -/
lemma Reached.induction {P : Floor ι σ V → Prop} (h : f.Reached w)
    (start : ∀ f, f.Starts w → P f)
    (turn : ∀ f f', f.Orderly w → P f → w.Turn f f' → P f') : f.Orderly w ∧ P f := by
  have hb := h.keyed
  obtain ⟨f₀, hstart, hturns⟩ := h
  induction hturns with
  | refl => exact ⟨hstart.orderly, start _ hstart⟩
  | tail _ hturn ih => exact ⟨ih.1.turn hb hturn, turn _ _ ih.1 ih.2 hturn⟩

/-- **Whatever the workers come to is orderly.** -/
theorem Reached.orderly (h : f.Reached w) : f.Orderly w := by
  have hb := h.keyed
  obtain ⟨f₀, hstart, hturns⟩ := h
  exact hstart.orderly.turns hb hturns

lemma Reached.after (h : f.Reached w) (ht : ReflTransGen w.Turn f f') : f'.Reached w := by
  obtain ⟨f₀, hstart, hturns⟩ := h
  exact ⟨f₀, hstart, hturns.trans ht⟩

/-- A product that is on the shelf stays where it is. -/
lemma Reached.product?_after (h : f.Reached w) (ht : ReflTransGen w.Turn f f') {k : TypeKey}
    {i : Instance V} (hi : f.hall.moment.shelf.product? k = some i) :
    f'.hall.moment.shelf.product? k = some i := by
  induction ht with
  | refl => exact hi
  | tail hbefore hturn ih => exact (h.after hbefore).orderly.keeps hturn k i ih

end Floor

end Wiring
