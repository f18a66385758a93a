/-
The visits of a survey, each with the state that it finds.

* `Survey.looks`: where the survey looks for a recipe, in order, and what it visits there;
* `Survey.met_run`: **the record of the survey is what it finds at these places**;
* `Survey.Look.Sound`, `Survey.sound_looks`: wherever it looks, the chain is the path to there
  and as long as the visits that are under way;
* `Survey.Walk.completes`: a walk leaves no recipe before all that it depends on is marked;
* `Survey.Returns`: what a visit leaves as it was, and what it has settled;
* `Survey.visits_keep_path`: **every visit finds the pending types on a path to it and leaves
  them as they were**.
-/
import Wiring.Proofs.Survey.Circles

namespace Wiring

open Relation

variable {σ V : Type}

namespace Survey

/-! ### Where a survey looks -/

/-- What makes a survey look for a recipe. -/
inductive Cause (σ V : Type) where
  /-- The recipe is the next one that the survey starts from. -/
  | root (r : Recipe σ V)
  /-- The recipe that is visited declares a dependency. -/
  | declared (r : Recipe σ V) (d : Dependency)

namespace Cause

/-- The recipe that is found, if one is. It is visited. -/
def target? (b : Book σ V) : Cause σ V → Option (Recipe σ V)
  | .root r => some r
  | .declared _ d => b.recipe? d.type.key

/-- The survey once it is through with what it has found. -/
def after (b : Book σ V) (room : ℕ) (s : Survey) : Cause σ V → Survey
  | .root r => visit b room r s
  | .declared r d =>
    match b.recipe? d.type.key with
    | none => s.note (.lacking d r.type)
    | some next => visit b room next s

/-- The part of a survey that begins there. -/
def task : Cause σ V → Task σ V
  | .root r => .roots [r]
  | .declared r d => .scan r [d]

end Cause

/-- A moment at which a survey looks for a recipe. -/
structure Look (σ V : Type) where
  /-- What makes it look. -/
  cause : Cause σ V
  /-- The number of visits that are under way. -/
  level : ℕ
  /-- How many recipes deep it may go from there. -/
  room : ℕ
  /-- What it has found so far. -/
  state : Survey

/-- Where a survey looks that follows `causes` in turn, if it looks at `below` while it visits
what it finds. -/
def looksFor (b : Book σ V) (level room : ℕ) (below : Recipe σ V → Survey → List (Look σ V)) :
    (causes : List (Cause σ V)) → Survey → List (Look σ V)
  | [], _ => []
  | c :: causes, s =>
    ⟨c, level, room, s⟩ :: (c.target? b).elim [] (below · s) ++
      looksFor b level room below causes (c.after b room s)

/-- What makes a survey look while it visits `r` for the first time. -/
def causesOf (r : Recipe σ V) : List (Cause σ V) := r.dependencies.map (.declared r)

/-- Where a survey looks during a visit, when `level` visits are under way with this one. -/
def visitLooks (b : Book σ V) :
    (room level : ℕ) → (r : Recipe σ V) → Survey → List (Look σ V)
  | 0, _, _, _ => []
  | room + 1, level, r, s =>
    match s.marks.get? r.key with
    | some _ => []
    | none =>
      looksFor b level room (visitLooks b room (level + 1)) (causesOf r) (s.enter r.type)

/-- Where the survey of a book looks, in order. -/
def looks (b : Book σ V) : List (Look σ V) :=
  looksFor b 0 (b.size + 1) (visitLooks b (b.size + 1) 1) (b.recipes.map .root) start

variable {b : Book σ V}

/-- A recipe that is visited for the first time is left once its dependencies were followed. -/
lemma visit_fresh {room : ℕ} {r : Recipe σ V} {s : Survey} (fresh : s.marks.get? r.key = none) :
    visit b (room + 1) r s =
      ((causesOf r).foldl (fun s c => c.after b room s) (s.enter r.type)).leave r.type := by
  rw [visit, fresh, causesOf, List.foldl_map]
  rfl

/-- A recipe that is pending closes a circle. -/
lemma visit_pending {room : ℕ} (hroom : 0 < room) {r : Recipe σ V} {s : Survey}
    (pending : s.marks.get? r.key = some .pending) :
    visit b room r s = s.note (s.circleTo r.type) := by
  obtain ⟨room, rfl⟩ := Nat.exists_eq_add_one.2 hroom
  rw [visit, pending]

/-- The survey follows the recipes of the book. -/
lemma run_eq (b : Book σ V) :
    run b = (b.recipes.map Cause.root).foldl (fun s c => c.after b (b.size + 1) s) start := by
  rw [run, List.foldl_map]
  rfl

/-! ### What a survey finds where it looks -/

/-- What a visit of a recipe meets first. -/
def meets (room : ℕ) (r : Recipe σ V) (s : Survey) : Encounter :=
  match room, s.marks.get? r.key with
  | 0, _ => .cutOff r.type
  | _ + 1, some .settled => .known r.type
  | _ + 1, some .pending => s.circleTo r.type
  | _ + 1, none => .entered r.type

/-- What the survey finds where it looks. -/
def Look.finds (b : Book σ V) (l : Look σ V) : Encounter :=
  match l.cause with
  | .root r => meets l.room r l.state
  | .declared r d =>
    match b.recipe? d.type.key with
    | none => .lacking d r.type
    | some next => meets l.room next l.state

/-- The steps of a record without those that leave a recipe. -/
def met (steps : List Encounter) : List Encounter :=
  steps.filter fun
    | .left _ => false
    | _ => true

lemma met_append (steps steps' : List Encounter) :
    met (steps ++ steps') = met steps ++ met steps' :=
  List.filter_append ..

/-- A survey that follows causes in turn records what it finds where it looks, if its visits
do. -/
lemma met_looksFor (level : ℕ) {room : ℕ} {below : Recipe σ V → Survey → List (Look σ V)}
    (hbelow : ∀ r s, met (visit b room r s).steps =
      met s.steps ++ meets room r s :: (below r s).map (Look.finds b))
    (causes : List (Cause σ V)) (s : Survey) :
    met (causes.foldl (fun s c => c.after b room s) s).steps =
      met s.steps ++ (looksFor b level room below causes s).map (Look.finds b) := by
  induction causes generalizing s with
  | nil => simp [looksFor]
  | cons c causes ih =>
      -- what following the first cause records, with the visit that it may lead to
      have hone : met (c.after b room s).steps = met s.steps ++
          (⟨c, level, room, s⟩ :: (c.target? b).elim [] (below · s)).map (Look.finds b) := by
        cases c with
        | root r => exact hbelow r s
        | declared r d =>
            cases hfound : b.recipe? d.type.key with
            | none =>
                simp [Cause.after, Cause.target?, Look.finds, hfound, note, met]
            | some next =>
                simp [Cause.after, Cause.target?, Look.finds, hfound, hbelow]
      rw [List.foldl_cons, ih, hone, looksFor, List.map_append, List.append_assoc]

/-- A visit records what it meets first, and then what it finds where it looks. -/
lemma met_visit (room level : ℕ) (r : Recipe σ V) (s : Survey) :
    met (visit b room r s).steps = met s.steps ++
      meets room r s :: (visitLooks b room level r s).map (Look.finds b) := by
  induction room generalizing level r s with
  | zero => exact met_append _ _
  | succ room ih =>
      cases hmark : s.marks.get? r.key with
      | none =>
          have hbelow := met_looksFor level (ih (level + 1)) (causesOf r) (s.enter r.type)
          rw [visit_fresh hmark, leave, met_append, hbelow]
          simp [visitLooks, meets, hmark, enter, met]
      | some mark =>
          cases mark <;> simp [visit, visitLooks, meets, hmark, note, met, circleTo]

/-- **The record of a survey is what it finds where it looks**, besides the recipes it leaves. -/
theorem met_run (b : Book σ V) : met (run b).steps = (looks b).map (Look.finds b) := by
  rw [run_eq, looks, met_looksFor 0 (met_visit (b.size + 1) 1)]
  rfl

/-! ### The path to where a survey looks -/

/-- What is found may be visited. -/
lemma Cause.fits_visit (hb : b.Keyed) {c : Cause σ V} {s : Survey} {r : Recipe σ V}
    (hc : c.task.Fits b s) (found : c.target? b = some r) : Task.Fits b s (.visit r) := by
  cases c with
  | root q =>
      obtain rfl : q = r := Option.some.inj found
      exact Task.fits_root hc
  | declared q d => exact Task.fits_follow hb hc found

/-- Only the chain decides where a cause may be followed. -/
lemma Cause.fits_of_chain {c : Cause σ V} {s s' : Survey} (hchain : s'.chain = s.chain)
    (hc : c.task.Fits b s) : c.task.Fits b s' := by
  cases c with
  | root r => exact ⟨hchain.trans hc.1, hc.2⟩
  | declared r d => exact ⟨hc.1, hchain ▸ hc.2.1, hc.2.2⟩

/-- To follow a cause is a walk. -/
lemma walk_after (hb : b.Keyed) {c : Cause σ V} {room : ℕ} {s : Survey} (hs : s.OnPath b)
    (hc : c.task.Fits b s) (hroom : b.size < room + s.chain.length) :
    Walk b c.task s (c.after b room s) := by
  cases c with
  | root r => exact .root (walk_visit hb room r s hs (Task.fits_root hc) hroom) .finished
  | declared r d => exact walk_scan hb (walk_visit hb room) [d] hs hc hroom

/-- A look on the path to where the survey is. -/
structure Look.Sound (b : Book σ V) (l : Look σ V) : Prop where
  /-- The pending types are those on the chain, which is a path. -/
  onPath : l.state.OnPath b
  /-- The chain is as long as the visits that are under way. -/
  level_eq : l.level = l.state.chain.length
  /-- There is room for every recipe that is not on the chain, and for one more. -/
  room_eq : l.level + l.room = b.size + 1
  /-- The chain leads to what is looked for. -/
  fits : l.cause.task.Fits b l.state

/-- There is room for all that is not on the chain. -/
lemma Look.Sound.size_lt {l : Look σ V} (h : l.Sound b) :
    b.size < l.room + l.state.chain.length := by
  have hlevel := h.level_eq
  have hroom := h.room_eq
  omega

/-- The chain is not longer than the book, so there is room for a visit. -/
lemma Look.Sound.room_pos {l : Look σ V} (h : l.Sound b) : 0 < l.room := by
  have hlt := h.size_lt
  have hle := h.onPath.length_chain_le
  omega

/-- A survey that follows causes in turn looks along the path to where it is, if its visits
do. -/
lemma sound_looksFor (hb : b.Keyed) {level room : ℕ}
    {below : Recipe σ V → Survey → List (Look σ V)} (hroom : level + room = b.size + 1)
    (hbelow : ∀ r s, s.OnPath b → Task.Fits b s (.visit r) → s.chain.length = level →
      ∀ l ∈ below r s, l.Sound b)
    (causes : List (Cause σ V)) {s : Survey} (hs : s.OnPath b)
    (hfits : ∀ c ∈ causes, c.task.Fits b s) (hlevel : s.chain.length = level) :
    ∀ l ∈ looksFor b level room below causes s, l.Sound b := by
  induction causes generalizing s with
  | nil => exact fun l hl => absurd hl List.not_mem_nil
  | cons c causes ih =>
      obtain ⟨hc, hcauses⟩ := List.forall_mem_cons.1 hfits
      have hwalk := walk_after hb hs hc (show b.size < room + s.chain.length by omega)
      -- following a cause leads back to the same chain, so the other causes still fit
      have hchain := hwalk.extends.chain
      intro l hl
      rw [looksFor, List.mem_append, List.mem_cons] at hl
      rcases hl with (rfl | hl) | hl
      · exact ⟨hs, hlevel.symm, hroom, hc⟩
      · cases htarget : c.target? b with
        | none =>
            rw [htarget] at hl
            exact absurd hl List.not_mem_nil
        | some r =>
            rw [htarget] at hl
            exact hbelow r s hs (Cause.fits_visit hb hc htarget) hlevel l hl
      · exact ih (hwalk.onPath hb hs hc)
          (fun c hmem => Cause.fits_of_chain hchain (hcauses c hmem))
          ((congrArg List.length hchain).trans hlevel) l hl

/-- A visit looks along the path to where it is. -/
lemma sound_visitLooks (hb : b.Keyed) (room level : ℕ) (hroom : level + room = b.size + 2)
    {r : Recipe σ V} {s : Survey} (hs : s.OnPath b) (hf : Task.Fits b s (.visit r))
    (hlevel : s.chain.length + 1 = level) : ∀ l ∈ visitLooks b room level r s, l.Sound b := by
  induction room generalizing level r s with
  | zero => exact fun l hl => absurd hl List.not_mem_nil
  | succ room ih =>
      rw [visitLooks]
      cases hmark : s.marks.get? r.key with
      | some mark => exact fun l hl => absurd hl List.not_mem_nil
      | none =>
          have henter := hs.enter hf.1 hmark hf.2
          have hscan := Task.fits_enter hf
          refine sound_looksFor hb (by omega) (fun q s' hs' hf' hlevel' =>
            ih (level + 1) (by omega) hs' hf' (by omega)) _ henter (fun c hc => ?_)
            (by simpa [enter] using hlevel)
          obtain ⟨d, hd, rfl⟩ := List.mem_map.1 hc
          exact ⟨hscan.1, hscan.2.1, List.cons_subset.2 ⟨hd, List.nil_subset _⟩⟩

/-- **A survey only looks along the path to where it is.** -/
theorem sound_looks (hb : b.Keyed) : ∀ l ∈ looks b, l.Sound b := by
  refine sound_looksFor hb (Nat.zero_add _) (fun r s hs hf hlevel =>
    sound_visitLooks hb _ _ (by omega) hs hf (by omega)) _ onPath_start (fun c hc => ?_) rfl
  obtain ⟨r, hr, rfl⟩ := List.mem_map.1 hc
  exact ⟨rfl, fun q hq => List.mem_singleton.1 hq ▸ hb.recipe?_of_mem hr⟩

/-! ### What is settled -/

/-- All of some dependencies that have a recipe are marked. -/
def Marked (b : Book σ V) (s : Survey) (ds : List Dependency) : Prop :=
  ∀ d ∈ ds, b.produces d.type.key → (s.marks.get? d.type.key).isSome

lemma Marked.walk {task : Task σ V} {s s' : Survey} (h : Walk b task s s')
    {ds : List Dependency} (hds : s.Marked b ds) : s'.Marked b ds :=
  fun d hd hp => h.isSome_marks (hds d hd hp)

/-- What is marked when a task is done. -/
def Task.Met (b : Book σ V) (s : Survey) : Task σ V → Prop
  | .visit r => (s.marks.get? r.key).isSome
  | .scan _ ds => s.Marked b ds
  | .roots _ => True

/-- What is settled in the second state and not in the first one has a recipe all of whose
dependencies are marked. -/
def Completes (b : Book σ V) (s s' : Survey) : Prop :=
  ∀ k, s.marks.get? k ≠ some .settled → s'.marks.get? k = some .settled →
    ∃ r, b.recipe? k = some r ∧ s'.Marked b r.dependencies

/-- Where nothing is settled, nothing is left too early. -/
lemma completes_of_marks_eq {s s' : Survey} (h : s'.marks = s.marks) : s.Completes b s' :=
  fun _ hk hk' => absurd (h ▸ hk') hk

lemma Completes.trans {task : Task σ V} {s s₁ s' : Survey} (h : s.Completes b s₁)
    (hwalk : Walk b task s₁ s') (h' : s₁.Completes b s') : s.Completes b s' := by
  intro k hk hk'
  by_cases hk₁ : s₁.marks.get? k = some .settled
  · obtain ⟨r, hr, hmarked⟩ := h k hk hk₁
    exact ⟨r, hr, hmarked.walk hwalk⟩
  · exact h' k hk₁ hk'

/-- A recipe may be left once all that it depends on is marked. -/
lemma Completes.leave {s s' : Survey} {r : Recipe σ V} (hr : b.recipe? r.key = some r)
    (hbelow : (s.enter r.type).Completes b s') (hscan : s'.Marked b r.dependencies) :
    s.Completes b (s'.leave r.type) := by
  have hkept {ds : List Dependency} (hds : s'.Marked b ds) : (s'.leave r.type).Marked b ds :=
    fun d hd hp => isSome_marks_leave r.type (hds d hd hp)
  intro k hk hk'
  -- besides what was settled below, only the type that is left is new
  by_cases hkey : k = r.type.key
  · subst hkey
    exact ⟨r, hr, hkept hscan⟩
  · rw [Survey.leave, Table.get?_insert_of_ne _ hkey] at hk'
    rw [← Table.get?_insert_of_ne s.marks hkey .pending] at hk
    obtain ⟨q, hq, hmarked⟩ := hbelow k hk hk'
    exact ⟨q, hq, hkept hmarked⟩

/-- **A walk is through with a recipe only when all that it depends on is marked.** -/
theorem Walk.completes (hb : b.Keyed) {task : Task σ V} {s s' : Survey} (h : Walk b task s s')
    (hf : task.Fits b s) : s.Completes b s' ∧ task.Met b s' := by
  induction h with
  | known settled => exact ⟨completes_of_marks_eq rfl, Option.isSome_of_eq_some settled⟩
  | circle pending => exact ⟨completes_of_marks_eq rfl, Option.isSome_of_eq_some pending⟩
  | @enter r s s' fresh below ih =>
      obtain ⟨hbelow, hscan⟩ := ih (Task.fits_enter hf)
      have hself := below.isSome_marks (isSome_marks_enter_self s r.type)
      exact ⟨hbelow.leave hf.1 hscan, isSome_marks_leave r.type hself⟩
  | scanned => exact ⟨completes_of_marks_eq rfl, fun d hd => by cases hd⟩
  | finished => exact ⟨completes_of_marks_eq rfl, trivial⟩
  | lacking absent rest ih =>
      obtain ⟨hrest, hmet⟩ := ih (Task.fits_rest hf rfl)
      -- a dependency without a recipe has nothing to be marked
      refine ⟨hrest, List.forall_mem_cons.2 ⟨fun hp => ?_, hmet⟩⟩
      rw [Book.produces_eq_false_iff.2 absent] at hp
      cases hp
  | follow found visit rest ihv ihr =>
      have hvf := Task.fits_follow hb hf found
      obtain ⟨hvisit, hmet⟩ := ihv hvf
      obtain ⟨hrest, hmets⟩ := ihr (Task.fits_rest hf visit.extends.chain)
      refine ⟨hvisit.trans rest hrest, List.forall_mem_cons.2 ⟨fun _ => ?_, hmets⟩⟩
      rw [← hb.key_of_recipe? found]
      exact rest.isSome_marks hmet
  | root visit rest ihv ihr =>
      obtain ⟨hvisit, -⟩ := ihv (Task.fits_root hf)
      obtain ⟨hrest, -⟩ := ihr (Task.fits_roots hf visit.extends.chain)
      exact ⟨hvisit.trans rest hrest, trivial⟩

/-! ### What a visit finds and what it leaves -/

/-- What a visit that leads from one state to another leaves as it was, and what it has
settled. -/
structure Returns (b : Book σ V) (s s' : Survey) : Prop where
  /-- The chain is as before. -/
  chain : s'.chain = s.chain
  /-- The same types are pending. -/
  pending_iff : ∀ k, s'.marks.get? k = some .pending ↔ s.marks.get? k = some .pending
  /-- What was settled still is. -/
  settled : ∀ k, s.marks.get? k = some .settled → s'.marks.get? k = some .settled
  /-- What is newly settled has a recipe, and each of its dependencies that has one is settled
  or pending. -/
  completed : ∀ k, s.marks.get? k ≠ some .settled → s'.marks.get? k = some .settled →
    ∃ r, b.recipe? k = some r ∧ ∀ d ∈ r.dependencies, b.produces d.type.key →
      s'.marks.get? d.type.key = some .settled ∨ s'.marks.get? d.type.key = some .pending

/-- Every visit on the path returns to where it was called. -/
lemma Walk.returns (hb : b.Keyed) {r : Recipe σ V} {s s' : Survey} (h : Walk b (.visit r) s s')
    (hs : s.OnPath b) (hf : Task.Fits b s (.visit r)) : s.Returns b s' where
  chain := h.extends.chain
  pending_iff k := by
    rw [(h.onPath hb hs hf).pending_iff, hs.pending_iff, h.extends.chain]
  settled := h.extends.settled
  completed k hk hk' := by
    obtain ⟨q, hq, hmarked⟩ := (h.completes hb hf).1 k hk hk'
    refine ⟨q, hq, fun d hd hp => ?_⟩
    obtain ⟨mark, hmark⟩ := Option.isSome_iff_exists.1 (hmarked d hd hp)
    cases mark with
    | settled => exact .inl hmark
    | pending => exact .inr hmark

/-- A pending type that is met has its place on the chain, which ends with a type. -/
lemma OnPath.circle_found {s : Survey} (h : s.OnPath b) {r : Recipe σ V}
    (hr : b.recipe? r.key = some r) (pending : s.marks.get? r.key = some .pending) :
    ∃ place origin, s.chain.idxOf? r.type = some place ∧ s.chain.getLast? = some origin ∧
      s.circleTo r.type = .circle origin r.type (s.chain.drop place ++ [r.type]) := by
  have hmem := h.mem_chain hr pending
  obtain ⟨place, hplace⟩ := Option.isSome_iff_exists.1 (List.isSome_idxOf?.2 hmem)
  obtain ⟨origin, horigin⟩ : ∃ origin, s.chain.getLast? = some origin :=
    Option.isSome_iff_exists.1 (by simpa using List.ne_nil_of_mem hmem)
  exact ⟨place, origin, hplace, horigin, by simp [circleTo, hplace, horigin]⟩

/-- **Every visit finds the pending types on a path to it and leaves them as they were.** What
the survey of a book finds where it looks is all that it records, besides the recipes it leaves.
Wherever it visits a recipe, the pending types are those on the chain, no type stands there
twice, each entry declares the next one as a dependency, and the last one declares what is
visited. When the visit returns, the chain and the pending types are as before, nothing settled
was forgotten, and what is newly settled has all its dependencies with a recipe settled or
pending. So a recipe that is met while it is pending has a place on the chain, and the circle
that is reported runs from there to the end of the chain. -/
theorem visits_keep_path (c : Component σ V) (requiredExports : List TypeRef) :
    let b := Book.of c requiredExports
    met (run b).steps = (looks b).map (Look.finds b) ∧
    ∀ l ∈ looks b, ∀ r, l.cause.target? b = some r →
      let s := l.state
      let s' := visit b l.room r s
      s.OnPath b ∧ (∀ t ∈ s.chain.getLast?, b.DependsOn t.key r.key) ∧
      s.Returns b s' ∧
      (s.marks.get? r.key = some .pending → ∃ place origin,
        s.chain.idxOf? r.type = some place ∧ s.chain.getLast? = some origin ∧
        s' = s.note (.circle origin r.type (s.chain.drop place ++ [r.type]))) := by
  intro b
  refine ⟨met_run b, fun l hl r htarget => ?_⟩
  intro s s'
  have hb : b.Keyed := Book.keyed_of c requiredExports
  have hl := sound_looks hb l hl
  have hf := Cause.fits_visit hb hl.fits htarget
  have hwalk : Walk b (.visit r) s s' := walk_visit hb l.room r s hl.onPath hf hl.size_lt
  refine ⟨hl.onPath, hf.2, hwalk.returns hb hl.onPath hf, fun pending => ?_⟩
  obtain ⟨place, origin, hplace, horigin, hcircle⟩ := hl.onPath.circle_found hf.1 pending
  exact ⟨place, origin, hplace, horigin, hcircle ▸ visit_pending hl.room_pos pending⟩

/-- The second circle of the tangle is met when three visits are under way. -/
theorem visits_keep_path_tangle :
    let b := Book.of Book.tangle []
    ∃ l ∈ looks b, l.cause.target? b = some (Book.knot 0 [1]) ∧
      l.state.chain = [0, 1, 2].map (fun n => .of (.product n)) ∧
      l.state.Returns b (visit b l.room (Book.knot 0 [1]) l.state) ∧
      ∃ place origin, l.state.chain.idxOf? (.of (.product 0)) = some place ∧
        l.state.chain.getLast? = some origin ∧
        visit b l.room (Book.knot 0 [1]) l.state = l.state.note (.circle origin
          (.of (.product 0)) (l.state.chain.drop place ++ [.of (.product 0)])) := by
  intro b
  obtain ⟨l, hl, htarget, hchain, hpending⟩ : ∃ l ∈ looks b,
      l.cause.target? b = some (Book.knot 0 [1]) ∧
      l.state.chain = [0, 1, 2].map (fun n => .of (.product n)) ∧
      l.state.marks.get? (.product 0) = some .pending :=
    ⟨_, List.mem_of_getElem? (i := 5) rfl, rfl, rfl, rfl⟩
  obtain ⟨-, -, hreturns, hcircle⟩ := (visits_keep_path Book.tangle []).2 l hl _ htarget
  exact ⟨l, hl, htarget, hchain, hreturns, hcircle hpending⟩

end Survey

end Wiring
