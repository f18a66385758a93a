/-
The effort of a survey.

* `Survey.Look.scans?`: the recipe whose dependencies the survey goes through after a look;
* `Survey.Answers`, `Survey.answers_looks`: the survey looks for the recipes of the book and for
  the dependencies of all that it goes through;
* `Survey.scans_looks_perm`, `Survey.cause_looks_perm`: it goes through the dependencies of every
  recipe once, so it looks once for each declared dependency;
* `Survey.Look.Bounded`: the bounds on the chain and on the depth of the visits;
* `Book.defects_eq`, `Survey.Look.Sound.defect?_of_root`: a look uncovers at most one defect, and
  none where the survey starts from;
* `Book.survey_linear`: **the survey of a book takes as many visits as the book has recipes and
  dependencies with a recipe**, none of them deeper than the book.
-/
import Wiring.Proofs.Survey.Visits

namespace Wiring

variable {σ V : Type}

namespace Survey

/-! ### What is gone through -/

/-- The recipe whose dependencies a visit goes through, if nothing has visited it before. -/
def scanned? (room : ℕ) (r : Recipe σ V) (s : Survey) : Option (Recipe σ V) :=
  match meets room r s with
  | .entered _ => some r
  | _ => none

/-- The recipe whose dependencies the survey goes through after a look. -/
def Look.scans? (b : Book σ V) (l : Look σ V) : Option (Recipe σ V) :=
  (l.cause.target? b).bind (scanned? l.room · l.state)

/-- The dependency that is looked for, if one is. -/
def Cause.dependency? : Cause σ V → Option Dependency
  | .root _ => none
  | .declared _ d => some d

/-- What is gone through is the recipe that is visited, if nothing has marked it. -/
lemma scanned?_eq_some {room : ℕ} {r q : Recipe σ V} {s : Survey}
    (h : scanned? room r s = some q) : s.marks.get? r.key = none ∧ r = q := by
  cases room with
  | zero => cases h
  | succ room =>
      cases hmark : s.marks.get? r.key with
      | none =>
          simp only [scanned?, meets, hmark] at h
          exact ⟨rfl, Option.some.inj h⟩
      | some mark =>
          cases mark <;> simp [scanned?, meets, hmark, circleTo] at h

variable {b : Book σ V}

/-- The looks are for `causes`, and for the dependencies of all recipes that are gone through
after one of them. -/
def Answers (b : Book σ V) (causes : List (Cause σ V)) (looks : List (Look σ V)) : Prop :=
  (looks.map Look.cause).Perm (causes ++ (looks.filterMap (Look.scans? b)).flatMap causesOf)

lemma Answers.append {causes causes' : List (Cause σ V)} {looks looks' : List (Look σ V)}
    (h : Answers b causes looks) (h' : Answers b causes' looks') :
    Answers b (causes ++ causes') (looks ++ looks') := by
  rw [Answers, List.map_append, List.filterMap_append, List.flatMap_append, List.append_assoc]
  refine (List.Perm.append h h').trans ?_
  rw [List.append_assoc]
  exact (List.perm_append_comm_assoc ..).append_left _

/-- After a look the dependencies are looked for of what is gone through. -/
lemma Answers.cons {l : Look σ V} {below : List (Look σ V)}
    (h : Answers b ((l.scans? b).toList.flatMap causesOf) below) :
    Answers b [l.cause] (l :: below) := by
  have hscans : ((l :: below).filterMap (Look.scans? b)) =
      (l.scans? b).toList ++ below.filterMap (Look.scans? b) := by
    cases hscan : l.scans? b <;> simp [hscan]
  rw [Answers, hscans, List.flatMap_append]
  exact List.Perm.cons _ h

/-- A survey that follows causes in turn answers these, if its visits answer the dependencies of
what they go through. -/
lemma answers_looksFor {level room : ℕ} {below : Recipe σ V → Survey → List (Look σ V)}
    (hbelow : ∀ r s, Answers b ((scanned? room r s).toList.flatMap causesOf) (below r s))
    (causes : List (Cause σ V)) (s : Survey) :
    Answers b causes (looksFor b level room below causes s) := by
  induction causes generalizing s with
  | nil => exact .refl _
  | cons c causes ih =>
      -- the first look and what is looked for below it, apart from the other causes
      have hlook : Answers b [c] (⟨c, level, room, s⟩ :: (c.target? b).elim [] (below · s)) := by
        refine Answers.cons ?_
        rw [Look.scans?]
        cases c.target? b with
        | none => exact .refl _
        | some r => exact hbelow r s
      exact hlook.append (ih _)

/-- A visit answers the dependencies of what it goes through. -/
lemma answers_visitLooks (room level : ℕ) (r : Recipe σ V) (s : Survey) :
    Answers b ((scanned? room r s).toList.flatMap causesOf) (visitLooks b room level r s) := by
  induction room generalizing level r s with
  | zero => exact .refl _
  | succ room ih =>
      cases hmark : s.marks.get? r.key with
      | none =>
          have hscans : (scanned? (room + 1) r s).toList.flatMap causesOf = causesOf r := by
            simp [scanned?, meets, hmark]
          rw [visitLooks, hmark, hscans]
          exact answers_looksFor (ih (level + 1)) (causesOf r) (s.enter r.type)
      | some mark =>
          have hscans : scanned? (room + 1) r s = none := by
            cases mark <;> simp [scanned?, meets, hmark, circleTo]
          rw [visitLooks, hmark, hscans]
          exact .refl _

/-- A survey looks for the recipes of the book and for the dependencies of what it goes
through. -/
lemma answers_looks (b : Book σ V) : Answers b (b.recipes.map .root) (looks b) :=
  answers_looksFor (answers_visitLooks (b.size + 1) 1) _ _

/-! ### What is found -/

/-- Where a recipe is found, the look finds what its visit meets first. -/
lemma Look.finds_of_target {l : Look σ V} {r : Recipe σ V} (h : l.cause.target? b = some r) :
    l.finds b = meets l.room r l.state := by
  rw [finds]
  cases hcause : l.cause with
  | root q =>
      rw [hcause] at h
      cases h
      rfl
  | declared q d =>
      rw [hcause, Cause.target?] at h
      simp only [h]

/-- Where none is found, a dependency is lacking. -/
lemma Look.finds_of_target_eq_none {l : Look σ V} (h : l.cause.target? b = none) :
    ∃ r d, l.cause = .declared r d ∧ l.finds b = .lacking d r.type := by
  rw [finds]
  cases hcause : l.cause with
  | root q => rw [hcause] at h; cases h
  | declared q d =>
      rw [hcause, Cause.target?] at h
      exact ⟨q, d, rfl, by simp only [h]⟩

/-- A recipe is gone through exactly when its visit enters it. -/
lemma entered_finds (l : Look σ V) :
    entered [l.finds b] = (l.scans? b).toList.map Recipe.type := by
  rw [Look.scans?]
  cases htarget : l.cause.target? b with
  | none =>
      obtain ⟨r, d, -, hfinds⟩ := Look.finds_of_target_eq_none htarget
      rw [hfinds]
      rfl
  | some r =>
      rw [Look.finds_of_target htarget, Option.bind_some, scanned?]
      unfold meets
      split <;> rfl

/-- What is entered is what is gone through. -/
lemma entered_map_finds (looks : List (Look σ V)) :
    entered (looks.map (Look.finds b)) = (looks.filterMap (Look.scans? b)).map Recipe.type := by
  induction looks with
  | nil => rfl
  | cons l looks ih =>
      rw [List.map_cons, ← List.singleton_append, entered_append, entered_finds, ih]
      cases hscan : l.scans? b <;> simp [hscan]

/-- Leaving a recipe enters none. -/
lemma entered_met (steps : List Encounter) : entered (met steps) = entered steps := by
  rw [entered, met, List.filterMap_filter]
  refine List.filterMap_congr fun step _ => ?_
  cases step <;> rfl

/-- What a look goes through was found. -/
lemma Look.target_of_scans {l : Look σ V} {r : Recipe σ V} (h : l.scans? b = some r) :
    l.cause.target? b = some r := by
  obtain ⟨q, htarget, hscan⟩ := Option.bind_eq_some_iff.1 h
  exact htarget.trans (congrArg some (scanned?_eq_some hscan).2)

/-- **A survey goes through the dependencies of every recipe of the book, once.** -/
theorem scans_looks_perm (hb : b.Keyed) :
    ((looks b).filterMap (Look.scans? b)).Perm b.recipes := by
  have htypes : (((looks b).filterMap (Look.scans? b)).map Recipe.type).Perm
      (b.recipes.map Recipe.type) := by
    rw [← entered_map_finds, ← met_run, entered_met]
    exact entered_run_perm hb
  have hkeys : (((looks b).filterMap (Look.scans? b)).map Recipe.key).Perm
      (b.recipes.map Recipe.key) := by
    have hmap := htypes.map TypeRef.key
    rwa [List.map_map, List.map_map] at hmap
  -- by its type each of them is found again
  have hfound : ∀ r ∈ (looks b).filterMap (Look.scans? b), b.recipe? r.key = some r := by
    intro r hr
    obtain ⟨l, hl, hscan⟩ := List.mem_filterMap.1 hr
    exact (Cause.fits_visit hb (sound_looks hb l hl).fits (Look.target_of_scans hscan)).1
  have hperm := hkeys.filterMap b.recipe?
  rwa [Book.filterMap_recipe? hfound,
    Book.filterMap_recipe? fun r hr => hb.recipe?_of_mem hr] at hperm

/-- **A survey looks once for each recipe of the book and once for each declared dependency.** -/
theorem cause_looks_perm (hb : b.Keyed) :
    ((looks b).map Look.cause).Perm (b.recipes.map .root ++ b.recipes.flatMap causesOf) :=
  (answers_looks b).trans (((scans_looks_perm hb).flatMap_right causesOf).append_left _)

/-- What is read off the causes of the looks is what is read off the recipes and their
dependencies. -/
lemma filterMap_cause_looks_perm (hb : b.Keyed) {α : Type} (f : Cause σ V → Option α) :
    ((looks b).filterMap fun l => f l.cause).Perm
      (b.recipes.filterMap (fun r => f (.root r)) ++
        b.recipes.flatMap fun r => r.dependencies.filterMap fun d => f (.declared r d)) := by
  have hperm := (cause_looks_perm hb).filterMap f
  rw [List.filterMap_map, List.filterMap_append, List.filterMap_map,
    List.filterMap_flatMap] at hperm
  simpa only [causesOf, List.filterMap_map, Function.comp_def] using hperm

/-- The dependencies that a survey looks for are those that the recipes declare. -/
lemma dependency_looks_perm (hb : b.Keyed) :
    ((looks b).filterMap fun l => l.cause.dependency?).Perm
      (b.recipes.flatMap Recipe.dependencies) := by
  have hperm := filterMap_cause_looks_perm hb Cause.dependency?
  simpa [Cause.dependency?] using hperm

/-- **The visits of a survey** are as many as the recipes and the declared dependencies that have
one. -/
theorem length_visits (hb : b.Keyed) :
    ((looks b).filterMap fun l => l.cause.target? b).length = b.recipes.length +
      (b.recipes.flatMap Recipe.dependencies).countP fun d => b.produces d.type.key := by
  have hperm := filterMap_cause_looks_perm hb (Cause.target? b)
  have hdeclared : (b.recipes.flatMap fun r => r.dependencies.filterMap fun d =>
      (Cause.declared r d).target? b) =
        (b.recipes.flatMap Recipe.dependencies).filterMap fun d => b.recipe? d.type.key := by
    rw [List.filterMap_flatMap]
    rfl
  rw [hdeclared] at hperm
  have hroots : (b.recipes.filterMap fun r => (Cause.root r).target? b) = b.recipes :=
    List.filterMap_some
  rw [hroots] at hperm
  rw [hperm.length_eq, List.length_append, List.length_filterMap_eq_countP]
  rfl

/-! ### The bounds -/

/-- A look that keeps to the bounds of the book. -/
structure Look.Bounded (b : Book σ V) (l : Look σ V) : Prop where
  /-- Just the visits are under way of the types on the chain. -/
  level_eq : l.level = l.state.chain.length
  /-- The chain is not longer than the book. -/
  chain_le : l.state.chain.length ≤ b.recipes.length
  /-- Nor is it when the recipe is entered that is gone through next. -/
  enter_le : ∀ r, l.scans? b = some r →
    (l.state.enter r.type).chain.length ≤ b.recipes.length
  /-- With the visit that is made, no more visits are under way than there are recipes, and one
  more. -/
  depth_le : ∀ r, l.cause.target? b = some r → l.level + 1 ≤ b.recipes.length + 1
  /-- The visit is not cut off. -/
  room_pos : 0 < l.room

/-- Where a recipe is gone through, nothing has marked it. -/
lemma Look.fresh_of_scans {l : Look σ V} {r : Recipe σ V} (h : l.scans? b = some r) :
    l.state.marks.get? r.key = none := by
  rw [scans?, target_of_scans h] at h
  exact (scanned?_eq_some h).1

lemma Look.Sound.bounded (hb : b.Keyed) {l : Look σ V} (h : l.Sound b) : l.Bounded b := by
  have hsize : b.size = b.recipes.length := (List.length_map _).symm
  have hchain := h.onPath.length_chain_le
  refine ⟨h.level_eq, hsize ▸ hchain, fun r hscan => ?_, fun r _ => ?_, h.room_pos⟩
  · have hf := Cause.fits_visit hb h.fits (Look.target_of_scans hscan)
    exact hsize ▸ (h.onPath.enter hf.1 (Look.fresh_of_scans hscan) hf.2).length_chain_le
  · have hlevel := h.level_eq
    omega

/-! ### The defects that are found -/

/-- Where the survey starts from a recipe, nothing is pending, so nothing is wrong. -/
lemma Look.Sound.defect?_of_root {l : Look σ V} (h : l.Sound b) {r : Recipe σ V}
    (hcause : l.cause = .root r) : (l.finds b).defect? = none := by
  have hfits : Task.Fits b l.state (.roots [r]) := by
    have hf := h.fits
    rwa [hcause] at hf
  have hfree : l.state.marks.get? r.key ≠ some .pending := by
    rw [Ne, h.onPath.pending_iff, hfits.1]
    exact List.not_mem_nil
  rw [Look.finds_of_target (r := r) (by rw [hcause]; rfl)]
  unfold meets
  split
  · rfl
  · rfl
  · exact absurd ‹_› hfree
  · rfl

end Survey

namespace Book

open Survey

variable {b : Book σ V}

/-- The defects of a book are the exports that have no recipe, and what the survey finds where it
looks. -/
theorem defects_eq (b : Book σ V) :
    b.defects = (b.requiredExports.filter fun t => !b.produces t.key).map .missingExport ++
      (looks b).filterMap fun l => (l.finds b).defect? := by
  have hmet : (run b).steps.filterMap Encounter.defect? =
      (met (run b).steps).filterMap Encounter.defect? := by
    rw [met, List.filterMap_filter]
    refine List.filterMap_congr fun step _ => ?_
    cases step <;> rfl
  rw [defects, hmet, met_run, List.filterMap_map]
  rfl

/-- There are not more defects than exports and declared dependencies. -/
lemma length_defects_le (hb : b.Keyed) :
    b.defects.length ≤
      b.requiredExports.length + (b.recipes.flatMap Recipe.dependencies).length := by
  have hexports : ((b.requiredExports.filter fun t => !b.produces t.key).map
      Defect.missingExport).length ≤ b.requiredExports.length := by
    rw [List.length_map]
    exact List.length_filter_le ..
  have hfound : ((looks b).filterMap fun l => (l.finds b).defect?).length ≤
      (b.recipes.flatMap Recipe.dependencies).length := by
    rw [← (dependency_looks_perm hb).length_eq, List.length_filterMap_eq_countP,
      List.length_filterMap_eq_countP]
    refine List.countP_mono_left fun l hl hdefect => ?_
    -- what is found where the survey starts from a recipe is no defect
    cases hcause : l.cause with
    | declared => rfl
    | root r =>
        rw [(sound_looks hb l hl).defect?_of_root hcause] at hdefect
        cases hdefect
  rw [defects_eq, List.length_append]
  omega

/-- **The effort of the check of a book is linear**, whatever its dependencies are. The record of
its survey is what it finds where it looks. It goes through the dependencies of each recipe
once, and looks once for each recipe and once for each dependency that is declared, so its
visits are as many as the recipes and the declared dependencies that have one. The chain is
never longer than the list of recipes, and not more visits are under way at a time than that and
one more. Besides the exports that have no recipe, the defects are what is found at these
places: at most one for each declared dependency, and none for a recipe that the survey starts
from. So there are not more defects than exports and declared dependencies. -/
theorem survey_linear (c : Component σ V) (requiredExports : List TypeRef) :
    let b := Book.of c requiredExports
    met (run b).steps = (looks b).map (Look.finds b) ∧
    ((looks b).filterMap (Look.scans? b)).Perm b.recipes ∧
    ((looks b).map Look.cause).Perm (b.recipes.map .root ++
      b.recipes.flatMap fun r => r.dependencies.map (.declared r)) ∧
    ((looks b).filterMap fun l => l.cause.target? b).length = b.recipes.length +
      (b.recipes.flatMap Recipe.dependencies).countP (fun d => b.produces d.type.key) ∧
    (∀ l ∈ looks b, l.Bounded b) ∧
    b.defects = ((requiredExports.filter fun t => !b.produces t.key).map .missingExport ++
      (looks b).filterMap fun l => (l.finds b).defect?) ∧
    (∀ l ∈ looks b, ∀ r, l.cause = .root r → (l.finds b).defect? = none) ∧
    b.defects.length ≤
      requiredExports.length + (b.recipes.flatMap Recipe.dependencies).length := by
  intro b
  have hb : b.Keyed := keyed_of c requiredExports
  exact ⟨met_run b, scans_looks_perm hb, cause_looks_perm hb, length_visits hb,
    fun l hl => (sound_looks hb l hl).bounded hb, defects_eq b,
    fun l hl r hroot => (sound_looks hb l hl).defect?_of_root hroot, length_defects_le hb⟩

/-- The four recipes of the tangle and the six dependencies that have one take ten visits. Of the
seven dependencies three close circles and one is lacking. -/
theorem survey_linear_tangle :
    let b := Book.of tangle []
    ((looks b).filterMap fun l => l.cause.target? b).length = 10 ∧
    ((looks b).filterMap (Look.scans? b)).Perm b.recipes ∧
    (∀ l ∈ looks b, l.state.chain.length ≤ 4) ∧
    b.defects.length = 4 ∧ b.defects.length ≤ 7 := by
  intro b
  obtain ⟨-, hscans, -, hvisits, hbounded, -, -, hdefects⟩ := survey_linear tangle []
  exact ⟨hvisits, hscans, fun l hl => (hbounded l hl).chain_le, by decide, hdefects⟩

end Book

end Wiring
