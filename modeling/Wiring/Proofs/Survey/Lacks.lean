/-
The types that a survey reports as missing.

* `Survey.entered`, `Survey.lacked`: the recipes a record has entered and the lacks it has
  noted;
* `Survey.Walk.lacked_perm`: **a walk notes the lacks of the recipes it enters**, each as
  often as it is declared;
* `Survey.Visited`, `Survey.Walk.visited`: no recipe is entered twice, and just the marked
  types were entered;
* `Survey.entered_run_perm`: so the whole survey enters each recipe of the book once;
* `Book.lack_perm`, `Book.missing_perm`: **whatever the order of the walk, the missing types are
  those that the exports and the recipes lack**;
* `Book.check_eq_error_iff`: a check that fails reports all defects;
* `Book.circular_mem_defects_iff`, `Book.hasCircle_iff`: the circles among the defects, and
  whether there is one at all;
* `Book.check_eq_ok_iff_missing`: there are no defects besides circles and missing types.
-/
import Mathlib.Data.List.Nodup
import Wiring.Proofs.Survey.Completeness

namespace Wiring

variable {σ V : Type}

/-- What is missing and the type that needs it, if a recipe needs it. -/
def Defect.lack? : Defect → Option (TypeRef × TypeRef)
  | .missingDependency dependency requiredBy => some (dependency, requiredBy)
  | .missingExport _ | .circular .. => none

namespace Survey

/-- The recipes a record has entered, by their types. -/
def entered (steps : List Encounter) : List TypeRef :=
  steps.filterMap fun
    | .entered type => some type
    | _ => none

/-- The lacks a record has noted, with the types that declare them. -/
def lacked (steps : List Encounter) : List (Dependency × TypeRef) :=
  steps.filterMap fun
    | .lacking d requiredBy => some (d, requiredBy)
    | _ => none

lemma entered_append (steps steps' : List Encounter) :
    entered (steps ++ steps') = entered steps ++ entered steps' :=
  List.filterMap_append

lemma lacked_append (steps steps' : List Encounter) :
    lacked (steps ++ steps') = lacked steps ++ lacked steps' :=
  List.filterMap_append

end Survey

namespace Book

/-- Those of some dependencies that have no recipe, each with the type that declares it. -/
def lacks (b : Book σ V) (requiredBy : TypeRef) (ds : List Dependency) :
    List (Dependency × TypeRef) :=
  (ds.filter fun d => !b.produces d.type.key).map (·, requiredBy)

/-- The lacks of the recipe for a type. -/
def lacksOf (b : Book σ V) (type : TypeRef) : List (Dependency × TypeRef) :=
  (b.recipe? type.key).toList.flatMap fun r => b.lacks r.type r.dependencies

variable {b : Book σ V}

lemma lacks_cons_of_absent {d : Dependency} (h : b.recipe? d.type.key = none)
    (requiredBy : TypeRef) (ds : List Dependency) :
    b.lacks requiredBy (d :: ds) = (d, requiredBy) :: b.lacks requiredBy ds := by
  simp [lacks, produces, h]

lemma lacks_cons_of_found {d : Dependency} {q : Recipe σ V}
    (h : b.recipe? d.type.key = some q) (requiredBy : TypeRef) (ds : List Dependency) :
    b.lacks requiredBy (d :: ds) = b.lacks requiredBy ds := by
  simp [lacks, produces, h]

lemma lacksOf_eq {r : Recipe σ V} (h : b.recipe? r.key = some r) :
    b.lacksOf r.type = b.lacks r.type r.dependencies := by
  have hfound : b.recipe? r.type.key = some r := h
  simp [lacksOf, hfound]

end Book

namespace Survey

variable {b : Book σ V}

/-! ### The lacks a walk notes -/

/-- The lacks a task has to note besides those of the recipes it enters. -/
def Task.lacks (b : Book σ V) : Task σ V → List (Dependency × TypeRef)
  | .scan r ds => b.lacks r.type ds
  | .visit _ | .roots _ => []

/-- **A walk notes the lacks of the recipes it enters**, and those of the dependencies it was
to go through. -/
theorem Walk.lacked_perm (hb : b.Keyed) {task : Task σ V} {s s' : Survey}
    (h : Walk b task s s') (hf : task.Fits b s) :
    ∃ new, s'.steps = s.steps ++ new ∧
      (lacked new).Perm ((entered new).flatMap b.lacksOf ++ task.lacks b) := by
  induction h with
  | known | circle => exact ⟨_, rfl, .refl _⟩
  | @enter r s s' _ _ ih =>
      obtain ⟨new, hnew, hperm⟩ := ih (Task.fits_enter hf)
      refine ⟨[.entered r.type] ++ new ++ [.left r.type], ?_, ?_⟩
      · simp [Survey.leave, hnew, Survey.enter]
      · -- what its own dependencies lack is now what an entered recipe lacks
        have hlacked : lacked ([.entered r.type] ++ new ++ [.left r.type]) = lacked new := by
          simp [lacked]
        have hentered : entered ([.entered r.type] ++ new ++ [.left r.type]) =
            r.type :: entered new := by
          simp [entered]
        rw [hlacked, hentered, List.flatMap_cons, Book.lacksOf_eq hf.1, Task.lacks,
          List.append_nil]
        exact hperm.trans List.perm_append_comm
  | scanned | finished => exact ⟨[], (List.append_nil _).symm, .refl _⟩
  | @lacking r d ds s s' absent _ ih =>
      obtain ⟨new, hnew, hperm⟩ := ih (Task.fits_rest hf rfl)
      refine ⟨.lacking d r.type :: new, by simp [hnew, note], ?_⟩
      rw [Task.lacks, Book.lacks_cons_of_absent absent]
      exact (hperm.cons _).trans List.perm_middle.symm
  | @follow r q d ds s s₁ s' found visit _ ihv ihr =>
      obtain ⟨new, hnew, hperm⟩ := ihv (Task.fits_follow hb hf found)
      obtain ⟨later, hlater, hperm'⟩ := ihr (Task.fits_rest hf visit.extends.chain)
      refine ⟨new ++ later, by rw [hlater, hnew, List.append_assoc], ?_⟩
      rw [Task.lacks, List.append_nil] at hperm
      rw [lacked_append, entered_append, List.flatMap_append, List.append_assoc, Task.lacks,
        Book.lacks_cons_of_found found]
      exact hperm.append hperm'
  | @root r rs s s₁ s' visit _ ihv ihr =>
      obtain ⟨new, hnew, hperm⟩ := ihv (Task.fits_root hf)
      obtain ⟨later, hlater, hperm'⟩ := ihr (Task.fits_roots hf visit.extends.chain)
      refine ⟨new ++ later, by rw [hlater, hnew, List.append_assoc], ?_⟩
      rw [Task.lacks, List.append_nil] at hperm
      rw [Task.lacks, List.append_nil] at hperm'
      rw [lacked_append, entered_append, List.flatMap_append, Task.lacks, List.append_nil]
      exact hperm.append hperm'

/-! ### The recipes a walk enters -/

/-- No type was entered twice, just the marked types were entered, and all of them stand for
recipes of the book. -/
structure Visited (b : Book σ V) (s : Survey) : Prop where
  nodup : ((entered s.steps).map TypeRef.key).Nodup
  marked_iff : ∀ k, (s.marks.get? k).isSome ↔ k ∈ (entered s.steps).map TypeRef.key
  held : ∀ t ∈ entered s.steps, ∃ r ∈ b.recipes, r.type = t

lemma visited_start : start.Visited b :=
  ⟨List.nodup_nil, fun k => by simp [start, entered], fun t ht => by cases ht⟩

/-- A step that enters nothing and marks nothing new. -/
lemma Visited.note {s : Survey} (h : s.Visited b) {step : Encounter}
    (hstep : entered [step] = []) : (s.note step).Visited b := by
  have hsame : entered (s.note step).steps = entered s.steps := by
    rw [Survey.note, entered_append, hstep, List.append_nil]
  refine ⟨?_, fun k => ?_, ?_⟩
  · rw [hsame]
    exact h.nodup
  · rw [hsame]
    exact h.marked_iff k
  · rw [hsame]
    exact h.held

/-- A recipe that is not marked yet may be entered. -/
lemma Visited.enter (hb : b.Keyed) {s : Survey} (h : s.Visited b) {r : Recipe σ V}
    (hr : b.recipe? r.key = some r) (fresh : s.marks.get? r.key = none) :
    (s.enter r.type).Visited b := by
  have hnew : r.key ∉ (entered s.steps).map TypeRef.key := fun hmem => by
    rw [← h.marked_iff, fresh] at hmem
    cases hmem
  have hsteps : entered (s.enter r.type).steps = entered s.steps ++ [r.type] :=
    entered_append _ _
  refine ⟨?_, fun k => ?_, fun t ht => ?_⟩
  · rw [hsteps, List.map_append, List.nodup_append]
    refine ⟨h.nodup, by simp, fun k hk u hu => ?_⟩
    rintro rfl
    obtain rfl : k = r.key := List.mem_singleton.1 hu
    exact hnew hk
  · rw [hsteps, List.map_append, List.mem_append, ← h.marked_iff, Survey.enter,
      Table.get?_insert, List.map_singleton, List.mem_singleton]
    split <;> simp [*]
  · rw [hsteps, List.mem_append, List.mem_singleton] at ht
    rcases ht with ht | rfl
    · exact h.held t ht
    · exact ⟨r, (hb.recipe?_eq_some_iff.1 hr).1, rfl⟩

/-- A type that was entered may be left. -/
lemma Visited.leave {s : Survey} (h : s.Visited b) {type : TypeRef}
    (marked : (s.marks.get? type.key).isSome) : (s.leave type).Visited b := by
  have hsame : entered (s.leave type).steps = entered s.steps := by
    rw [Survey.leave, entered_append]
    exact List.append_nil _
  refine ⟨?_, fun k => ?_, ?_⟩
  · rw [hsame]
    exact h.nodup
  · rw [hsame, ← h.marked_iff, Survey.leave, Table.get?_insert]
    split
    · rename_i hk
      simpa [hk] using marked
    · exact Iff.rfl
  · rw [hsame]
    exact h.held

/-- **Every walk enters each recipe once**, and marks what it enters. -/
theorem Walk.visited (hb : b.Keyed) {task : Task σ V} {s s' : Survey} (h : Walk b task s s')
    (hf : task.Fits b s) (hs : s.Visited b) : s'.Visited b := by
  induction h with
  | known | circle => exact hs.note rfl
  | enter fresh below ih =>
      have hself := below.isSome_marks (isSome_marks_enter_self _ _)
      exact (ih (Task.fits_enter hf) (hs.enter hb hf.1 fresh)).leave hself
  | scanned | finished => exact hs
  | lacking _ _ ih => exact ih (Task.fits_rest hf rfl) (hs.note rfl)
  | follow found visit _ ihv ihr =>
      exact ihr (Task.fits_rest hf visit.extends.chain) (ihv (Task.fits_follow hb hf found) hs)
  | root visit _ ihv ihr =>
      exact ihr (Task.fits_roots hf visit.extends.chain) (ihv (Task.fits_root hf) hs)

/-! ### The whole survey -/

/-- The whole survey enters each recipe of the book, once. -/
theorem entered_run_perm (hb : b.Keyed) :
    (entered (run b).steps).Perm (b.recipes.map Recipe.type) := by
  have hfits : Task.Fits b start (.roots b.recipes) := ⟨rfl, fun _ hr => hb.recipe?_of_mem hr⟩
  have hvisited := (walk_run hb).visited hb hfits visited_start
  obtain ⟨-, hsettled⟩ := recorded_run hb
  have hkeys : b.recipes.map Recipe.key = b.byType.keys := by
    rw [Book.recipes, Table.values, List.map_map, Table.keys]
    exact List.map_congr_left hb.key_eq
  have hnodup : (b.recipes.map Recipe.type).Nodup := by
    refine List.Nodup.of_map TypeRef.key ?_
    rw [List.map_map]
    exact hkeys ▸ hb.nodup
  refine (List.perm_ext_iff_of_nodup (hvisited.nodup.of_map _) hnodup).2 fun t => ?_
  rw [List.mem_map]
  constructor
  · exact hvisited.held t
  · rintro ⟨r, hr, rfl⟩
    -- the type of every recipe is marked, so something with its key was entered
    have hmarked : ((run b).marks.get? r.key).isSome := by
      rw [hsettled r hr]
      rfl
    obtain ⟨t, ht, hkey⟩ := List.mem_map.1 ((hvisited.marked_iff _).1 hmarked)
    obtain ⟨q, hq, rfl⟩ := hvisited.held t ht
    have hsame : q = r := by
      have hfound := hb.recipe?_of_mem hq
      rw [show q.key = r.key from hkey, hb.recipe?_of_mem hr] at hfound
      exact (Option.some.inj hfound).symm
    rwa [← hsame]

/-- The whole survey notes the lacks of every recipe of the book. -/
theorem lacked_run_perm (hb : b.Keyed) :
    (lacked (run b).steps).Perm
      (b.recipes.flatMap fun r => b.lacks r.type r.dependencies) := by
  have hfits : Task.Fits b start (.roots b.recipes) := ⟨rfl, fun _ hr => hb.recipe?_of_mem hr⟩
  obtain ⟨new, hnew, hperm⟩ := (walk_run hb).lacked_perm hb hfits
  obtain rfl : (run b).steps = new := hnew
  rw [Task.lacks, List.append_nil] at hperm
  have hlacks : (b.recipes.map Recipe.type).flatMap b.lacksOf =
      b.recipes.flatMap fun r => b.lacks r.type r.dependencies := by
    rw [List.flatMap_map]
    exact List.flatMap_congr fun r hr => Book.lacksOf_eq (hb.recipe?_of_mem hr)
  exact hlacks ▸ hperm.trans ((entered_run_perm hb).flatMap_right _)

/-- What the steps of a record show to be missing are the lacks that may not be absent. -/
lemma lack_steps (steps : List Encounter) :
    (steps.filterMap Encounter.defect?).filterMap Defect.lack? =
      ((lacked steps).filter fun l => !l.1.optional).map fun l => (l.1.type, l.2) := by
  induction steps with
  | nil => rfl
  | cons step steps ih =>
      cases step with
      | lacking d requiredBy =>
          cases hoptional : d.optional <;>
            simpa [List.filterMap_cons, Encounter.defect?, Defect.lack?, lacked, hoptional]
              using ih
      | entered | known | circle | left | cutOff =>
          simpa [List.filterMap_cons, Encounter.defect?, Defect.lack?, lacked] using ih

/-- No step shows that an export is missing. -/
lemma missingExport_notMem_steps (steps : List Encounter) (type : TypeRef) :
    .missingExport type ∉ steps.filterMap Encounter.defect? := by
  intro hmem
  obtain ⟨step, -, hdefect⟩ := List.mem_filterMap.1 hmem
  cases step with
  | lacking d requiredBy =>
      rw [Encounter.defect?] at hdefect
      split at hdefect <;> cases hdefect
  | circle | entered | known | left | cutOff => cases hdefect

end Survey

/-! ### The defects of a book -/

namespace Book

variable {b : Book σ V}

/-- The types of those of some dependencies that may not be absent and have no recipe. -/
def needs (b : Book σ V) (ds : List Dependency) : List TypeRef :=
  (ds.filter fun d => !d.optional && !b.produces d.type.key).map Dependency.type

lemma needs_eq (b : Book σ V) (requiredBy : TypeRef) (ds : List Dependency) :
    ((b.lacks requiredBy ds).filter fun l => !l.1.optional).map (fun l => (l.1.type, l.2)) =
      (b.needs ds).map (·, requiredBy) := by
  rw [lacks, needs, List.filter_map, List.map_map, List.filter_filter, List.map_map]
  rfl

/-- **What the survey shows to be missing** is what the recipes declare to need and find no
recipe for, each as often as it is declared. -/
theorem lack_perm (hb : b.Keyed) :
    (((Survey.run b).steps.filterMap Encounter.defect?).filterMap Defect.lack?).Perm
      (b.recipes.flatMap fun r => (b.needs r.dependencies).map (·, r.type)) := by
  have hneeds : ((b.recipes.flatMap fun r => b.lacks r.type r.dependencies).filter
      fun l => !l.1.optional).map (fun l => (l.1.type, l.2)) =
        b.recipes.flatMap fun r => (b.needs r.dependencies).map (·, r.type) := by
    rw [List.filter_flatMap, List.map_flatMap]
    exact List.flatMap_congr fun r _ => b.needs_eq r.type r.dependencies
  rw [Survey.lack_steps, ← hneeds]
  exact ((Survey.lacked_run_perm hb).filter _).map _

/-- The missing types are listed in the order of the defects, the exports first. -/
lemma missing_eq (b : Book σ V) :
    b.missing = (b.requiredExports.filter fun t => !b.produces t.key) ++
      (((Survey.run b).steps.filterMap Encounter.defect?).filterMap Defect.lack?).map
        Prod.fst := by
  have hexports (ts : List TypeRef) :
      (ts.map Defect.missingExport).filterMap Defect.missing? = ts := by
    rw [List.filterMap_map]
    exact List.filterMap_some
  rw [missing, defects, List.filterMap_append, hexports, List.map_filterMap]
  refine congrArg _ (List.filterMap_congr fun defect hmem => ?_)
  cases defect with
  | missingExport type => exact absurd hmem (Survey.missingExport_notMem_steps _ type)
  | missingDependency | circular => rfl

/-- **The missing types of a book** are its exports without a recipe and what its recipes
declare to need and find no recipe for, each as often as it is declared. -/
theorem missing_perm (hb : b.Keyed) :
    b.missing.Perm ((b.requiredExports.filter fun t => !b.produces t.key) ++
      b.needs (b.recipes.flatMap Recipe.dependencies)) := by
  have hneeds : (b.recipes.flatMap fun r => (b.needs r.dependencies).map (·, r.type)).map
      Prod.fst = b.needs (b.recipes.flatMap Recipe.dependencies) := by
    rw [List.map_flatMap, needs, List.filter_flatMap, List.map_flatMap]
    refine List.flatMap_congr fun r _ => ?_
    rw [List.map_map]
    exact List.map_id' (b.needs r.dependencies)
  rw [missing_eq, ← hneeds]
  exact ((lack_perm hb).map _).append_left _

/-- The check refuses a book that has defects, with all of them. -/
lemma check_eq_error_iff {defects : List Defect} :
    b.check = .error defects ↔ b.defects ≠ [] ∧ b.defects = defects := by
  rw [check]
  by_cases hnone : b.defects = [] <;> simp [hnone]

/-- The check succeeds exactly if no circle is found and nothing is missing. -/
lemma check_eq_ok_iff_missing :
    b.check = .ok () ↔ b.hasCircle = false ∧ b.missing = [] := by
  rw [check_eq_ok_iff_defects, hasCircle, missing, List.any_eq_false,
    List.filterMap_eq_nil_iff]
  constructor
  · intro hnil
    rw [hnil]
    exact ⟨fun _ hmem => absurd hmem List.not_mem_nil, fun _ hmem => absurd hmem List.not_mem_nil⟩
  · rintro ⟨hcircular, hmissing⟩
    refine List.eq_nil_iff_forall_not_mem.2 fun defect hmem => ?_
    -- a defect that is no circle is about something that is missing
    cases defect with
    | circular origin target chain => exact hcircular _ hmem rfl
    | missingExport type => cases hmissing _ hmem
    | missingDependency dependency requiredBy => cases hmissing _ hmem

/-- The circles among the defects are those that the survey has noted. -/
lemma circular_mem_defects_iff {origin target : TypeRef} {chain : List TypeRef} :
    .circular origin target chain ∈ b.defects ↔
      .circle origin target chain ∈ (Survey.run b).steps := by
  constructor
  · intro hmem
    rcases List.mem_append.1 hmem with hexport | hstep
    · obtain ⟨t, -, ht⟩ := List.mem_map.1 hexport
      cases ht
    · obtain ⟨step, hstep, hdefect⟩ := List.mem_filterMap.1 hstep
      cases step with
      | circle => cases hdefect; exact hstep
      | lacking d requiredBy =>
          rw [Encounter.defect?] at hdefect
          split at hdefect <;> cases hdefect
      | entered | known | left | cutOff => cases hdefect
  · exact fun hmem => List.mem_append_right _ (List.mem_filterMap.2 ⟨_, hmem, rfl⟩)

/-- A circle is among the defects exactly if the book has one. -/
theorem hasCircle_iff (hb : b.Keyed) : b.hasCircle ↔ ¬ b.Acyclic := by
  rw [← Survey.exists_circle_iff hb, hasCircle, List.any_eq_true]
  constructor
  · rintro ⟨defect, hmem, hcircular⟩
    cases defect with
    | circular origin target chain =>
        exact ⟨origin, target, chain, circular_mem_defects_iff.1 hmem⟩
    | missingExport | missingDependency => cases hcircular
  · rintro ⟨origin, target, chain, hmem⟩
    exact ⟨_, circular_mem_defects_iff.2 hmem, rfl⟩

end Book

end Wiring
