/-
What the record of a survey says about the book.

* `Book.IsCircle`: a circle of dependencies, as the types along it;
* `Encounter.Justified`: a step of the record that has its reason in the book;
* `Survey.Recorded`: every step is justified, every dependency of a settled recipe was
  looked at, and from settled types no infinite walk leads along dependencies that are
  not reported to close a circle; `Survey.Walk.recorded`: every walk keeps this;
* `Survey.exists_circle_iff`: the survey reports a circle exactly if there is one;
* `Survey.exists_lacking_iff`: it reports a lack exactly if a dependency that may not be
  absent has no recipe;
* `Book.defects_eq_nil_iff`: a book has no defects exactly if it is complete;
* `Book.check_of_eq_ok_iff`: **the check of a component's book succeeds exactly if all
  exports and all needed dependencies have recipes and nothing depends on itself**.
-/
import Wiring.Proofs.Survey.Walk

namespace Wiring

open Relation

variable {σ V : Type} {b : Book σ V}

/-! ### Steps that have their reason in the book -/

/-- The types of `path` depend on each other in turn, from `target` to `origin`, which
depends on `target`. No type occurs twice. -/
structure Book.IsCircle (b : Book σ V) (origin target : TypeRef) (path : List TypeRef) :
    Prop where
  head : path.head? = some target
  last : path.getLast? = some origin
  nodup : (path.map TypeRef.key).Nodup
  held : ∀ t ∈ path, ∃ r, b.recipe? t.key = some r ∧ r.type = t
  linked : b.IsPath (path.map TypeRef.key)
  closes : b.DependsOn origin.key target.key

/-- Along a circle its target leads to its origin. -/
lemma Book.IsCircle.reflTransGen {origin target : TypeRef} {path : List TypeRef}
    (h : b.IsCircle origin target path) : ReflTransGen b.DependsOn target.key origin.key := by
  obtain ⟨rest, rfl⟩ : ∃ rest, path = target :: rest := by
    cases path with
    | nil => exact absurd h.head (by simp)
    | cons t rest => exact ⟨rest, by rw [Option.some.inj h.head]⟩
  refine List.relationReflTransGen_of_exists_isChain_cons (rest.map TypeRef.key)
    h.linked ?_
  have hlast := congrArg (Option.map TypeRef.key) h.last
  rw [← List.getLast?_map, List.map_cons] at hlast
  exact Option.some.inj ((List.getLast?_eq_getLast_of_ne_nil (by simp)).symm.trans hlast)

/-- A circle leads from its target back to it. -/
lemma Book.IsCircle.transGen {origin target : TypeRef} {path : List TypeRef}
    (h : b.IsCircle origin target path) : TransGen b.DependsOn target.key target.key :=
  TransGen.tail' h.reflTransGen h.closes

/-- What a step of the record says is true of the book. -/
def Encounter.Justified (b : Book σ V) : Encounter → Prop
  | .circle origin target chain =>
    ∃ path, chain = path ++ [target] ∧ b.IsCircle origin target path
  | .lacking d requiredBy =>
    b.recipe? d.type.key = none ∧ ∃ r ∈ b.recipes, r.type = requiredBy ∧ d ∈ r.dependencies
  | .cutOff _ => False
  | _ => True

namespace Survey

/-- The circle that is reported when the walk meets a pending recipe is there, and the
dependency that closes it is that of the end of the chain. -/
lemma OnPath.circleTo_eq {s : Survey} (h : s.OnPath b) {r : Recipe σ V}
    (hf : Task.Fits b s (.visit r)) (pending : s.marks.get? r.key = some .pending) :
    ∃ origin path, s.chain.getLast? = some origin ∧
      s.circleTo r.type = .circle origin r.type (path ++ [r.type]) ∧
      b.IsCircle origin r.type path := by
  have hmem := h.mem_chain hf.1 pending
  obtain ⟨origin, horigin⟩ : ∃ origin, s.chain.getLast? = some origin :=
    Option.isSome_iff_exists.1 (by simpa using List.ne_nil_of_mem hmem)
  obtain ⟨i, hi⟩ := Option.isSome_iff_exists.1 (List.isSome_idxOf?.2 hmem)
  obtain ⟨hlt, hget, -⟩ := List.idxOf?_eq_some_iff.1 hi
  refine ⟨origin, s.chain.drop i, horigin, by simp [circleTo, horigin, hi], ?_, ?_, ?_, ?_,
    ?_, hf.2 origin horigin⟩
  · rw [List.head?_drop, List.getElem?_eq_getElem hlt, hget]
  · rw [List.getLast?_drop, if_neg (by omega), horigin]
  · rw [List.map_drop]
    exact h.nodup.sublist (List.drop_sublist i _)
  · exact fun t ht => h.held t (List.mem_of_mem_drop ht)
  · rw [List.map_drop]
    exact h.linked.drop i

/-! ### What is recorded -/

/-- The dependency of `t` on `u` is reported to close a circle. -/
def Reports (s : Survey) (t u : TypeKey) : Prop :=
  ∃ origin target chain, .circle origin target chain ∈ s.steps ∧ origin.key = t ∧
    target.key = u

/-- The survey has looked at a dependency of `r`: it is noted as lacking, or the walk is
through with what it leads to, or it is reported to close a circle. -/
def Treats (b : Book σ V) (s : Survey) (r : Recipe σ V) (d : Dependency) : Prop :=
  match b.recipe? d.type.key with
  | none => .lacking d r.type ∈ s.steps
  | some q => s.marks.get? q.key = some .settled ∨ s.Reports r.key q.key

/-- A dependency that is not reported to close a circle. -/
def Plain (b : Book σ V) (s : Survey) (u t : TypeKey) : Prop :=
  b.DependsOn t u ∧ ¬ s.Reports t u

/-- The record is true, and it is complete for settled recipes. -/
structure Recorded (b : Book σ V) (s : Survey) : Prop where
  justified : ∀ step ∈ s.steps, step.Justified b
  treated : ∀ r, b.recipe? r.key = some r → s.marks.get? r.key = some .settled →
    ∀ d ∈ r.dependencies, s.Treats b r d
  grounded : ∀ k, s.marks.get? k = some .settled → Acc (Plain b s) k

lemma Reports.mono {s s' : Survey} (h : s.steps ⊆ s'.steps) {t u : TypeKey}
    (hr : s.Reports t u) : s'.Reports t u := by
  obtain ⟨origin, target, chain, hmem, ht, hu⟩ := hr
  exact ⟨origin, target, chain, h hmem, ht, hu⟩

lemma Treats.mono {s s' : Survey} (hsteps : s.steps ⊆ s'.steps)
    (hmarks : ∀ k, s.marks.get? k = some .settled → s'.marks.get? k = some .settled)
    {r : Recipe σ V} {d : Dependency} (h : s.Treats b r d) : s'.Treats b r d := by
  unfold Treats at h ⊢
  split at h
  · exact hsteps h
  · exact h.imp (hmarks _) (Reports.mono hsteps)

/-- The more is reported, the fewer dependencies are plain. -/
lemma acc_plain_mono {s s' : Survey} (h : s.steps ⊆ s'.steps) {k : TypeKey}
    (hk : Acc (Plain b s) k) : Acc (Plain b s') k :=
  Subrelation.accessible (fun hp => ⟨hp.1, fun hr => hp.2 (hr.mono h)⟩) hk

lemma recorded_start : start.Recorded b :=
  ⟨fun step h => by simp [start] at h, fun r _ h => by simp [start] at h,
    fun k h => by simp [start] at h⟩

/-- A record stays true and complete if justified steps are added and no type is settled
by that. -/
lemma Recorded.of_settled_iff {s s' : Survey} (h : s.Recorded b)
    (hsteps : s.steps ⊆ s'.steps)
    (hnew : ∀ step ∈ s'.steps, step ∈ s.steps ∨ step.Justified b)
    (hmarks : ∀ k, s'.marks.get? k = some .settled ↔ s.marks.get? k = some .settled) :
    s'.Recorded b where
  justified step hs := (hnew step hs).elim (h.justified step) id
  treated r hr hm d hd :=
    (h.treated r hr ((hmarks _).1 hm) d hd).mono hsteps fun k => (hmarks k).2
  grounded k hk := acc_plain_mono hsteps (h.grounded k ((hmarks k).1 hk))

lemma Recorded.note {s : Survey} (h : s.Recorded b) {step : Encounter}
    (hstep : step.Justified b) : (s.note step).Recorded b := by
  refine h.of_settled_iff (List.subset_append_left _ _) (fun e he => ?_) fun _ => Iff.rfl
  rcases List.mem_append.1 he with he | he
  · exact .inl he
  · exact .inr (List.mem_singleton.1 he ▸ hstep)

lemma Recorded.enter {s : Survey} (h : s.Recorded b) {type : TypeRef}
    (fresh : s.marks.get? type.key = none) : (s.enter type).Recorded b := by
  refine h.of_settled_iff (List.subset_append_left _ _) (fun e he => ?_) fun k => ?_
  · rcases List.mem_append.1 he with he | he
    · exact .inl he
    · exact .inr (List.mem_singleton.1 he ▸ trivial)
  · rw [Survey.enter, Table.get?_insert]
    split
    · rename_i hk
      subst hk
      simp [fresh]
    · exact Iff.rfl

/-- A recipe may be left once all its dependencies have been looked at. From its type all
plain dependencies lead to settled types, which are grounded already. -/
lemma Recorded.leave (hb : b.Keyed) {s : Survey} (h : s.Recorded b) {r : Recipe σ V}
    (hr : b.recipe? r.key = some r) (hscan : ∀ d ∈ r.dependencies, s.Treats b r d) :
    (s.leave r.type).Recorded b := by
  have hsteps : s.steps ⊆ (s.leave r.type).steps := List.subset_append_left _ _
  have hmarks : ∀ k, s.marks.get? k = some .settled →
      (s.leave r.type).marks.get? k = some .settled := by
    intro k hk
    rw [Survey.leave, Table.get?_insert]
    split
    · rfl
    · exact hk
  have hold : ∀ k, (s.leave r.type).marks.get? k = some .settled →
      k = r.key ∨ s.marks.get? k = some .settled := by
    intro k hk
    rw [Survey.leave, Table.get?_insert] at hk
    split at hk
    · exact .inl ‹_›
    · exact .inr hk
  refine ⟨fun e he => ?_, fun q hq hm d hd => ?_, fun k hk => ?_⟩
  · rcases List.mem_append.1 he with he | he
    · exact h.justified e he
    · rw [List.mem_singleton.1 he]
      trivial
  · rcases hold _ hm with hkey | hm
    · obtain rfl : r = q := Option.some.inj (hr.symm.trans (hkey ▸ hq))
      exact (hscan d hd).mono hsteps hmarks
    · exact (h.treated q hq hm d hd).mono hsteps hmarks
  · rcases hold k hk with rfl | hk
    · refine acc_plain_mono hsteps (Acc.intro _ fun u hu => ?_)
      obtain ⟨⟨hp, q, hq, d, hd, rfl⟩, hplain⟩ := hu
      obtain rfl : r = q := Option.some.inj (hr.symm.trans hq)
      obtain ⟨next, hnext⟩ := Book.produces_iff.1 hp
      have ht := hscan d hd
      rw [Treats, hnext] at ht
      rw [← hb.key_of_recipe? hnext] at hplain ⊢
      exact ht.elim (h.grounded _) fun hrep => absurd hrep hplain
    · exact acc_plain_mono hsteps (h.grounded k hk)

/-- What a survey knows after a task. -/
def Task.Done (b : Book σ V) (s : Survey) : Task σ V → Prop
  | .visit r => s.marks.get? r.key = some .settled ∨
      ∃ t ∈ s.chain.getLast?, s.Reports t.key r.key
  | .scan r ds => ∀ d ∈ ds, s.Treats b r d
  | .roots rs => ∀ r ∈ rs, s.marks.get? r.key = some .settled

/-- **Every walk keeps its record**, and its task is done afterwards. -/
theorem Walk.recorded (hb : b.Keyed) {task : Task σ V} {s s' : Survey}
    (h : Walk b task s s') (hs : s.OnPath b) (hf : task.Fits b s) (hrec : s.Recorded b) :
    s'.Recorded b ∧ task.Done b s' := by
  induction h with
  | known settled => exact ⟨hrec.note trivial, .inl settled⟩
  | @circle r s pending =>
      obtain ⟨origin, path, hend, heq, hcircle⟩ := hs.circleTo_eq hf pending
      rw [heq]
      refine ⟨hrec.note ⟨path, rfl, hcircle⟩, .inr ⟨origin, hend, ?_⟩⟩
      exact ⟨origin, r.type, path ++ [r.type], List.mem_append_right _ (by simp), rfl, rfl⟩
  | enter fresh below ih =>
      obtain ⟨hbelow, hdone⟩ :=
        ih (hs.enter hf.1 fresh hf.2) (Task.fits_enter hf) (hrec.enter fresh)
      refine ⟨hbelow.leave hb hf.1 hdone, .inl ?_⟩
      exact Table.get?_insert_self _ _ _
  | scanned => exact ⟨hrec, fun d hd => by cases hd⟩
  | @lacking r d ds s s' absent rest ih =>
      have hstep : (Encounter.lacking d r.type).Justified b :=
        ⟨absent, r, (hb.recipe?_eq_some_iff.1 hf.1).1, rfl, hf.2.2 (by simp)⟩
      obtain ⟨hrest, hdone⟩ := ih (hs.note _) (Task.fits_rest hf rfl) (hrec.note hstep)
      refine ⟨hrest, List.forall_mem_cons.2 ⟨?_, hdone⟩⟩
      rw [Treats, absent]
      exact rest.extends.steps.subset (List.mem_append_right _ (by simp))
  | @follow r q d ds s s₁ s' found visit rest ihv ihr =>
      have hvf := Task.fits_follow hb hf found
      obtain ⟨hvisit, hvdone⟩ := ihv hs hvf hrec
      obtain ⟨hrest, hdone⟩ := ihr (visit.onPath hb hs hvf)
        (Task.fits_rest hf visit.extends.chain) hvisit
      refine ⟨hrest, List.forall_mem_cons.2 ⟨?_, hdone⟩⟩
      rw [Treats, found]
      rcases hvdone with hsettled | ⟨t, ht, hrep⟩
      · exact .inl (rest.extends.settled _ hsettled)
      · rw [visit.extends.chain, hf.2.1] at ht
        obtain rfl : r.type = t := Option.some.inj ht
        exact .inr (hrep.mono rest.extends.steps.subset)
  | finished => exact ⟨hrec, fun r hr => by cases hr⟩
  | root visit rest ihv ihr =>
      obtain ⟨hvisit, hvdone⟩ := ihv hs (Task.fits_root hf) hrec
      obtain ⟨hrest, hdone⟩ := ihr (visit.onPath hb hs (Task.fits_root hf))
        (Task.fits_roots hf visit.extends.chain) hvisit
      refine ⟨hrest, List.forall_mem_cons.2 ⟨?_, hdone⟩⟩
      rcases hvdone with hsettled | ⟨t, ht, -⟩
      · exact rest.extends.settled _ hsettled
      · rw [visit.extends.chain, hf.1] at ht
        cases ht

/-- The record of the whole survey is true and complete for every recipe. -/
lemma recorded_run (hb : b.Keyed) :
    (run b).Recorded b ∧ ∀ r ∈ b.recipes, (run b).marks.get? r.key = some .settled :=
  (walk_run hb).recorded hb onPath_start ⟨rfl, fun _ hr => hb.recipe?_of_mem hr⟩
    recorded_start

/-- No circle passes through a grounded point. -/
lemma not_transGen_self_of_acc {α : Type} {rel : α → α → Prop} {a : α} (h : Acc rel a) :
    ¬ TransGen rel a a := by
  replace h := h.transGen
  induction h with
  | intro a _ ih => exact fun haa => ih a haa haa

/-! ### The defects of a book -/

/-- **A circle is reported exactly if there is one.** -/
theorem exists_circle_iff (hb : b.Keyed) :
    (∃ origin target chain, .circle origin target chain ∈ (run b).steps) ↔
      ¬ b.Acyclic := by
  obtain ⟨hrec, hall⟩ := recorded_run hb
  constructor
  · rintro ⟨origin, target, chain, hmem⟩ hacyclic
    obtain ⟨path, -, hcircle⟩ := hrec.justified _ hmem
    exact hacyclic target.key hcircle.transGen
  · intro hcyclic
    by_contra hnone
    -- nothing is reported, so all dependencies are plain and all types grounded
    have hplain : b.DependsOn ≤ Function.swap (Plain b (run b)) := fun t u h =>
      ⟨h, fun ⟨origin, target, chain, hmem, _⟩ => hnone ⟨origin, target, chain, hmem⟩⟩
    refine hcyclic fun t ht => ?_
    obtain ⟨u, ⟨-, r, hr, -⟩, -⟩ := TransGen.head'_iff.1 ht
    obtain ⟨hmem, rfl⟩ := hb.recipe?_eq_some_iff.1 hr
    exact not_transGen_self_of_acc (hrec.grounded _ (hall r hmem))
      (transGen_swap.1 (TransGen.mono hplain _ _ ht))

/-- A lack is noted exactly for the dependencies without a recipe. -/
theorem exists_lacking_iff (hb : b.Keyed) {d : Dependency} {requiredBy : TypeRef} :
    .lacking d requiredBy ∈ (run b).steps ↔
      b.recipe? d.type.key = none ∧
        ∃ r ∈ b.recipes, r.type = requiredBy ∧ d ∈ r.dependencies := by
  obtain ⟨hrec, hall⟩ := recorded_run hb
  constructor
  · exact hrec.justified _
  · rintro ⟨habsent, r, hr, rfl, hd⟩
    have ht := hrec.treated r (hb.recipe?_of_mem hr) (hall r hr) d hd
    rwa [Treats, habsent] at ht

end Survey

namespace Book

/-- A step of the survey uncovers a defect if it reports a circle or lacks something that
may not be absent. -/
lemma steps_filterMap_eq_nil_iff (hb : b.Keyed) :
    (Survey.run b).steps.filterMap Encounter.defect? = [] ↔
      (∀ r ∈ b.recipes, ∀ d ∈ r.dependencies, d.optional = false → b.produces d.type.key) ∧
        b.Acyclic := by
  rw [List.filterMap_eq_nil_iff]
  constructor
  · intro h
    refine ⟨fun r hr d hd hneeded => ?_, ?_⟩
    · by_contra hp
      have hmem := (Survey.exists_lacking_iff hb).2
        ⟨produces_eq_false_iff.1 (by simpa using hp), r, hr, rfl, hd⟩
      simpa [Encounter.defect?, hneeded] using h _ hmem
    · by_contra hc
      obtain ⟨origin, target, chain, hmem⟩ := (Survey.exists_circle_iff hb).2 hc
      simpa [Encounter.defect?] using h _ hmem
  · rintro ⟨hsupplied, hacyclic⟩ step hmem
    cases step with
    | circle origin target chain =>
        exact absurd hacyclic ((Survey.exists_circle_iff hb).1 ⟨origin, target, chain, hmem⟩)
    | lacking d requiredBy =>
        obtain ⟨habsent, r, hr, -, hd⟩ := (Survey.exists_lacking_iff hb).1 hmem
        cases hoptional : d.optional with
        | true => simp [Encounter.defect?, hoptional]
        | false =>
            obtain ⟨q, hq⟩ := produces_iff.1 (hsupplied r hr d hd hoptional)
            rw [habsent] at hq
            cases hq
    | entered | known | left | cutOff => rfl

/-- **A book has no defects exactly if it is complete.** -/
theorem defects_eq_nil_iff (hb : b.Keyed) : b.defects = [] ↔ b.Complete := by
  rw [defects, List.append_eq_nil_iff, steps_filterMap_eq_nil_iff hb, List.map_eq_nil_iff,
    List.filter_eq_nil_iff]
  constructor
  · rintro ⟨hexported, hsupplied, hacyclic⟩
    exact ⟨fun t ht => by simpa using hexported t ht, hsupplied, hacyclic⟩
  · rintro ⟨hexported, hsupplied, hacyclic⟩
    exact ⟨fun t ht => by simpa using hexported t ht, hsupplied, hacyclic⟩

/-- The check succeeds exactly if there are no defects. -/
lemma check_eq_ok_iff_defects : b.check = .ok () ↔ b.defects = [] := by
  rw [check, ← List.isEmpty_iff]
  split <;> simp [*]

/-- The check succeeds exactly for complete books. -/
lemma check_eq_ok_iff (hb : b.Keyed) : b.check = .ok () ↔ b.Complete :=
  check_eq_ok_iff_defects.trans (defects_eq_nil_iff hb)

/-- **The check of the book of a component** succeeds exactly if every required export
has a recipe, every dependency that may not be absent has one, wherever it is declared,
and no type depends on itself along declared dependencies that have recipes, be they
optional or not. -/
theorem check_of_eq_ok_iff (c : Component σ V) (requiredExports : List TypeRef) :
    (Book.of c requiredExports).check = .ok () ↔
      (∀ t ∈ requiredExports, (Book.of c requiredExports).produces t.key) ∧
      (∀ r ∈ (Book.of c requiredExports).recipes, ∀ d ∈ r.dependencies,
        d.optional = false → (Book.of c requiredExports).produces d.type.key) ∧
      ∀ t, ¬ TransGen (Book.of c requiredExports).DependsOn t t := by
  rw [check_eq_ok_iff (keyed_of c requiredExports)]
  constructor
  · exact fun h => ⟨h.exported, h.supplied, h.acyclic⟩
  · rintro ⟨hexported, hsupplied, hacyclic⟩
    exact ⟨hexported, hsupplied, hacyclic⟩

end Book

end Wiring
