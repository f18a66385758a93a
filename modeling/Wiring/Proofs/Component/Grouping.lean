/-
Components that are merged one by one, as one, or once more.

* `standing_append_added`: recipes that are added decide only what stands for types that were
  not inserted before;
* `clashes_append_added`: recipes that do not clash with each other clash only with what stood
  before them;
* `standing_append_group`, `enlisted_append_group`, `keys_clashes_append_group`: adding some
  recipes comes to the same as adding what stands after they were added on their own;
* `Draft.Alike`: drafts with the same recipes, verdicts and types in conflict;
* `Draft.merge_grouping`: **merging two components is alike to merging the one that they come
  to, and what was merged once without a conflict, or overriding, may be merged again without
  a change**.
-/
import Wiring.Proofs.Component.Merging

namespace Wiring

variable {σ V : Type}

/-- The insertions of some recipes, all in the same way. -/
def Insertion.each (mode : Insertion) (rs : List (Recipe σ V)) : List (Inserted σ V) :=
  rs.map fun r => (mode, r)

@[simp] lemma Insertion.each_append (mode : Insertion) (rs rs' : List (Recipe σ V)) :
    mode.each (rs ++ rs') = mode.each rs ++ mode.each rs' :=
  List.map_append

@[simp] lemma Insertion.each_singleton (mode : Insertion) (r : Recipe σ V) :
    mode.each [r] = [(mode, r)] := rfl

@[simp] lemma Insertion.keys_each (mode : Insertion) (rs : List (Recipe σ V)) :
    (mode.each rs).map (fun e => e.2.key) = rs.map Recipe.key := by
  rw [each, List.map_map]
  rfl

variable {entries : List (Inserted σ V)} {rs : List (Recipe σ V)} {r : Recipe σ V}

/-! ### Recipes that are added -/

/-- **Recipes that are added** decide only what stands for types that were not inserted
before. -/
lemma standing_append_added (entries : List (Inserted σ V)) (rs : List (Recipe σ V))
    (key : TypeKey) :
    standing key (entries ++ Insertion.adding.each rs) =
      (standing key entries).or (standing key (Insertion.adding.each rs)) := by
  induction rs using List.reverseRecOn with
  | nil =>
      rw [Insertion.each, List.map_nil, List.append_nil]
      exact Option.or_none.symm
  | append_singleton rs r ih =>
      rw [Insertion.each_append, Insertion.each_singleton, ← List.append_assoc]
      by_cases hkey : r.key = key
      · subst hkey
        rw [standing_append_self, standing_append_self, ih]
        cases standing r.key entries <;> cases standing r.key (Insertion.adding.each rs) <;> rfl
      · rw [standing_append_of_ne hkey, standing_append_of_ne hkey, ih]

lemma clash?_eq_some_iff {c : Conflict} :
    clash? entries (.adding, r) = some c ↔
      .duplicate r.type = c ∧ ∃ q, standing r.key entries = some q ∧ q.serial ≠ r.serial := by
  cases hstanding : standing r.key entries with
  | none => simp [clash?, hstanding]
  | some q => by_cases hserial : q.serial = r.serial <;> simp [clash?, hstanding, hserial]

/-- Later insertions take no clash back. -/
lemma clashes_prefix (entries later : List (Inserted σ V)) :
    clashes entries <+: clashes (entries ++ later) := by
  induction later using List.reverseRecOn with
  | nil => simp
  | append_singleton later e ih =>
      rw [← List.append_assoc, clashes_append]
      exact ih.trans (List.prefix_append ..)

/-- The last of some insertions that bring no clash brings none, and neither do those before
it. -/
lemma clash?_eq_none_of_clashes (entries : List (Inserted σ V)) {later : List (Inserted σ V)}
    {e : Inserted σ V}
    (h : clashes (entries ++ (later ++ [e])) = clashes entries) :
    clashes (entries ++ later) = clashes entries ∧ clash? (entries ++ later) e = none := by
  obtain ⟨new, hnew⟩ := clashes_prefix entries later
  rw [← List.append_assoc, clashes_append, ← hnew, List.append_assoc, List.append_right_eq_self,
    List.append_eq_nil_iff] at h
  obtain ⟨rfl, hclash⟩ := h
  rw [← hnew, List.append_nil]
  exact ⟨rfl, by simpa using hclash⟩

/-- Recipes that do not clash with each other clash only with what stood before them. -/
lemma clashes_append_added (entries : List (Inserted σ V))
    (h : clashes (Insertion.adding.each rs) = []) :
    clashes (entries ++ Insertion.adding.each rs) =
      clashes entries ++ rs.filterMap fun r => clash? entries (.adding, r) := by
  induction rs using List.reverseRecOn with
  | nil => simp [Insertion.each]
  | append_singleton rs r ih =>
      rw [Insertion.each_append, Insertion.each_singleton] at h ⊢
      obtain ⟨hrs, hr⟩ := clash?_eq_none_of_clashes [] h
      -- the recipe does not clash with those that were added just before it
      have hclash : clash? (entries ++ Insertion.adding.each rs) (.adding, r) =
          clash? entries (.adding, r) := by
        simp only [clash?, standing_append_added]
        cases hstanding : standing r.key entries with
        | none => simpa [clash?] using hr
        | some q => rfl
      rw [← List.append_assoc, clashes_append, ih hrs, hclash, List.filterMap_append,
        List.append_assoc]
      cases h : clash? entries (.adding, r) <;> simp [h]

/-- A recipe that was added without a clash stands, if not another one with its serial. -/
lemma exists_standing_of_added (entries : List (Inserted σ V))
    (h : clashes (entries ++ Insertion.adding.each rs) = clashes entries) (hr : r ∈ rs) :
    ∃ q, standing r.key (entries ++ Insertion.adding.each rs) = some q ∧
      q.serial = r.serial := by
  induction rs using List.reverseRecOn with
  | nil => cases hr
  | append_singleton rs last ih =>
      rw [Insertion.each_append, Insertion.each_singleton] at h ⊢
      obtain ⟨hrs, hlast⟩ := clash?_eq_none_of_clashes entries h
      rw [← List.append_assoc]
      rcases List.mem_append.1 hr with hr | hr
      · obtain ⟨q, hq, hserial⟩ := ih hrs hr
        refine ⟨q, ?_, hserial⟩
        by_cases hkey : last.key = r.key
        · rw [← hkey] at hq ⊢
          rw [standing_append_self, hq]
        · rw [standing_append_of_ne hkey, hq]
      · obtain rfl := List.mem_singleton.1 hr
        rw [standing_append_self]
        cases hstanding : standing r.key (entries ++ Insertion.adding.each rs) with
        | none => exact ⟨r, rfl, rfl⟩
        | some q => exact ⟨q, rfl, by simpa [clash?, hstanding] using hlast⟩

/-- There is a clash for a type if another recipe for it stood before. -/
lemma mem_keys_clashes {key : TypeKey} :
    key ∈ (rs.filterMap fun r => clash? entries (.adding, r)).map (·.type.key) ↔
      ∃ r ∈ rs, r.key = key ∧ ∃ q, standing key entries = some q ∧ q.serial ≠ r.serial := by
  simp only [List.mem_map, List.mem_filterMap, clash?_eq_some_iff]
  constructor
  · rintro ⟨_, ⟨r, hr, rfl, hother⟩, rfl⟩
    exact ⟨r, hr, rfl, hother⟩
  · rintro ⟨r, hr, rfl, hother⟩
    exact ⟨_, ⟨r, hr, rfl, hother⟩, rfl⟩

/-! ### Recipes as a group -/

/-- Listing the later types once beforehand changes nothing. -/
lemma eraseDups_append_eraseDups (keys later : List TypeKey) :
    (keys ++ later.eraseDups).eraseDups = (keys ++ later).eraseDups := by
  induction later using List.reverseRecOn with
  | nil => rfl
  | append_singleton later key ih =>
      rw [eraseDups_append_singleton, ← List.append_assoc, eraseDups_append_singleton]
      by_cases hmem : key ∈ later
      · rw [if_pos hmem, if_pos (List.mem_append_right keys hmem), ih]
      · rw [if_neg hmem, ← List.append_assoc, eraseDups_append_singleton, ih]
        simp only [List.mem_append, List.mem_eraseDups]

/-- Recipes of different types are one for each type. -/
lemma uniform_each (h : (rs.map Recipe.key).Nodup) (mode : Insertion) :
    Uniform (mode.each rs) := by
  intro e he e' he' hkey
  obtain ⟨r, hr, rfl⟩ := List.mem_map.1 he
  obtain ⟨r', hr', rfl⟩ := List.mem_map.1 he'
  exact List.inj_on_of_nodup_map h hr hr' hkey

/-- What stands after recipes were added stands as well after only that was added which
stands. -/
lemma standing_enlisted (entries : List (Inserted σ V)) (key : TypeKey) :
    standing key (Insertion.adding.each (enlisted entries)) = standing key entries := by
  cases hstanding : standing key entries with
  | none =>
      rw [standing_eq_none_iff, Insertion.keys_each, keys_enlisted, List.mem_eraseDups,
        ← standing_eq_none_iff]
      exact hstanding
  | some r =>
      obtain ⟨rfl, -⟩ := mem_of_standing hstanding
      exact (uniform_each (nodup_enlisted entries) .adding).standing_eq
        (List.mem_map_of_mem (mem_enlisted.2 hstanding))

/-- The recipes that stand after those in a list were added. -/
def grouped (rs : List (Recipe σ V)) : List (Recipe σ V) :=
  enlisted (Insertion.adding.each rs)

/-- **A group** decides what stands for a type just as its recipes do one by one. -/
lemma standing_append_group (entries : List (Inserted σ V)) (rs : List (Recipe σ V))
    (key : TypeKey) :
    standing key (entries ++ Insertion.adding.each (grouped rs)) =
      standing key (entries ++ Insertion.adding.each rs) := by
  rw [standing_append_added, standing_append_added, grouped, standing_enlisted]

/-- The same recipes stand after a group was added, in the same order. -/
lemma enlisted_append_group (entries : List (Inserted σ V)) (rs : List (Recipe σ V)) :
    enlisted (entries ++ Insertion.adding.each (grouped rs)) =
      enlisted (entries ++ Insertion.adding.each rs) := by
  have hkeys : (grouped rs).map Recipe.key = (rs.map Recipe.key).eraseDups := by
    rw [grouped, keys_enlisted, Insertion.keys_each]
  rw [enlisted, enlisted, List.map_append, List.map_append, Insertion.keys_each,
    Insertion.keys_each, hkeys, eraseDups_append_eraseDups]
  exact List.filterMap_congr fun key _ => standing_append_group entries rs key

/-- There are clashes for the same types after a group was added, though not as many of them,
if its recipes do not clash with each other. -/
lemma keys_clashes_append_group (entries : List (Inserted σ V))
    (h : clashes (Insertion.adding.each rs) = []) (key : TypeKey) :
    key ∈ (clashes (entries ++ Insertion.adding.each (grouped rs))).map (·.type.key) ↔
      key ∈ (clashes (entries ++ Insertion.adding.each rs)).map (·.type.key) := by
  have hgroup : clashes (Insertion.adding.each (grouped rs)) = [] :=
    (uniform_each (nodup_enlisted _) .adding).clashes_eq_nil
  rw [clashes_append_added entries hgroup, clashes_append_added entries h, List.map_append,
    List.map_append, List.mem_append, List.mem_append, mem_keys_clashes, mem_keys_clashes]
  refine or_congr_right ⟨?_, ?_⟩
  · rintro ⟨g, hg, hkey, hother⟩
    obtain ⟨-, e, he, rfl⟩ := mem_of_standing (mem_enlisted.1 hg)
    obtain ⟨r, hr, rfl⟩ := List.mem_map.1 he
    exact ⟨r, hr, hkey, hother⟩
  · rintro ⟨r, hr, rfl, q, hq, hserial⟩
    -- the recipe of the group that stands for the type has the serial of this one
    obtain ⟨g, hg, hsame⟩ := exists_standing_of_added [] h hr
    rw [List.nil_append] at hg
    obtain ⟨hkey, -⟩ := mem_of_standing hg
    exact ⟨g, mem_enlisted.2 (hkey ▸ hg), hkey, q, hq, hsame ▸ hserial⟩

/-! ### Drafts -/

namespace Draft

variable {d : Draft σ V}

lemma insertAll_eq (d : Draft σ V) (mode : Insertion) (rs : List (Recipe σ V)) :
    d.insertAll mode rs = d.insertEach (mode.each rs) := by
  rw [insertAll, insertEach, Insertion.each, List.foldl_map]

lemma Holds.merged (h : d.Holds entries) (mode : Insertion) (c : Component σ V) :
    (d.merge mode c).Holds (entries ++ mode.each c.recipes) := by
  rw [Draft.merge, insertAll_eq]
  exact h.insertEach _

@[simp] lemma name_merge (d : Draft σ V) (mode : Insertion) (c : Component σ V) :
    (d.merge mode c).name = d.name := by
  rw [merge, insertAll_eq, name_insertEach]

/-- The types for which there are conflicts. -/
def disputed (d : Draft σ V) : List TypeKey := d.conflicts.map (·.type.key)

/-- The drafts have the same recipes in the same order, come to the same component, if to any,
and have conflicts for the same types. -/
structure Alike (d d' : Draft σ V) : Prop where
  recipes : d.recipes = d'.recipes
  build : ∀ c, d.build = .ok c ↔ d'.build = .ok c
  disputed : ∀ key, key ∈ d.disputed ↔ key ∈ d'.disputed

lemma isEmpty_conflicts_iff : d.conflicts.isEmpty ↔ ∀ key, key ∉ d.disputed := by
  rw [← List.eq_nil_iff_forall_not_mem, disputed, List.map_eq_nil_iff, List.isEmpty_iff]

/-- Drafts with the same name and recipes, and conflicts for the same types, are alike. -/
lemma alike_of_disputed {d d' : Draft σ V} (hname : d.name = d'.name)
    (hrecipes : d.recipes = d'.recipes) (h : ∀ key, key ∈ d.disputed ↔ key ∈ d'.disputed) :
    d.Alike d' := by
  have hempty : d.conflicts.isEmpty = d'.conflicts.isEmpty := by
    rw [Bool.eq_iff_iff, isEmpty_conflicts_iff, isEmpty_conflicts_iff]
    exact forall_congr' fun key => not_congr (h key)
  refine ⟨hrecipes, fun c => ?_, h⟩
  rw [build, build, hempty, hname, hrecipes]
  cases d'.conflicts.isEmpty <;> simp

/-- **Merging two components is alike to merging the one that they come to.** -/
theorem Holds.merge_alike (h : d.Holds entries) {left right both : Component σ V}
    {title : String} (hboth : (Component.merged title [left, right]).build = .ok both) :
    ((d.merge .adding left).merge .adding right).Alike (d.merge .adding both) := by
  have hentries : [Addition.component .adding left, .component .adding right].flatMap
      Addition.entries = Insertion.adding.each (left.recipes ++ right.recipes) := by
    simp [Addition.entries, Insertion.each]
  rw [Component.merged, List.map_cons, List.map_singleton, build_accumulate, hentries] at hboth
  split at hboth
  · rename_i hclashes
    obtain rfl := Except.ok.inj hboth
    have happart := (h.merged .adding left).merged .adding right
    rw [List.append_assoc, ← Insertion.each_append] at happart
    have hjoined := h.merged .adding ⟨title, grouped (left.recipes ++ right.recipes)⟩
    refine alike_of_disputed (by simp) ?_ fun key => ?_
    · rw [happart.recipes_eq, ← enlisted_append_group]
      exact hjoined.recipes_eq.symm
    · rw [disputed, happart.conflicts, ← keys_clashes_append_group entries hclashes key,
        ← hjoined.conflicts]
      rfl
  · cases hboth

/-! ### Merging once more -/

lemma insertAll_eq_self {mode : Insertion} (h : ∀ r ∈ rs, d.insert mode r = d) :
    d.insertAll mode rs = d := by
  induction rs with
  | nil => rfl
  | cons r rest ih =>
      rw [insertAll, List.foldl_cons, h r List.mem_cons_self]
      exact ih fun q hq => h q (List.mem_cons_of_mem r hq)

/-- A type for which a recipe stands has a place. -/
lemma Holds.exists_position (h : d.Holds entries) {key : TypeKey} {q : Recipe σ V}
    (hq : standing key entries = some q) :
    ∃ position, d.positions.get? key = some position ∧ d.recipes[position]? = some q := by
  cases hp : d.positions.get? key with
  | none =>
      rw [standing_eq_none_iff.2 (h.get?_eq_none_iff.1 hp)] at hq
      cases hq
  | some position =>
      obtain ⟨q', hplace, -, hq'⟩ := h.standing_eq hp
      obtain rfl := Option.some.inj (hq'.symm.trans hq)
      exact ⟨position, rfl, hplace⟩

/-- Adding the very recipe that stands changes nothing. -/
lemma Holds.insert_adding_of_standing (h : d.Holds entries) {q : Recipe σ V}
    (hq : standing r.key entries = some q) (hserial : q.serial = r.serial) :
    d.insert .adding r = d := by
  obtain ⟨position, hp, hplace⟩ := h.exists_position hq
  rw [Draft.insert, fate_adding hp hplace, if_pos hserial]

/-- Overriding the recipe that stands by itself changes nothing. -/
lemma Holds.insert_overriding_of_standing (h : d.Holds entries)
    (hr : standing r.key entries = some r) : d.insert .overriding r = d := by
  obtain ⟨position, hp, hplace⟩ := h.exists_position hr
  obtain ⟨hlt, hget⟩ := List.getElem?_eq_some_iff.1 hplace
  rw [Draft.insert, fate_overriding hp]
  simp only [← hget, List.set_getElem_self]

/-- Merging a component once more changes nothing if it brought no conflict. -/
lemma Holds.merge_added_again (h : d.Holds entries) {c : Component σ V}
    (hnone : (d.merge .adding c).conflicts = d.conflicts) :
    (d.merge .adding c).merge .adding c = d.merge .adding c := by
  have hmerged := h.merged .adding c
  rw [hmerged.conflicts, h.conflicts] at hnone
  refine insertAll_eq_self fun r hr => ?_
  obtain ⟨q, hq, hserial⟩ := exists_standing_of_added entries hnone hr
  exact hmerged.insert_adding_of_standing hq hserial

end Draft

/-- Recipes of different types that override all stand. -/
lemma standing_of_overridden (h : (rs.map Recipe.key).Nodup) (hr : r ∈ rs) :
    standing r.key (entries ++ Insertion.overriding.each rs) = some r := by
  induction rs using List.reverseRecOn with
  | nil => cases hr
  | append_singleton rs last ih =>
      rw [List.map_append, List.nodup_append] at h
      obtain ⟨hrs, -, hlast⟩ := h
      rw [Insertion.each_append, Insertion.each_singleton, ← List.append_assoc]
      rcases List.mem_append.1 hr with hr | hr
      · have hne := hlast r.key (List.mem_map_of_mem hr) last.key (by simp)
        rw [standing_append_of_ne hne.symm, ih hrs hr]
      · obtain rfl := List.mem_singleton.1 hr
        rw [standing_append_self]
        cases standing r.key (entries ++ Insertion.overriding.each rs) <;> rfl

namespace Draft

variable {d : Draft σ V}

/-- Overriding by a component once more changes nothing. -/
lemma Holds.merge_overridden_again (h : d.Holds entries) {c : Component σ V}
    (hn : (c.recipes.map Recipe.key).Nodup) :
    (d.merge .overriding c).merge .overriding c = d.merge .overriding c :=
  insertAll_eq_self fun _ hr =>
    (h.merged .overriding c).insert_overriding_of_standing (standing_of_overridden hn hr)

/-- **The laws of merging**, for a draft to which anything was added. If two components alone
can be merged, merging the one and then the other is alike to merging what they come to. A
component that brought no new conflict may be added again without a change, and one that
overrides may do so again without a change. -/
theorem merge_grouping (name : String) (additions : List (Addition σ V)) :
    let d := accumulate name additions
    (∀ left right both title, (Component.merged title [left, right]).build = .ok both →
      ((d.merge .adding left).merge .adding right).Alike (d.merge .adding both)) ∧
    (∀ c, (d.merge .adding c).conflicts = d.conflicts →
      (d.merge .adding c).merge .adding c = d.merge .adding c) ∧
    ∀ c : Component σ V, c.Built →
      (d.merge .overriding c).merge .overriding c = d.merge .overriding c := by
  intro d
  have h := holds_accumulate name additions
  exact ⟨fun _ _ _ _ hboth => h.merge_alike hboth, fun _ hnone => h.merge_added_again hnone,
    fun _ hc => h.merge_overridden_again hc.nodup⟩

/-- One of many recipes for a type. -/
def stock (serial index : ℕ) : Recipe Unit Unit :=
  .ofFactory serial .retained (.product index) [] fun _ world => (⟨.made (), []⟩, world)

/-- Two components that share recipes. -/
def stockLeft : Component Unit Unit := ⟨"left", [stock 0 0, stock 1 1]⟩

/-- The other one, which has them in another order. -/
def stockRight : Component Unit Unit := ⟨"right", [stock 1 1, stock 0 0, stock 2 2]⟩

/-- In a draft with another recipe for a type that both components have, merging the two brings
a conflict more than merging what they come to. -/
theorem merge_grouping_stock :
    let d := accumulate "base" [.recipe .adding (stock 3 3), .recipe .adding (stock 4 0)]
    let once := d.merge .overriding stockLeft
    ∃ both, (Component.merged "both" [stockLeft, stockRight]).build = .ok both ∧
      ((d.merge .adding stockLeft).merge .adding stockRight).Alike (d.merge .adding both) ∧
      ((d.merge .adding stockLeft).merge .adding stockRight).conflicts =
        (d.merge .adding both).conflicts ++ [.duplicate (.of (.product 0))] ∧
      d.recipes ≠ once.recipes ∧ once.merge .overriding stockLeft = once ∧
      (d.merge .adding ⟨"rest", [stock 2 2, stock 3 3]⟩).merge .adding
          ⟨"rest", [stock 2 2, stock 3 3]⟩ =
        d.merge .adding ⟨"rest", [stock 2 2, stock 3 3]⟩ := by
  intro d once
  obtain ⟨halike, hadded, hoverridden⟩ := merge_grouping "base"
    [.recipe .adding (stock 3 3), .recipe .adding (stock 4 0)]
  have hleft : stockLeft.Built := ⟨"left", stockLeft.recipes.map (.recipe .adding), rfl⟩
  have hserials : d.recipes.map (·.serial) ≠ once.recipes.map (·.serial) := by decide
  exact ⟨_, rfl, halike stockLeft stockRight _ "both" rfl, rfl, mt (congrArg _) hserials,
    hoverridden stockLeft hleft, hadded _ rfl⟩

end Draft

end Wiring
