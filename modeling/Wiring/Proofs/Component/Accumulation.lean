/-
What a draft comes to, read off the history of what was added to it.

* `Addition`, `Draft.accumulate`: recipes and whole components that are added to a draft in
  turn, each adding or overriding; `Draft.accumulate_eq`: they come down to insertions of
  single recipes;
* `standing`: the recipe that stands for a type after some insertions;
  `standing_append_self`, `standing_append_of_ne`: what one more insertion does to it;
* `clashes`: the conflicts that arise when recipes are inserted in turn;
* `Draft.Holds`: a draft as some insertions make it; `Draft.Holds.insert`: one more
  insertion keeps this;
* `Draft.accumulation`: **a draft holds each inserted type once, in the order of the first
  insertions, with the recipe that stands for it, and exactly the clashes as conflicts**.
-/
import Mathlib.Data.List.Induction
import Mathlib.Data.List.Nodup
import Wiring.Component.Draft

namespace Wiring

variable {σ V : Type}

/-! ### Histories -/

/-- A recipe that is inserted, and what it is to do about another one for its type. -/
abbrev Inserted (σ V : Type) := Insertion × Recipe σ V

/-- Something that is added to a draft. -/
inductive Addition (σ V : Type) where
  /-- One recipe. -/
  | recipe (mode : Insertion) (r : Recipe σ V)
  /-- All recipes of a component. -/
  | component (mode : Insertion) (c : Component σ V)

/-- The insertions of single recipes that an addition comes down to. -/
def Addition.entries : Addition σ V → List (Inserted σ V)
  | .recipe mode r => [(mode, r)]
  | .component mode c => c.recipes.map fun r => (mode, r)

namespace Draft

/-- Adds a recipe or a component. -/
def extend (d : Draft σ V) : Addition σ V → Draft σ V
  | .recipe mode r => d.insert mode r
  | .component mode c => d.merge mode c

/-- The draft of the name `name` to which everything in a list was added in turn. -/
def accumulate (name : String) (additions : List (Addition σ V)) : Draft σ V :=
  additions.foldl extend (new name)

/-- Inserts recipes in turn, each in its own way. -/
def insertEach (d : Draft σ V) (entries : List (Inserted σ V)) : Draft σ V :=
  entries.foldl (fun d e => d.insert e.1 e.2) d

lemma extend_eq (d : Draft σ V) (a : Addition σ V) : d.extend a = d.insertEach a.entries := by
  cases a with
  | recipe mode r => rfl
  | component mode c => rw [extend, merge, insertAll, Addition.entries, insertEach, List.foldl_map]

/-- Additions come down to insertions of single recipes. -/
lemma accumulate_eq (name : String) (additions : List (Addition σ V)) :
    accumulate name additions = (new name).insertEach (additions.flatMap Addition.entries) := by
  rw [accumulate, insertEach, List.foldl_flatMap]
  congr 1
  funext d a
  exact d.extend_eq a

end Draft

/-! ### What stands for a type -/

/-- The recipe that stands for a type after some insertions: that of the last overriding
insertion after the first one, or else that of the first. -/
def standing (key : TypeKey) (entries : List (Inserted σ V)) : Option (Recipe σ V) :=
  match entries.filter fun e => e.2.key = key with
  | [] => none
  | first :: later =>
    some ((later.filter fun e => e.1 = .overriding).getLast?.getD first).2

/-- The conflict that arises when a recipe is inserted after others: another one stands for
its type, and it is not to take the place of that one. -/
def clash? (before : List (Inserted σ V)) : Inserted σ V → Option Conflict
  | (.overriding, _) => none
  | (.adding, r) =>
    if (standing r.key before).any (·.serial ≠ r.serial) then some (.duplicate r.type) else none

/-- The conflicts that arise when recipes are inserted in turn. -/
def clashes (entries : List (Inserted σ V)) : List Conflict :=
  entries.zipIdx.filterMap fun (e, place) => clash? (entries.take place) e

variable {entries : List (Inserted σ V)}

/-- Nothing stands for a type before its first insertion. -/
lemma standing_eq_none_iff {key : TypeKey} :
    standing key entries = none ↔ key ∉ entries.map fun e => e.2.key := by
  have hnone : standing key entries = none ↔ (entries.filter fun e => e.2.key = key) = [] := by
    rw [standing]
    split <;> simp [*]
  rw [hnone, List.filter_eq_nil_iff]
  simp

/-- Insertions for other types change nothing. -/
lemma standing_append_of_ne {key : TypeKey} {e : Inserted σ V} (h : e.2.key ≠ key) :
    standing key (entries ++ [e]) = standing key entries := by
  rw [standing, standing, List.filter_append, List.filter_singleton]
  simp [h]

/-- The first insertion of a type decides what stands for it, and after that each overriding
one does. -/
lemma standing_append_self (mode : Insertion) (r : Recipe σ V) :
    standing r.key (entries ++ [(mode, r)]) =
      match standing r.key entries, mode with
      | none, _ => some r
      | some _, .overriding => some r
      | some q, .adding => some q := by
  rw [standing, standing, List.filter_append, List.filter_singleton]
  cases hf : entries.filter fun e => e.2.key = r.key with
  | nil => simp
  | cons first later => cases mode <;> simp

/-- One more insertion adds its own clash. -/
lemma clashes_append (e : Inserted σ V) :
    clashes (entries ++ [e]) = clashes entries ++ (clash? entries e).toList := by
  have hold : entries.zipIdx.filterMap
      (fun (q : Inserted σ V × ℕ) => clash? ((entries ++ [e]).take q.2) q.1) = clashes entries := by
    refine List.filterMap_congr fun q hq => ?_
    have hlt : q.2 < entries.length := by
      have := List.mem_zipIdx' hq
      omega
    rw [List.take_append_of_le_length (Nat.le_of_lt hlt)]
  rw [clashes, List.zipIdx_append, List.filterMap_append]
  refine congrArg₂ (· ++ ·) hold ?_
  cases h : clash? entries e <;> simp [h]

/-- A type is listed at its first insertion. -/
lemma eraseDups_append_singleton {keys : List TypeKey} (key : TypeKey) :
    (keys ++ [key]).eraseDups =
      if key ∈ keys then keys.eraseDups else keys.eraseDups ++ [key] := by
  rw [List.eraseDups_append]
  by_cases h : key ∈ keys <;> simp [h, List.removeAll, List.eraseDups_cons]

lemma nodup_eraseDups (keys : List TypeKey) : keys.eraseDups.Nodup := by
  induction keys using List.reverseRecOn with
  | nil => exact List.nodup_nil
  | append_singleton keys key ih =>
      rw [eraseDups_append_singleton]
      split
      · exact ih
      · rename_i hnew
        refine List.nodup_append.2 ⟨ih, List.nodup_singleton key, fun a ha b hb => ?_⟩
        rw [List.mem_eraseDups] at ha
        rw [List.mem_singleton.1 hb]
        exact fun heq => hnew (heq ▸ ha)

/-! ### Drafts -/

namespace Draft

/-- The draft is as these insertions make it. -/
structure Holds (d : Draft σ V) (entries : List (Inserted σ V)) : Prop where
  indexed : d.Indexed
  keys : d.recipes.map Recipe.key = (entries.map fun e => e.2.key).eraseDups
  stands : ∀ r ∈ d.recipes, standing r.key entries = some r
  conflicts : d.conflicts = clashes entries

lemma holds_new (name : String) : (new name : Draft σ V).Holds [] :=
  ⟨indexed_new name, rfl, fun r hr => (by cases hr), rfl⟩

variable {d : Draft σ V}

lemma fate_of_none {r : Recipe σ V} (hp : d.positions.get? r.key = none) (mode : Insertion) :
    d.fate mode r = .appended := by
  simp only [fate, hp]

lemma fate_overriding {r : Recipe σ V} {position : ℕ}
    (hp : d.positions.get? r.key = some position) :
    d.fate .overriding r = .replaces position := by
  simp only [fate, hp]

lemma fate_adding {r q : Recipe σ V} {position : ℕ}
    (hp : d.positions.get? r.key = some position) (hq : d.recipes[position]? = some q) :
    d.fate .adding r = if q.serial = r.serial then .known else .refused := by
  simp only [fate, hp, holdsAt, hq, Option.any_some, decide_eq_true_eq]

/-- What stands for a type that has a place is the recipe at that place. -/
lemma Holds.standing_eq (h : d.Holds entries) {key : TypeKey} {position : ℕ}
    (hp : d.positions.get? key = some position) :
    ∃ q, d.recipes[position]? = some q ∧ q.key = key ∧ standing key entries = some q := by
  obtain ⟨q, hq, rfl⟩ := (h.indexed key position).1 hp
  exact ⟨q, hq, rfl, h.stands q (List.mem_of_getElem? hq)⟩

/-- The types that have a place are those that were inserted. -/
lemma Holds.get?_eq_none_iff (h : d.Holds entries) {key : TypeKey} :
    d.positions.get? key = none ↔ key ∉ entries.map fun e => e.2.key := by
  rw [← List.mem_eraseDups, ← h.keys]
  constructor
  · intro hnone hmem
    obtain ⟨q, hq, rfl⟩ := List.mem_map.1 hmem
    obtain ⟨position, hposition⟩ := List.getElem?_of_mem hq
    rw [(h.indexed q.key position).2 ⟨q, hposition, rfl⟩] at hnone
    cases hnone
  · intro hmem
    by_contra hsome
    obtain ⟨position, hposition⟩ := Option.ne_none_iff_exists'.1 hsome
    obtain ⟨q, hq, rfl⟩ := (h.indexed key position).1 hposition
    exact hmem (List.mem_map_of_mem (List.mem_of_getElem? hq))

lemma Holds.mem_of_get? (h : d.Holds entries) {key : TypeKey} {position : ℕ}
    (hp : d.positions.get? key = some position) : key ∈ entries.map fun e => e.2.key := by
  by_contra hnew
  rw [h.get?_eq_none_iff.2 hnew] at hp
  cases hp

/-- A recipe for a new type is appended. -/
lemma Holds.append (h : d.Holds entries) (mode : Insertion) {r : Recipe σ V}
    (hp : d.positions.get? r.key = none) :
    (d.insert mode r).Holds (entries ++ [(mode, r)]) := by
  have hnew := h.get?_eq_none_iff.1 hp
  have hinsert : d.insert mode r =
      { d with
        recipes := d.recipes ++ [r]
        positions := d.positions.insert r.key d.recipes.length } := by
    rw [insert, fate_of_none hp]
  have hstanding := standing_eq_none_iff.2 hnew
  refine ⟨indexed_insert h.indexed mode r, ?_, fun q hq => ?_, ?_⟩
  · rw [hinsert, List.map_append, List.map_append, List.map_singleton, List.map_singleton,
      eraseDups_append_singleton, if_neg hnew, h.keys]
  · rw [hinsert] at hq
    rcases List.mem_append.1 hq with hq | hq
    · have hne : r.key ≠ q.key := by
        intro hkey
        rw [hkey, h.stands q hq] at hstanding
        cases hstanding
      rw [standing_append_of_ne hne]
      exact h.stands q hq
    · obtain rfl := List.mem_singleton.1 hq
      rw [standing_append_self, hstanding]
  · rw [hinsert, clashes_append, h.conflicts]
    cases mode <;> simp [clash?, hstanding]

/-- A recipe that overrides takes the place of the one that stood there. -/
lemma Holds.replace (h : d.Holds entries) {r : Recipe σ V} {position : ℕ}
    (hp : d.positions.get? r.key = some position) :
    (d.insert .overriding r).Holds (entries ++ [(.overriding, r)]) := by
  obtain ⟨old, hold, hkey, hstanding⟩ := h.standing_eq hp
  have hinsert : d.insert .overriding r =
      { d with recipes := d.recipes.set position r } := by
    rw [insert, fate_overriding hp]
  refine ⟨indexed_insert h.indexed .overriding r, ?_, fun q hq => ?_, ?_⟩
  · have hset : (d.recipes.map Recipe.key).set position r.key = d.recipes.map Recipe.key := by
      obtain ⟨hlt, hget⟩ := List.getElem?_eq_some_iff.1 hold
      rw [← hkey, ← hget, ← List.map_set, List.set_getElem_self]
    rw [hinsert, List.map_set, hset, List.map_append, List.map_singleton,
      eraseDups_append_singleton, if_pos (h.mem_of_get? hp), h.keys]
  · rw [hinsert] at hq
    obtain ⟨place, hplace⟩ := List.getElem?_of_mem hq
    rw [List.getElem?_set] at hplace
    by_cases hsame : position = place
    · obtain rfl : r = q := by
        rw [if_pos hsame] at hplace
        split at hplace
        · exact Option.some.inj hplace
        · cases hplace
      rw [standing_append_self, hstanding]
    · rw [if_neg hsame] at hplace
      -- the type of `r` has no second place
      have hne : r.key ≠ q.key := by
        intro hkey
        have := (h.indexed r.key place).2 ⟨q, hplace, hkey.symm⟩
        rw [hp] at this
        exact hsame (Option.some.inj this)
      rw [standing_append_of_ne hne]
      exact h.stands q (List.mem_of_getElem? hplace)
  · rw [hinsert, clashes_append, h.conflicts]
    simp [clash?]

/-- A recipe that is added to one that stands for its type leaves that one, and is in conflict
with it unless it is the very same. -/
lemma Holds.refuse (h : d.Holds entries) {r : Recipe σ V} {position : ℕ}
    (hp : d.positions.get? r.key = some position) :
    (d.insert .adding r).Holds (entries ++ [(.adding, r)]) := by
  obtain ⟨old, hold, hkey, hstanding⟩ := h.standing_eq hp
  have hfate := fate_adding hp hold
  have hrecipes : (d.insert .adding r).recipes = d.recipes := by
    rw [insert, hfate]
    by_cases hserial : old.serial = r.serial <;> simp [hserial]
  refine ⟨indexed_insert h.indexed .adding r, ?_, fun q hq => ?_, ?_⟩
  · rw [hrecipes, List.map_append, List.map_singleton, eraseDups_append_singleton,
      if_pos (h.mem_of_get? hp), h.keys]
  · rw [hrecipes] at hq
    by_cases hne : r.key = q.key
    · have hq' := h.stands q hq
      rw [← hne] at hq' ⊢
      rw [standing_append_self, hq']
    · rw [standing_append_of_ne hne]
      exact h.stands q hq
  · rw [clashes_append, ← h.conflicts, insert, hfate]
    by_cases hserial : old.serial = r.serial <;> simp [clash?, hstanding, hserial]

/-- **One more insertion** keeps a draft as the insertions make it. -/
lemma Holds.insert (h : d.Holds entries) (e : Inserted σ V) :
    (d.insert e.1 e.2).Holds (entries ++ [e]) := by
  obtain ⟨mode, r⟩ := e
  cases hp : d.positions.get? r.key with
  | none => exact h.append mode hp
  | some position =>
      cases mode with
      | adding => exact h.refuse hp
      | overriding => exact h.replace hp

lemma Holds.insertEach (h : d.Holds entries) (later : List (Inserted σ V)) :
    (d.insertEach later).Holds (entries ++ later) := by
  induction later generalizing d entries with
  | nil => simpa [Draft.insertEach] using h
  | cons e rest ih => simpa [Draft.insertEach] using ih (h.insert e)

@[simp] lemma name_insert (d : Draft σ V) (mode : Insertion) (r : Recipe σ V) :
    (d.insert mode r).name = d.name := by
  rw [insert]
  split <;> rfl

@[simp] lemma name_insertEach (d : Draft σ V) (entries : List (Inserted σ V)) :
    (d.insertEach entries).name = d.name := by
  induction entries generalizing d with
  | nil => rfl
  | cons e rest ih => exact (ih _).trans (d.name_insert e.1 e.2)

/-- **What a draft comes to.** After any recipes and components were added to a new draft, it
lists each inserted type once, in the order of the first insertions, with the recipe that
stands for it. Its conflicts are the clashes of the insertions in turn, and these are what
keeps the component from being built; if there are none, the component has the name and the
recipes of the draft. -/
theorem accumulation (name : String) (additions : List (Addition σ V)) :
    let entries := additions.flatMap Addition.entries
    let d := accumulate name additions
    (d.recipes.map Recipe.key).Nodup ∧
    d.recipes.map Recipe.key = (entries.map fun e => e.2.key).eraseDups ∧
    (∀ r ∈ d.recipes, standing r.key entries = some r) ∧
    d.conflicts = clashes entries ∧
    d.build = if clashes entries = [] then .ok ⟨name, d.recipes⟩
      else .error ⟨name, clashes entries⟩ := by
  intro entries d
  have hd : d = (new name).insertEach entries := accumulate_eq name additions
  have hholds : d.Holds entries := by
    rw [hd]
    exact (holds_new name).insertEach entries
  have hname : d.name = name := by
    rw [hd, name_insertEach]
    rfl
  refine ⟨?_, hholds.keys, hholds.stands, hholds.conflicts, ?_⟩
  · rw [hholds.keys]
    exact nodup_eraseDups _
  · rw [build, hname, hholds.conflicts]
    simp only [List.isEmpty_iff]

end Draft

end Wiring
