/-
The names under which a book refers to types.

* `TypeRef.Means`, `Recipe.Renamed`, `Book.Renamed`: references to the same type; recipes, and
  books, that are the same but for the names under which dependencies are declared and exports
  are required;
* `Book.renamed_of`: components with such recipes have such books;
* `Book.Renamed.recipe?`, `Book.Renamed.produces`: what is looked up in both;
* `Survey.Renamed`, `Book.Renamed.survey`: the same walk through both books, step by step;
* `Book.Renamed.check`: **the checks of both come to the same verdict**, with the same defects in
  the same order but for the names of what is missing.
-/
import Mathlib.Data.List.Forall2
import Wiring.Book.Survey

namespace Wiring

open List (Forall₂)

variable {σ V : Type}

/-! ### Names -/

/-- The references are to the same type, maybe under different names. -/
def TypeRef.Means (t t' : TypeRef) : Prop := t.key = t'.key

/-- The parameters ask for the same. Only the declared names may be different. -/
def Parameter.Renamed (p p' : Parameter) : Prop := p.need = p'.need

/-- The dependencies are of the same kind on the same type. -/
structure Dependency.Renamed (d d' : Dependency) : Prop where
  type : d.type.Means d'.type
  optional : d.optional = d'.optional

/-- The recipes are the same but for the names under which they declare their dependencies. -/
structure Recipe.Renamed (r r' : Recipe σ V) : Prop where
  type : r.type = r'.type
  parameters : Forall₂ Parameter.Renamed r.parameters r'.parameters
  lifetime : r.lifetime = r'.lifetime
  activation : r.activation = r'.activation
  source : r.source = r'.source

/-- The tables have the same keys in the same order, with related values. -/
def Table.Rel {κ ν : Type} (R : ν → ν → Prop) (t t' : Table κ ν) : Prop :=
  Forall₂ (fun e e' => e.1 = e'.1 ∧ R e.2 e'.2) t.entries t'.entries

/-- The books list such recipes for the same types, and have to produce the same. -/
structure Book.Renamed (b b' : Book σ V) : Prop where
  recipes : b.byType.Rel Recipe.Renamed b'.byType
  exports : Forall₂ TypeRef.Means b.requiredExports b'.requiredExports

namespace Recipe

variable {r r' : Recipe σ V}

lemma Renamed.key (h : r.Renamed r') : r.key = r'.key := congrArg TypeRef.key h.type

lemma Renamed.isGiven (h : r.Renamed r') : r.isGiven = r'.isGiven := by
  rw [Recipe.isGiven, Recipe.isGiven, h.source]

lemma Renamed.isKept (h : r.Renamed r') : r.isKept = r'.isKept := by
  rw [Recipe.isKept, Recipe.isKept, h.lifetime, h.isGiven]

lemma Renamed.dependencies (h : r.Renamed r') :
    Forall₂ Dependency.Renamed r.dependencies r'.dependencies := by
  rw [Recipe.dependencies, Recipe.dependencies, List.forall₂_map_left_iff,
    List.forall₂_map_right_iff]
  refine h.parameters.imp fun p p' hp => ⟨?_, ?_⟩
  · exact congrArg Need.key hp
  · exact congrArg Need.isOptional hp

end Recipe

namespace Table

variable {κ ν : Type} [DecidableEq κ] {R : ν → ν → Prop} {t t' : Table κ ν}

/-- What is looked up in related tables is related. -/
lemma Rel.get? (h : t.Rel R t') (k : κ) : Option.Rel R (t.get? k) (t'.get? k) := by
  have hlook : ∀ {es es' : List (κ × ν)}, Forall₂ (fun e e' => e.1 = e'.1 ∧ R e.2 e'.2) es es' →
      Option.Rel R (look k es) (look k es') := by
    intro es es' hes
    induction hes with
    | nil => exact .none
    | @cons e e' rest rest' he hrest ih =>
        rw [look, look, he.1]
        split
        · exact .some he.2
        · exact ih
  exact hlook h

/-- Related tables stay so if related values are inserted for one key. -/
lemma Rel.insert (h : t.Rel R t') (k : κ) {v v' : ν} (hv : R v v') :
    (t.insert k v).Rel R (t'.insert k v') := by
  have hput : ∀ {es es' : List (κ × ν)}, Forall₂ (fun e e' => e.1 = e'.1 ∧ R e.2 e'.2) es es' →
      Forall₂ (fun e e' => e.1 = e'.1 ∧ R e.2 e'.2) (put k v es) (put k v' es') := by
    intro es es' hes
    induction hes with
    | nil => exact .cons ⟨rfl, hv⟩ .nil
    | @cons e e' rest rest' he hrest ih =>
        rw [put, put, he.1]
        split
        · exact .cons ⟨rfl, hv⟩ hrest
        · exact .cons he ih
  exact hput h

omit [DecidableEq κ] in
lemma Rel.values (h : t.Rel R t') : Forall₂ R t.values t'.values := by
  rw [Table.values, Table.values, List.forall₂_map_left_iff, List.forall₂_map_right_iff]
  exact h.imp fun e e' he => he.2

end Table

namespace Book

variable {b b' : Book σ V}

/-- Components with recipes that are the same but for names have such books. -/
lemma renamed_of {c c' : Component σ V} {exports exports' : List TypeRef}
    (hrecipes : Forall₂ Recipe.Renamed c.recipes c'.recipes)
    (hexports : Forall₂ TypeRef.Means exports exports') :
    (Book.of c exports).Renamed (Book.of c' exports') where
  recipes := by
    refine List.rel_foldl (P := Table.Rel Recipe.Renamed) (fun t t' ht r r' hr => ?_) .nil hrecipes
    rw [hr.key]
    exact Table.Rel.insert ht r'.key hr
  exports := hexports

section Renamed

variable (h : b.Renamed b')

include h

/-- For each type there are such recipes in both books, or none in either. -/
lemma Renamed.recipe? (key : TypeKey) :
    Option.Rel Recipe.Renamed (b.recipe? key) (b'.recipe? key) :=
  h.recipes.get? key

lemma Renamed.produces (key : TypeKey) : b.produces key = b'.produces key := by
  have hr := h.recipe? key
  rw [Book.produces, Book.produces]
  generalize b.recipe? key = o, b'.recipe? key = o' at hr
  cases hr <;> rfl

lemma Renamed.listed : Forall₂ Recipe.Renamed b.recipes b'.recipes := h.recipes.values

lemma Renamed.size : b.size = b'.size := h.recipes.length_eq

/-- In both rounds of an opening the factories for the same types are called. -/
lemma Renamed.activated (activation : Activation) :
    Forall₂ Recipe.Renamed (b.activated activation) (b'.activated activation) := by
  refine List.rel_filter (fun r r' hr => ?_) h.listed
  dsimp only
  rw [hr.activation, hr.isGiven]

end Renamed

end Book

/-! ### The survey -/

/-- The steps of two walks are the same but for the names of dependencies that have no recipe. -/
inductive Encounter.Renamed : Encounter → Encounter → Prop
  | same (step : Encounter) : Renamed step step
  | lacking {d d' : Dependency} (h : d.Renamed d') (requiredBy : TypeRef) :
      Renamed (.lacking d requiredBy) (.lacking d' requiredBy)

/-- The defects are the same but for the names of what is missing. -/
inductive Defect.Renamed : Defect → Defect → Prop
  | missingExport {t t' : TypeRef} (h : t.Means t') :
      Renamed (.missingExport t) (.missingExport t')
  | missingDependency {d d' : TypeRef} (h : d.Means d') (requiredBy : TypeRef) :
      Renamed (.missingDependency d requiredBy) (.missingDependency d' requiredBy)
  | circular (origin target : TypeRef) (chain : List TypeRef) :
      Renamed (.circular origin target chain) (.circular origin target chain)

/-- The verdicts of two checks: both find nothing, or both find defects that are the same but
for names, in the same order. -/
inductive SameVerdict : Except (List Defect) Unit → Except (List Defect) Unit → Prop
  | complete : SameVerdict (.ok ()) (.ok ())
  | defective {defects defects' : List Defect} (h : Forall₂ Defect.Renamed defects defects') :
      SameVerdict (.error defects) (.error defects')

lemma Encounter.Renamed.defect? {step step' : Encounter} (h : step.Renamed step') :
    Option.Rel Defect.Renamed step.defect? step'.defect? := by
  cases h with
  | same =>
      cases step with
      | circle origin target chain => exact .some (.circular origin target chain)
      | lacking d requiredBy =>
          rw [Encounter.defect?]
          split
          · exact .none
          · exact .some (.missingDependency rfl requiredBy)
      | entered | known | left | cutOff => exact .none
  | @lacking d d' h requiredBy =>
      rw [Encounter.defect?, Encounter.defect?, h.optional]
      split
      · exact .none
      · exact .some (.missingDependency h.type requiredBy)

/-- Two walks that have come equally far, by steps that are the same but for names. The chain of
types is the very same, since the types on it are entered under the names of their recipes. -/
structure Survey.Renamed (s s' : Survey) : Prop where
  marks : s.marks = s'.marks
  chain : s.chain = s'.chain
  steps : Forall₂ Encounter.Renamed s.steps s'.steps

namespace Survey

variable {s s' : Survey} {b b' : Book σ V}

lemma Renamed.note (h : s.Renamed s') {step step' : Encounter} (hstep : step.Renamed step') :
    (s.note step).Renamed (s'.note step') :=
  ⟨h.marks, h.chain, List.rel_append h.steps (.cons hstep .nil)⟩

lemma Renamed.enter (h : s.Renamed s') (type : TypeRef) : (s.enter type).Renamed (s'.enter type) :=
  ⟨congrArg (·.insert type.key .pending) h.marks, congrArg (· ++ [type]) h.chain,
    List.rel_append h.steps (.cons (.same _) .nil)⟩

lemma Renamed.leave (h : s.Renamed s') (type : TypeRef) : (s.leave type).Renamed (s'.leave type) :=
  ⟨congrArg (·.insert type.key .settled) h.marks, congrArg List.dropLast h.chain,
    List.rel_append h.steps (.cons (.same _) .nil)⟩

lemma Renamed.circleTo (h : s.Renamed s') (type : TypeRef) :
    s.circleTo type = s'.circleTo type := by
  rw [Survey.circleTo, Survey.circleTo, h.chain]

/-- The walks from recipes that are the same but for names stay together. -/
lemma renamed_visit (hb : b.Renamed b') (depth : ℕ) {r r' : Recipe σ V} (hr : r.Renamed r')
    (h : s.Renamed s') : (visit b depth r s).Renamed (visit b' depth r' s') := by
  induction depth generalizing r r' s s' with
  | zero =>
      rw [visit, visit, hr.type]
      exact h.note (.same _)
  | succ depth ih =>
      rw [visit, visit, h.marks, hr.key, hr.type]
      split
      · exact h.note (.same _)
      · rw [h.circleTo]
        exact h.note (.same _)
      · refine Renamed.leave (List.rel_foldl (P := Survey.Renamed) (fun s s' hs d d' hd => ?_)
          (h.enter r'.type) hr.dependencies) r'.type
        -- the dependency has a recipe in both books, or in neither
        have hkey : d.type.key = d'.type.key := hd.type
        have hnext := hb.recipe? d'.type.key
        rw [hkey]
        generalize b.recipe? d'.type.key = o, b'.recipe? d'.type.key = o' at hnext ⊢
        cases hnext with
        | none => exact hs.note (.lacking hd r'.type)
        | some hnext => exact ih hnext hs

end Survey

namespace Book

variable {b b' : Book σ V}

/-- **The walk through both books is the same**, step by step. -/
theorem Renamed.survey (h : b.Renamed b') : (Survey.run b).Renamed (Survey.run b') := by
  rw [Survey.run, Survey.run, h.size]
  refine List.rel_foldl (P := Survey.Renamed) (R := Recipe.Renamed) (fun s s' hs r r' hr => ?_)
    ⟨rfl, rfl, .nil⟩ h.listed
  exact Survey.renamed_visit h (b'.size + 1) hr hs

/-- The books have the same defects in the same order, but for the names of what is missing. -/
theorem Renamed.defects (h : b.Renamed b') : Forall₂ Defect.Renamed b.defects b'.defects := by
  refine List.rel_append ?_ (List.rel_filterMap (fun _ _ hstep => hstep.defect?) h.survey.steps)
  rw [List.forall₂_map_left_iff, List.forall₂_map_right_iff]
  refine (List.rel_filter (fun t t' ht => ?_) h.exports).imp fun t t' ht => .missingExport ht
  have hkey : t.key = t'.key := ht
  dsimp only
  rw [hkey, h.produces]

/-- **The checks of both books come to the same verdict**, but for the names of what is
missing. -/
theorem Renamed.check (h : b.Renamed b') : SameVerdict b.check b'.check := by
  have hdefects := h.defects
  rw [Book.check, Book.check]
  generalize b.defects = defects, b'.defects = defects' at hdefects ⊢
  cases hdefects with
  | nil => exact .complete
  | cons first rest => exact .defective (.cons first rest)

end Book

end Wiring
