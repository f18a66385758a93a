/-
The walk of a survey as a relation between what is to be done and the states before and
after it, without a bound on the depth.

* `Survey.Walk`: the walk, one rule for each thing it can meet;
* `Survey.Extends`, `Survey.Walk.extends`: a walk ends where it began, forgets nothing it
  has noted and unsettles no type;
* `Survey.OnPath`: the chain is a path of dependencies that passes no type twice, and the
  pending types are exactly those on it; `Survey.Walk.onPath`: every walk keeps this;
* `Survey.walk_visit`, `Survey.walk_run`: the survey that is run is such a walk, its
  bound on the depth is never reached.
-/
import Wiring.Book.Survey
import Wiring.Proofs.Book.Graph

namespace Wiring

open Relation

variable {σ V : Type}

namespace Survey

/-- A part of a survey. -/
inductive Task (σ V : Type) where
  /-- To visit a recipe. -/
  | visit (r : Recipe σ V)
  /-- To go through dependencies of a recipe. -/
  | scan (r : Recipe σ V) (dependencies : List Dependency)
  /-- To visit recipes one after the other. -/
  | roots (recipes : List (Recipe σ V))

/-- The walk that carries out a task. -/
inductive Walk (b : Book σ V) : Task σ V → Survey → Survey → Prop
  | known {r : Recipe σ V} {s : Survey} (settled : s.marks.get? r.key = some .settled) :
      Walk b (.visit r) s (s.note (.known r.type))
  | circle {r : Recipe σ V} {s : Survey} (pending : s.marks.get? r.key = some .pending) :
      Walk b (.visit r) s (s.note (s.circleTo r.type))
  | enter {r : Recipe σ V} {s s' : Survey} (fresh : s.marks.get? r.key = none)
      (below : Walk b (.scan r r.dependencies) (s.enter r.type) s') :
      Walk b (.visit r) s (s'.leave r.type)
  | scanned {r : Recipe σ V} {s : Survey} : Walk b (.scan r []) s s
  | lacking {r : Recipe σ V} {d : Dependency} {ds : List Dependency} {s s' : Survey}
      (absent : b.recipe? d.type.key = none)
      (rest : Walk b (.scan r ds) (s.note (.lacking d r.type)) s') :
      Walk b (.scan r (d :: ds)) s s'
  | follow {r q : Recipe σ V} {d : Dependency} {ds : List Dependency} {s s₁ s' : Survey}
      (found : b.recipe? d.type.key = some q) (visit : Walk b (.visit q) s s₁)
      (rest : Walk b (.scan r ds) s₁ s') : Walk b (.scan r (d :: ds)) s s'
  | finished {s : Survey} : Walk b (.roots []) s s
  | root {r : Recipe σ V} {rs : List (Recipe σ V)} {s s₁ s' : Survey}
      (visit : Walk b (.visit r) s s₁) (rest : Walk b (.roots rs) s₁ s') :
      Walk b (.roots (r :: rs)) s s'

variable {b : Book σ V}

/-! ### What a walk leaves as it was -/

/-- Nothing that is noted or settled in the first state is lost in the second one, and
the chains are the same. -/
structure Extends (s s' : Survey) : Prop where
  chain : s'.chain = s.chain
  settled : ∀ k, s.marks.get? k = some .settled → s'.marks.get? k = some .settled
  steps : s.steps <+: s'.steps

lemma Extends.refl (s : Survey) : s.Extends s := ⟨rfl, fun _ h => h, List.prefix_refl _⟩

lemma Extends.trans {s s₁ s' : Survey} (h : s.Extends s₁) (h' : s₁.Extends s') :
    s.Extends s' :=
  ⟨h'.chain.trans h.chain, fun k hk => h'.settled k (h.settled k hk),
    h.steps.trans h'.steps⟩

lemma extends_note (s : Survey) (step : Encounter) : s.Extends (s.note step) :=
  ⟨rfl, fun _ h => h, List.prefix_append _ _⟩

/-- What lies between entering and leaving a recipe that was not visited before. -/
lemma extends_leave {s s' : Survey} {type : TypeRef} (fresh : s.marks.get? type.key = none)
    (h : (s.enter type).Extends s') : s.Extends (s'.leave type) := by
  refine ⟨?_, fun k hk => ?_, ?_⟩
  · simp [leave, h.chain, enter]
  · have hne : k ≠ type.key := by
      rintro rfl
      rw [fresh] at hk
      cases hk
    have hs : (s.enter type).marks.get? k = some .settled := by
      rw [enter, Table.get?_insert_of_ne _ hne]
      exact hk
    rw [leave, Table.get?_insert_of_ne _ hne]
    exact h.settled k hs
  · exact (List.prefix_append _ _).trans (h.steps.trans (List.prefix_append _ _))

/-- Every walk ends where it began and keeps what it found. -/
lemma Walk.extends {task : Task σ V} {s s' : Survey} (h : Walk b task s s') :
    s.Extends s' := by
  induction h with
  | known | circle => exact extends_note _ _
  | enter fresh _ ih => exact extends_leave fresh ih
  | scanned | finished => exact .refl _
  | lacking _ _ ih => exact (extends_note _ _).trans ih
  | follow _ _ _ ihv ihr => exact ihv.trans ihr
  | root _ _ ihv ihr => exact ihv.trans ihr

/-- The type that is entered is marked. -/
lemma isSome_marks_enter_self (s : Survey) (type : TypeRef) :
    ((s.enter type).marks.get? type.key).isSome := by
  rw [enter, Table.get?_insert_self]
  rfl

/-- What is marked stays so when a recipe is entered. -/
lemma isSome_marks_enter {s : Survey} {k : TypeKey} (type : TypeRef)
    (hk : (s.marks.get? k).isSome) : ((s.enter type).marks.get? k).isSome := by
  rw [enter, Table.get?_insert]
  split
  · rfl
  · exact hk

/-- What is marked stays so when a recipe is left. -/
lemma isSome_marks_leave {s : Survey} {k : TypeKey} (type : TypeRef)
    (hk : (s.marks.get? k).isSome) : ((s.leave type).marks.get? k).isSome := by
  rw [leave, Table.get?_insert]
  split
  · rfl
  · exact hk

/-- **What is marked stays marked** along a walk. -/
lemma Walk.isSome_marks {task : Task σ V} {s s' : Survey} (h : Walk b task s s') {k : TypeKey}
    (hk : (s.marks.get? k).isSome) : (s'.marks.get? k).isSome := by
  induction h with
  | known | circle | scanned | finished => exact hk
  | enter _ _ ih => exact isSome_marks_leave _ (ih (isSome_marks_enter _ hk))
  | lacking _ _ ih => exact ih hk
  | follow _ _ _ ihv ihr => exact ihr (ihv hk)
  | root _ _ ihv ihr => exact ihr (ihv hk)

/-! ### The path to where the walk is -/

/-- The chain is a path of dependencies along recipes of the book that passes no type
twice, and the pending types are those on it. -/
structure OnPath (b : Book σ V) (s : Survey) : Prop where
  nodup : (s.chain.map TypeRef.key).Nodup
  pending_iff : ∀ k, s.marks.get? k = some .pending ↔ k ∈ s.chain.map TypeRef.key
  held : ∀ t ∈ s.chain, ∃ r, b.recipe? t.key = some r ∧ r.type = t
  linked : b.IsPath (s.chain.map TypeRef.key)

lemma onPath_start : start.OnPath b :=
  ⟨List.nodup_nil, fun k => by simp [start], fun t ht => by simp [start] at ht,
    List.isChain_nil⟩

lemma OnPath.note {s : Survey} (h : s.OnPath b) (step : Encounter) :
    (s.note step).OnPath b :=
  ⟨h.nodup, h.pending_iff, h.held, h.linked⟩

/-- A chain is never longer than the book. -/
lemma OnPath.length_chain_le {s : Survey} (h : s.OnPath b) : s.chain.length ≤ b.size := by
  have hp : ∀ k ∈ s.chain.map TypeRef.key, b.produces k := by
    intro k hk
    obtain ⟨t, ht, rfl⟩ := List.mem_map.1 hk
    obtain ⟨r, hr, -⟩ := h.held t ht
    exact Book.produces_iff.2 ⟨r, hr⟩
  simpa using Book.length_le_size h.nodup hp

/-- A recipe that is met while it is pending stands on the chain. -/
lemma OnPath.mem_chain {s : Survey} (h : s.OnPath b) {r : Recipe σ V}
    (hr : b.recipe? r.key = some r) (pending : s.marks.get? r.key = some .pending) :
    r.type ∈ s.chain := by
  obtain ⟨t, ht, hkey⟩ := List.mem_map.1 ((h.pending_iff r.key).1 pending)
  obtain ⟨q, hq, rfl⟩ := h.held t ht
  rw [hkey, hr] at hq
  exact Option.some.inj hq ▸ ht

/-- Entering a recipe that the end of the chain depends on prolongs the path. -/
lemma OnPath.enter {s : Survey} (h : s.OnPath b) {r : Recipe σ V}
    (hr : b.recipe? r.key = some r) (fresh : s.marks.get? r.key = none)
    (hend : ∀ t ∈ s.chain.getLast?, b.DependsOn t.key r.key) :
    (s.enter r.type).OnPath b := by
  have hnew : r.key ∉ s.chain.map TypeRef.key := fun hm => by
    rw [(h.pending_iff r.key).2 hm] at fresh
    cases fresh
  refine ⟨?_, fun k => ?_, fun t ht => ?_, ?_⟩
  · rw [Survey.enter, List.map_append, List.nodup_append]
    refine ⟨h.nodup, by simp, fun k hk u hu => ?_⟩
    rintro rfl
    have hr : k = r.key := List.mem_singleton.1 hu
    exact hnew (hr ▸ hk)
  · simp only [Survey.enter, Table.get?_insert, List.map_append, List.mem_append,
      List.map_cons, List.map_nil, List.mem_singleton, ← h.pending_iff k]
    by_cases hk : k = r.type.key <;> simp [hk]
  · rcases List.mem_append.1 ht with ht | ht
    · exact h.held t ht
    · exact ⟨r, by rwa [List.mem_singleton.1 ht], (List.mem_singleton.1 ht).symm⟩
  · rw [Book.IsPath, Survey.enter, List.map_append, List.isChain_append]
    refine ⟨h.linked, List.isChain_singleton _, fun k hk u hu => ?_⟩
    rw [List.getLast?_map] at hk
    obtain ⟨t, ht, rfl⟩ := Option.map_eq_some_iff.1 hk
    obtain rfl : r.type.key = u := by simpa using hu
    exact hend t ht

/-- Leaving the recipe at the end of the chain shortens the path. -/
lemma OnPath.leave {s : Survey} (h : s.OnPath b) {type : TypeRef} {front : List TypeRef}
    (hchain : s.chain = front ++ [type]) : (s.leave type).OnPath b := by
  have hn := h.nodup
  have hl := h.linked
  rw [hchain, List.map_append] at hn
  rw [hchain, List.map_append] at hl
  have hfront : (s.leave type).chain = front := by simp [Survey.leave, hchain]
  have hout : type.key ∉ front.map TypeRef.key := fun hm =>
    (List.nodup_append.1 hn).2.2 _ hm _ (by simp) rfl
  refine ⟨?_, fun k => ?_, fun t ht => h.held t ?_, ?_⟩
  · rw [hfront]
    exact (List.nodup_append.1 hn).1
  · rw [hfront]
    simp only [Survey.leave, Table.get?_insert]
    by_cases hk : k = type.key
    · simp [hk, hout]
    · rw [if_neg hk, h.pending_iff k, hchain]
      simp [hk]
  · rw [hfront] at ht
    rw [hchain]
    exact List.mem_append_left _ ht
  · rw [hfront]
    exact hl.left_of_append

/-- Where a task may be taken up: its recipes are in the book, and the end of the chain
is what has brought the walk there. -/
def Task.Fits (b : Book σ V) (s : Survey) : Task σ V → Prop
  | .visit r => b.recipe? r.key = some r ∧ ∀ t ∈ s.chain.getLast?, b.DependsOn t.key r.key
  | .scan r ds => b.recipe? r.key = some r ∧ s.chain.getLast? = some r.type ∧
      ds ⊆ r.dependencies
  | .roots rs => s.chain = [] ∧ ∀ r ∈ rs, b.recipe? r.key = some r

/-- The dependencies of a recipe that was just entered may be gone through. -/
lemma Task.fits_enter {s : Survey} {r : Recipe σ V} (h : Task.Fits b s (.visit r)) :
    Task.Fits b (s.enter r.type) (.scan r r.dependencies) :=
  ⟨h.1, by simp [enter], List.Subset.refl _⟩

/-- The recipe that the next dependency leads to may be visited. -/
lemma Task.fits_follow (hb : b.Keyed) {s : Survey} {r q : Recipe σ V} {d : Dependency}
    {ds : List Dependency} (h : Task.Fits b s (.scan r (d :: ds)))
    (found : b.recipe? d.type.key = some q) : Task.Fits b s (.visit q) := by
  obtain ⟨hr, hend, hsub⟩ := h
  have hq := hb.key_of_recipe? found
  refine ⟨hq ▸ found, fun t ht => ?_⟩
  obtain rfl : r.type = t := by rw [hend] at ht; simpa using ht
  rw [hq]
  exact Book.dependsOn_of_mem hr (hsub (by simp)) found

/-- What remains of a list of dependencies may be gone through from any state with the
same chain. -/
lemma Task.fits_rest {s s' : Survey} {r : Recipe σ V} {d : Dependency}
    {ds : List Dependency} (h : Task.Fits b s (.scan r (d :: ds)))
    (hchain : s'.chain = s.chain) : Task.Fits b s' (.scan r ds) :=
  ⟨h.1, hchain ▸ h.2.1, fun _ hd => h.2.2 (List.mem_cons_of_mem _ hd)⟩

/-- The first of several recipes may be visited. -/
lemma Task.fits_root {s : Survey} {r : Recipe σ V} {rs : List (Recipe σ V)}
    (h : Task.Fits b s (.roots (r :: rs))) : Task.Fits b s (.visit r) :=
  ⟨h.2 r (by simp), fun t ht => by simp [h.1] at ht⟩

/-- The other recipes may be visited from any state with the same chain. -/
lemma Task.fits_roots {s s' : Survey} {r : Recipe σ V} {rs : List (Recipe σ V)}
    (h : Task.Fits b s (.roots (r :: rs))) (hchain : s'.chain = s.chain) :
    Task.Fits b s' (.roots rs) :=
  ⟨hchain.trans h.1, fun q hq => h.2 q (List.mem_cons_of_mem _ hq)⟩

/-- **Every walk keeps to a path**: the chain stays a path that passes no type twice, and
the pending types stay those on it. -/
theorem Walk.onPath (hb : b.Keyed) {task : Task σ V} {s s' : Survey}
    (h : Walk b task s s') (hs : s.OnPath b) (hf : task.Fits b s) : s'.OnPath b := by
  induction h with
  | known | circle => exact hs.note _
  | enter fresh below ih =>
      have hin := hs.enter hf.1 fresh hf.2
      exact (ih hin (Task.fits_enter hf)).leave below.extends.chain
  | scanned | finished => exact hs
  | lacking _ _ ih => exact ih (hs.note _) (Task.fits_rest hf rfl)
  | follow found visit _ ihv ihr =>
      exact ihr (ihv hs (Task.fits_follow hb hf found))
        (Task.fits_rest hf visit.extends.chain)
  | root visit _ ihv ihr =>
      exact ihr (ihv hs (Task.fits_root hf)) (Task.fits_roots hf visit.extends.chain)

/-! ### The survey that is run -/

/-- Going through dependencies with a visit that walks is a walk. -/
lemma walk_scan (hb : b.Keyed) {depth : ℕ} {r : Recipe σ V}
    (visits : ∀ q s, s.OnPath b → Task.Fits b s (.visit q) →
      b.size < depth + s.chain.length → Walk b (.visit q) s (visit b depth q s))
    (ds : List Dependency) {s : Survey} (hs : s.OnPath b)
    (hf : Task.Fits b s (.scan r ds)) (hd : b.size < depth + s.chain.length) :
    Walk b (.scan r ds) s (ds.foldl (fun s d =>
      match b.recipe? d.type.key with
      | none => s.note (.lacking d r.type)
      | some next => visit b depth next s) s) := by
  induction ds generalizing s with
  | nil => exact .scanned
  | cons d ds ih =>
      rw [List.foldl_cons]
      cases found : b.recipe? d.type.key with
      | none => exact .lacking found (ih (hs.note _) (Task.fits_rest hf rfl) hd)
      | some q =>
          have hv := visits q s hs (Task.fits_follow hb hf found) hd
          have hchain := hv.extends.chain
          exact .follow found hv
            (ih (hv.onPath hb hs (Task.fits_follow hb hf found))
              (Task.fits_rest hf hchain) (by rw [hchain]; exact hd))

/-- A visit is a walk if its depth and the chain together exceed the book. -/
lemma walk_visit (hb : b.Keyed) : ∀ (depth : ℕ) (r : Recipe σ V) (s : Survey),
    s.OnPath b → Task.Fits b s (.visit r) → b.size < depth + s.chain.length →
    Walk b (.visit r) s (visit b depth r s) := by
  intro depth
  induction depth with
  | zero =>
      intro r s hs _ hd
      have := hs.length_chain_le
      omega
  | succ depth ih =>
      intro r s hs hf hd
      rw [visit]
      cases hm : s.marks.get? r.key with
      | none =>
          refine .enter hm (walk_scan hb ih _ (hs.enter hf.1 hm hf.2) (Task.fits_enter hf) ?_)
          simp only [Survey.enter, List.length_append, List.length_singleton]
          omega
      | some mark =>
          cases mark with
          | settled => exact .known hm
          | pending => exact .circle hm

/-- **The survey that is run is a walk** from every recipe of the book: the bound on its
depth is never reached. -/
theorem walk_run (hb : b.Keyed) : Walk b (.roots b.recipes) start (run b) := by
  have key : ∀ (rs : List (Recipe σ V)) (s : Survey), s.OnPath b →
      Task.Fits b s (.roots rs) →
      Walk b (.roots rs) s (rs.foldl (fun s r => visit b (b.size + 1) r s) s) := by
    intro rs
    induction rs with
    | nil => exact fun s _ _ => .finished
    | cons r rs ih =>
        intro s hs hf
        have hv := walk_visit hb (b.size + 1) r s hs (Task.fits_root hf) (by omega)
        exact .root hv (ih _ (hv.onPath hb hs (Task.fits_root hf))
          (Task.fits_roots hf hv.extends.chain))
  exact key b.recipes start onPath_start ⟨rfl, fun r hr => hb.recipe?_of_mem hr⟩

end Survey

end Wiring
