/-
Tables: finite maps that list their keys in the order in which each first came.

* `Table.get?_insert_self`, `Table.get?_insert_of_ne`: what an insertion does to
  every lookup;
* `Table.keys_insert_of_mem`, `Table.keys_insert_of_not_mem`: a known key keeps
  its place and a new one is listed last;
* `Table.nodup_keys_insert`: no key is ever listed twice;
* `Table.get?_modify`: what a change of one value does to every lookup;
* `Table.get?_isSome_iff`: a lookup succeeds exactly at the listed keys.
-/

namespace Wiring

/-- A finite map from `κ` to `ν` whose keys are listed in the order of their
first insertion. -/
structure Table (κ ν : Type) where
  /-- The keys with their values, the oldest key first. -/
  entries : List (κ × ν)
  deriving DecidableEq, Repr

namespace Table

variable {κ ν : Type}

/-- The table without keys. -/
def empty : Table κ ν := ⟨[]⟩

instance : Inhabited (Table κ ν) := ⟨empty⟩

/-- The keys in the order of their first insertion. -/
def keys (t : Table κ ν) : List κ := t.entries.map Prod.fst

/-- The values in the order of the keys. -/
def values (t : Table κ ν) : List ν := t.entries.map Prod.snd

/-- The number of keys. -/
def size (t : Table κ ν) : Nat := t.entries.length

@[simp] theorem keys_empty : (empty : Table κ ν).keys = [] := rfl

variable [DecidableEq κ]

/-- The value of the first entry of `k` in a list of entries. -/
def look (k : κ) : List (κ × ν) → Option ν
  | [] => none
  | e :: rest => if k = e.1 then some e.2 else look k rest

/-- The value of `k`, if `k` is a key. -/
def get? (t : Table κ ν) (k : κ) : Option ν := look k t.entries

/-- Whether `k` is a key. -/
def contains (t : Table κ ν) (k : κ) : Bool := (t.get? k).isSome

/-- Gives `k` the value `v` in a list of entries, at the place `k` has or at the
end. -/
def put (k : κ) (v : ν) : List (κ × ν) → List (κ × ν)
  | [] => [(k, v)]
  | e :: rest => if k = e.1 then (k, v) :: rest else e :: put k v rest

/-- Gives `k` the value `v`. A known key keeps its place, a new one comes last. -/
def insert (t : Table κ ν) (k : κ) (v : ν) : Table κ ν := ⟨put k v t.entries⟩

/-- Changes the value of `k` by `f`, if `k` is a key. -/
def modify (t : Table κ ν) (k : κ) (f : ν → ν) : Table κ ν :=
  ⟨t.entries.map fun e => if e.1 = k then (e.1, f e.2) else e⟩

/-- The table without the key `k`. -/
def erase (t : Table κ ν) (k : κ) : Table κ ν := ⟨t.entries.filter (·.1 ≠ k)⟩

/-- The table of a list of pairs, inserted one after the other. -/
def ofList (pairs : List (κ × ν)) : Table κ ν :=
  pairs.foldl (fun t e => t.insert e.1 e.2) empty

/-! ### Lookups -/

@[simp] theorem get?_empty (k : κ) : (empty : Table κ ν).get? k = none := rfl

theorem look_put_self (k : κ) (v : ν) (es : List (κ × ν)) :
    look k (put k v es) = some v := by
  induction es with
  | nil => simp [put, look]
  | cons e rest ih => by_cases h : k = e.1 <;> simp [put, look, h, ih]

theorem look_put_of_ne {k j : κ} (h : j ≠ k) (v : ν) (es : List (κ × ν)) :
    look j (put k v es) = look j es := by
  induction es with
  | nil => simp [put, look, h]
  | cons e rest ih =>
    by_cases hk : k = e.1
    · have hj : j ≠ e.1 := hk ▸ h
      simp [put, look, hk, hj]
    · simp [put, look, hk, ih]

/-- A key just inserted has the value it was given. -/
@[simp] theorem get?_insert_self (t : Table κ ν) (k : κ) (v : ν) :
    (t.insert k v).get? k = some v :=
  look_put_self k v t.entries

/-- An insertion changes no other key. -/
theorem get?_insert_of_ne (t : Table κ ν) {k j : κ} (h : j ≠ k) (v : ν) :
    (t.insert k v).get? j = t.get? j :=
  look_put_of_ne h v t.entries

/-- Every lookup after an insertion. -/
theorem get?_insert (t : Table κ ν) (k j : κ) (v : ν) :
    (t.insert k v).get? j = if j = k then some v else t.get? j := by
  by_cases h : j = k
  · subst h; simp
  · simp [h, get?_insert_of_ne t h v]

/-- Every lookup after a change of one value. -/
theorem get?_modify (t : Table κ ν) (k j : κ) (f : ν → ν) :
    (t.modify k f).get? j = if j = k then (t.get? j).map f else t.get? j := by
  obtain ⟨es⟩ := t
  simp only [get?, modify]
  induction es with
  | nil => simp [look]
  | cons e rest ih =>
    by_cases hk : e.1 = k
    · by_cases hj : j = e.1
      · simp [look, hk, hj]
      · have hjk : j ≠ k := fun h => hj (h.trans hk.symm)
        simpa [look, hk, hj, hjk] using ih
    · by_cases hj : j = e.1
      · have hjk : j ≠ k := fun h => hk (hj.symm.trans h)
        simp [look, hk, hj]
      · simpa [look, hk, hj] using ih

/-- To change the value of something that is no key changes nothing. -/
theorem modify_of_get?_eq_none {t : Table κ ν} {k : κ} (h : t.get? k = none) (f : ν → ν) :
    t.modify k f = t := by
  obtain ⟨es⟩ := t
  simp only [get?, modify, mk.injEq] at h ⊢
  induction es with
  | nil => rfl
  | cons e rest ih =>
    by_cases hk : k = e.1
    · simp [look, hk] at h
    · simp [Ne.symm hk, ih (by simpa [look, hk] using h)]

/-- A change of one value adds no key and removes none. -/
@[simp] theorem contains_modify (t : Table κ ν) (k j : κ) (f : ν → ν) :
    (t.modify k f).contains j = t.contains j := by
  rw [contains, contains, get?_modify]
  split <;> simp

/-- Every lookup in a table that gives the same value to some keys. -/
theorem get?_ofList_const (ks : List κ) (v : ν) (k : κ) :
    (ofList (ks.map fun j => (j, v))).get? k = if k ∈ ks then some v else none := by
  have key : ∀ (ks : List κ) (t : Table κ ν),
      (ks.foldl (fun t j => t.insert j v) t).get? k =
        if k ∈ ks then some v else t.get? k := by
    intro ks
    induction ks with
    | nil => simp
    | cons j rest ih =>
      intro t
      rw [List.foldl_cons, ih, get?_insert]
      by_cases hr : k ∈ rest <;> by_cases hj : k = j <;> simp [hr, hj]
  rw [ofList, List.foldl_map]
  exact key ks empty

/-- What is found is an entry. -/
theorem mem_entries_of_get? {t : Table κ ν} {k : κ} {v : ν} (h : t.get? k = some v) :
    (k, v) ∈ t.entries := by
  obtain ⟨es⟩ := t
  simp only [get?] at h
  induction es with
  | nil => simp [look] at h
  | cons e rest ih =>
    by_cases hk : k = e.1
    · have hv : e.2 = v := by simpa [look, hk] using h
      exact List.mem_cons.2 (.inl (Prod.ext hk hv.symm))
    · exact List.mem_cons_of_mem _ (ih (by simpa [look, hk] using h))

/-- If no key is listed twice, every entry is found. -/
theorem get?_of_mem_entries {t : Table κ ν} (h : t.keys.Nodup) {k : κ} {v : ν}
    (hm : (k, v) ∈ t.entries) : t.get? k = some v := by
  obtain ⟨es⟩ := t
  simp only [get?]
  induction es with
  | nil => simp at hm
  | cons e rest ih =>
    obtain ⟨he, hr⟩ := List.nodup_cons.1 h
    rcases List.mem_cons.1 hm with rfl | hm
    · simp [look]
    · have hk : k ≠ e.1 := by
        rintro rfl
        exact he (List.mem_map.2 ⟨_, hm, rfl⟩)
      simpa [look, hk] using ih hr hm

/-- The entries after an insertion are old ones and the new one. -/
theorem mem_entries_insert {t : Table κ ν} {k : κ} {v : ν} {e : κ × ν}
    (h : e ∈ (t.insert k v).entries) : e = (k, v) ∨ e ∈ t.entries := by
  obtain ⟨es⟩ := t
  simp only [insert] at h ⊢
  induction es with
  | nil => simpa [put] using h
  | cons f rest ih =>
    by_cases hk : k = f.1
    · simp only [put, hk, if_true, List.mem_cons] at h ⊢
      exact h.imp_right .inr
    · simp only [put, hk, if_false, List.mem_cons] at h ⊢
      rcases h with h | h
      · exact .inr (.inl h)
      · exact (ih h).imp_right .inr

/-! ### The listed keys -/

theorem keys_put_of_mem {k : κ} (v : ν) {es : List (κ × ν)}
    (h : k ∈ es.map Prod.fst) : (put k v es).map Prod.fst = es.map Prod.fst := by
  induction es with
  | nil => simp at h
  | cons e rest ih =>
    by_cases hk : k = e.1
    · simp [put, hk]
    · have : k ∈ rest.map Prod.fst := by simpa [hk] using h
      simpa [put, hk] using ih this

theorem keys_put_of_not_mem {k : κ} (v : ν) {es : List (κ × ν)}
    (h : k ∉ es.map Prod.fst) : (put k v es).map Prod.fst = es.map Prod.fst ++ [k] := by
  induction es with
  | nil => simp [put]
  | cons e rest ih =>
    have hk : k ≠ e.1 := fun hk => h (by simp [hk])
    have hr : k ∉ rest.map Prod.fst := fun hr => h (by simp at hr ⊢; exact Or.inr hr)
    simpa [put, hk] using ih hr

/-- A known key keeps its place. -/
theorem keys_insert_of_mem (t : Table κ ν) {k : κ} (v : ν) (h : k ∈ t.keys) :
    (t.insert k v).keys = t.keys :=
  keys_put_of_mem v h

/-- A new key is listed last. -/
theorem keys_insert_of_not_mem (t : Table κ ν) {k : κ} (v : ν) (h : k ∉ t.keys) :
    (t.insert k v).keys = t.keys ++ [k] :=
  keys_put_of_not_mem v h

/-- Insertions list no key twice. -/
theorem nodup_keys_insert {t : Table κ ν} (h : t.keys.Nodup) (k : κ) (v : ν) :
    (t.insert k v).keys.Nodup := by
  by_cases hk : k ∈ t.keys
  · rwa [keys_insert_of_mem t v hk]
  · rw [keys_insert_of_not_mem t v hk]
    exact List.nodup_append.2
      ⟨h, by simp, fun a ha b hb hab => hk (by simp_all)⟩

/-- A lookup succeeds exactly at the listed keys. -/
theorem get?_isSome_iff (t : Table κ ν) (k : κ) : (t.get? k).isSome ↔ k ∈ t.keys := by
  obtain ⟨es⟩ := t
  induction es with
  | nil => simp [get?, look, keys]
  | cons e rest ih =>
    by_cases h : k = e.1
    · simp [get?, look, keys, h]
    · simpa [get?, look, keys, h] using ih

end Table

end Wiring
