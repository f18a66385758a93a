/-
What a holder of configuration values has after any values were offered to it.

* `Settings.Offer`, `Settings.offer`: a value that is added, or that may be there to add, and
  how the holder replies to it;
* `Settings.offerAll`: any offers in turn, whatever the replies are;
* `firstOffered`: the first value of a type among those that are offered;
* `Settings.Keeps`: a holder of just the first values; `Settings.Keeps.offer`: one more offer
  keeps it one;
* `Settings.keeps_offerAll`: **after any offers a holder has the first value of each type**;
  `Settings.Keeps.contains_eq`, `Settings.Keeps.find_eq`: what it contains and finds;
  `Settings.Keeps.offer_of_held`, `Settings.Keeps.offer_of_new`: its reply to the next offer.
-/
import Mathlib.Data.Nat.Notation
import Wiring.Settings

namespace Wiring

variable {V : Type}

namespace Settings

/-! ### Offers -/

/-- Something that is offered to a holder. -/
inductive Offer (V : Type) where
  /-- A value is added. -/
  | add (value : Setting V)
  /-- A value is added if there is one. -/
  | maybeAdd (value : Option (Setting V))
  deriving DecidableEq, Repr

/-- The value that is offered, if any is. -/
def Offer.value? : Offer V → Option (Setting V)
  | .add value => some value
  | .maybeAdd value => value

/-- The holder with an offered value, unless the value is refused. -/
def register (s : Settings V) : Offer V → Except SettingError (Settings V)
  | .add value => s.add value
  | .maybeAdd value => s.maybeAdd value

/-- The reply to an offer, and the holder after it. A holder that refuses a value stays as it
is. -/
def offer (s : Settings V) (o : Offer V) : Except SettingError Unit × Settings V :=
  match s.register o with
  | .ok s' => (.ok (), s')
  | .error e => (.error e, s)

/-- The replies to some offers in turn, and the holder after them. -/
def offerAll : List (Offer V) → Settings V → List (Except SettingError Unit) × Settings V
  | [], s => ([], s)
  | o :: rest, s =>
    ((s.offer o).1 :: (offerAll rest (s.offer o).2).1, (offerAll rest (s.offer o).2).2)

lemma register_of_none {o : Offer V} (h : o.value? = none) (s : Settings V) :
    s.register o = .ok s := by
  cases o with
  | add value => cases h
  | maybeAdd value =>
      obtain rfl : value = none := h
      rfl

lemma register_of_some {o : Offer V} {value : Setting V} (h : o.value? = some value)
    (s : Settings V) : s.register o = s.add value := by
  cases o with
  | add value' => exact congrArg s.add (Option.some.inj h)
  | maybeAdd value' =>
      obtain rfl : value' = some value := h
      rfl

/-- An offer without a value is accepted, and nothing comes of it. -/
lemma offer_of_none {o : Offer V} (h : o.value? = none) (s : Settings V) :
    s.offer o = (.ok (), s) := by
  rw [offer, register_of_none h]

/-- A value is refused if there is one of its type; otherwise it is registered for its type. -/
lemma offer_of_some {o : Offer V} {value : Setting V} (h : o.value? = some value)
    (s : Settings V) :
    s.offer o =
      if s.contains value.index then
        (.error (.alreadyRegistered (.of (.product value.index))), s)
      else
        (.ok (), ⟨s.entries.insert value.index ⟨.of (.product value.index), value⟩⟩) := by
  rw [offer, register_of_some h, add]
  cases s.contains value.index <;> rfl

end Settings

/-! ### First values -/

/-- The first value of the product type `index` among those that are offered. -/
def firstOffered (offers : List (Settings.Offer V)) (index : ℕ) : Option (Setting V) :=
  (offers.filterMap Settings.Offer.value?).find? (·.index = index)

lemma index_of_firstOffered {offers : List (Settings.Offer V)} {index : ℕ} {value : Setting V}
    (h : firstOffered offers index = some value) : value.index = index := by
  simpa using List.find?_some h

/-- An offer without a value is no first one. -/
lemma firstOffered_append_of_none (offers : List (Settings.Offer V)) {o : Settings.Offer V}
    (h : o.value? = none) (index : ℕ) :
    firstOffered (offers ++ [o]) index = firstOffered offers index := by
  rw [firstOffered, firstOffered, List.filterMap_append, List.filterMap_cons_none h,
    List.filterMap_nil, List.append_nil]

/-- A value comes first if no other one of its type was offered before. -/
lemma firstOffered_append_of_some (offers : List (Settings.Offer V)) {o : Settings.Offer V}
    {value : Setting V} (h : o.value? = some value) (index : ℕ) :
    firstOffered (offers ++ [o]) index =
      (firstOffered offers index).or (if value.index = index then some value else none) := by
  rw [firstOffered, firstOffered, List.filterMap_append, List.filterMap_cons_some h,
    List.filterMap_nil, List.find?_append, List.find?_singleton]
  simp only [decide_eq_true_eq]

namespace Settings

/-! ### Holders of the first values -/

/-- The holder has for each type the first value that was offered, and for no other type any
value. -/
def Keeps (s : Settings V) (offers : List (Offer V)) : Prop :=
  ∀ index, s.entries.get? index =
    (firstOffered offers index).map fun value => ⟨.of (.product index), value⟩

variable {s : Settings V} {offers : List (Offer V)}

lemma keeps_empty : (empty : Settings V).Keeps [] := fun _ => rfl

/-- A type has a value exactly if one was offered. -/
lemma Keeps.contains_eq (h : s.Keeps offers) (index : ℕ) :
    s.contains index = (firstOffered offers index).isSome := by
  rw [contains, Table.contains, h index, Option.isSome_map]

/-- What is found for a type is the first value that was offered. -/
lemma Keeps.find_eq (h : s.Keeps offers) (index : ℕ) :
    s.find index = .ok (firstOffered offers index) := by
  rw [find, h index]
  cases hfirst : firstOffered offers index with
  | none => rfl
  | some value => exact if_pos (index_of_firstOffered hfirst)

/-- **One more offer** leaves a holder of the first values one. -/
lemma Keeps.offer (h : s.Keeps offers) (o : Offer V) : (s.offer o).2.Keeps (offers ++ [o]) := by
  intro index
  cases hvalue : o.value? with
  | none =>
      rw [offer_of_none hvalue, firstOffered_append_of_none offers hvalue]
      exact h index
  | some value =>
      rw [offer_of_some hvalue, firstOffered_append_of_some offers hvalue, h.contains_eq]
      cases hfirst : firstOffered offers value.index with
      | some first =>
          -- the value is refused, and it is not the first of its type
          change s.entries.get? index = _
          rw [h index]
          by_cases hindex : value.index = index
          · subst hindex
            simp [hfirst]
          · simp [hindex]
      | none =>
          change (s.entries.insert value.index _).get? index = _
          rw [Table.get?_insert, h index]
          by_cases hindex : value.index = index
          · subst hindex
            simp [hfirst]
          · simp [hindex, Ne.symm hindex]

lemma Keeps.offerAll (h : s.Keeps offers) (later : List (Offer V)) :
    (offerAll later s).2.Keeps (offers ++ later) := by
  induction later generalizing s offers with
  | nil => simpa [Settings.offerAll] using h
  | cons o rest ih => simpa [Settings.offerAll] using ih (h.offer o)

/-- **After any offers a holder has the first value of each type.** -/
theorem keeps_offerAll (offers : List (Offer V)) :
    (Settings.offerAll offers .empty).2.Keeps offers := by
  simpa using keeps_empty.offerAll offers

/-- A value is refused if one of its type was offered before, and the holder stays as it is. -/
lemma Keeps.offer_of_held (h : s.Keeps offers) {o : Offer V} {value : Setting V}
    (hvalue : o.value? = some value) (hheld : (firstOffered offers value.index).isSome) :
    s.offer o = (.error (.alreadyRegistered (.of (.product value.index))), s) := by
  rw [offer_of_some hvalue, if_pos ((h.contains_eq value.index).trans hheld)]

/-- Any other offer is accepted. -/
lemma Keeps.offer_of_new (h : s.Keeps offers) {o : Offer V}
    (hnew : ∀ value, o.value? = some value → firstOffered offers value.index = none) :
    (s.offer o).1 = .ok () := by
  cases hvalue : o.value? with
  | none => rw [offer_of_none hvalue]
  | some value =>
      have hcontains : s.contains value.index = false := by
        rw [h.contains_eq, hnew value hvalue]
        rfl
      rw [offer_of_some hvalue, hcontains]
      rfl

end Settings

end Wiring
