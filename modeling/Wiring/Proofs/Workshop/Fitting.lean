/-
The types of what a workshop stores and answers.

* `Settings.WellTyped`, `Settings.Proper.wellTyped`: a holder that came about by offers has values
  only under their own types, so that no value is of another type than the one it is found for;
* `Instance.Fits`: an instance is of a type, by what it says of itself and by its value;
  `Workshop.supplies_fits`: recipes come up with nothing else for their types;
* `Workshop.Truthful`: what is stored when a request is made is of the type it is stored for, what
  is answered is of the type it is answered for, and nothing fails because it is not;
* `Workshop.Passes.truthful`: **this is so whenever a request is made** in the life of a workshop.
-/
import Wiring.Proofs.Workshop.Ascent

namespace Wiring

variable {σ V : Type}

/-! ### Holders of configuration values -/

namespace Settings

/-- What is stored for a type was registered as a value of this type, and is one. -/
def WellTyped (held : Settings V) : Prop :=
  ∀ index entry, held.entries.get? index = some entry →
    entry.type = .of (.product index) ∧ entry.value.index = index

variable {held : Settings V}

/-- Offers store values under their own types. -/
lemma Proper.wellTyped (h : held.Proper) : held.WellTyped := by
  obtain ⟨offers, rfl⟩ := h
  intro index entry hentry
  rw [keeps_offerAll offers index] at hentry
  obtain ⟨value, hfirst, rfl⟩ := Option.map_eq_some_iff.1 hentry
  exact ⟨rfl, index_of_firstOffered hfirst⟩

/-- What is found for a type is what is stored for it. -/
lemma WellTyped.find_eq (h : held.WellTyped) (index : ℕ) :
    held.find index = .ok ((held.entries.get? index).map Entry.value) := by
  rw [find]
  cases hentry : held.entries.get? index with
  | none => rfl
  | some entry => exact if_pos (h index entry hentry).2

end Settings

/-! ### Instances -/

/-- The instance is of the type: it says so, and its value is. A holder of configuration values
came about by offers. -/
structure Instance.Fits (i : Instance V) (key : TypeKey) : Prop where
  type : i.type = .of key
  value : i.value.key = key
  proper : i.value.Proper

/-- What a recipe serves that exists already is of the type that the recipe declares. -/
lemma Recipe.WellTyped.fits {r : Recipe σ V} (h : r.WellTyped) (hp : r.Proper) {i : Instance V}
    (hs : r.source = .given i) : i.Fits r.key := by
  have hgiven := h.2
  rw [Recipe.Proper, hs] at hp
  rw [hs] at hgiven
  exact ⟨hgiven.1, hgiven.2, hp⟩

/-- If a need receives nothing from the answer to the request for the type that it uses, then the
request has ended like this, or the need is for a configuration value that the holder lacks. -/
lemma Need.receive_eq_error {need : Need} {given : Except Halt (Instance V)}
    (h : ∀ i, given = .ok i → i.Fits need.key) {halt : Halt}
    (he : need.receive given = .error halt) :
    given = .error halt ∨
      ∃ index, need = .setting index ∧ halt = .failed (.missing (TypeKey.product index).name) := by
  cases given with
  | error halt' => exact .inl (congrArg Except.error (Except.error.inj he))
  | ok i =>
      right
      rw [receive] at he
      cases htake : need.take i with
      | ok a =>
          rw [htake] at he
          cases he
      | error failure =>
          obtain ⟨name, rfl⟩ := exists_missing_of_take (h i rfl).value (h i rfl).proper htake
          obtain ⟨index, -, hneed, rfl, -⟩ := take_eq_missing htake
          rw [htake] at he
          exact ⟨index, hneed, (Except.error.inj he).symm⟩

/-- The answer to a request for a type is an instance of it. If there is none, this is not because
something of another type was found. -/
def Fitting (key : TypeKey) : Except Halt (Instance V) → Prop
  | .ok i => i.Fits key
  | .error halt => ∀ required actual, halt ≠ .failed (.wrongType required actual)

lemma Fitting.fits {key : TypeKey} {answer : Except Halt (Instance V)} (h : Fitting key answer)
    {i : Instance V} (hi : answer = .ok i) : i.Fits key := by
  rwa [hi] at h

/-- A query does not fail because something of another type was found, if its request does not. -/
lemma Query.receive_ne_wrongType {q : Query} {given : Except Halt (Instance V)}
    (h : Fitting q.wanted.key given) (required actual : String) :
    q.receive given ≠ .error (.failed (.wrongType required actual)) := by
  have hneed (need : Need) (hkey : need.key = q.wanted.key) :
      need.receive given ≠ .error (.failed (.wrongType required actual)) := by
    intro he
    rcases Need.receive_eq_error (fun i hi => hkey ▸ h.fits hi) he with rfl | ⟨index, -, hhalt⟩
    · exact h required actual rfl
    · cases hhalt
  cases q with
  | getInstance wanted =>
      intro he
      rw [receive] at he
      obtain rfl := Need.eq_error_of_map_eq_error he
      exact h required actual rfl
  | get key => exact hneed (.shared key) rfl
  | resolve need => exact hneed need rfl

namespace Workshop

variable {w : Workshop σ V} {m m' : Moment σ V} {stack : List TypeKey} {wanted : TypeRef}

/-- **Recipes come up with instances of their types only.** -/
theorem supplies_fits (hb : w.book.Keyed)
    (hw : ∀ key r, w.book.recipe? key = some r → r.WellTyped)
    (hp : ∀ key r, w.book.recipe? key = some r → r.Proper) :
    w.Supplies fun key i => i.Fits key where
  given {key r product} hr hs := hb.key_of_recipe? hr ▸ (hw key r hr).fits (hp key r hr) hs
  made hr hs ho serial := by
    have hkey := (supplies_of_wellTyped hb hw).made hr hs ho serial
    exact ⟨congrArg TypeRef.of hkey, hkey, (supplies_of_proper hp).made hr hs ho serial⟩

/-! ### Requests -/

/-- A request for `wanted` at the moment `m`, while the types of `stack` are under construction.
What is stored by then is of the type it is stored for, and what is answered is of the type that
is requested. So a request for a typed product, or for a parameter, takes what is answered for
the type as it is. If a parameter is not resolved, then its request has failed in this way, or a
configuration value is missing; and if a request fails, then no recipe produces the type, or it is
on the way of a failure that a factory gave up with, or of a missing configuration value. -/
structure Truthful (w : Workshop σ V) (stack : List TypeKey) (wanted : TypeRef)
    (m : Moment σ V) : Prop where
  stored : ∀ key i, m.shelf.product? key = some i → i.Fits key
  answered : Fitting wanted.key ((w.serveAt stack wanted).runFrom m).1
  fetched : (w.fetch stack wanted.key).runFrom m = (w.serveAt stack (.of wanted.key)).runFrom m
  resolved : ∀ need failure m', need.key = wanted.key →
    (w.resolveAt stack need).runFrom m = (.error (.failed failure), m') →
    (w.serveAt stack (.of wanted.key)).runFrom m = (.error (.failed failure), m') ∨
      ∃ index, need = .setting index ∧ failure = .missing (TypeKey.product index).name
  failed : ∀ failure m', (w.serveAt stack wanted).runFrom m = (.error (.failed failure), m') →
    failure = .missing wanted.name ∨ ∃ below, w.Ascends failure ⟨wanted, stack, m, m'⟩ below

/-- Nothing of another type is found where a failure arises. -/
lemma Raises.ne_wrongType {failure : Failure} {e : Rung σ V} (h : w.Raises failure e)
    (required actual : String) : failure ≠ .wrongType required actual := by
  cases h <;> nofun

section Truthful

variable (hb : w.book.Keyed) (hc : w.book.Complete)
  (hw : ∀ key r, w.book.recipe? key = some r → r.WellTyped)
  (hp : ∀ key r, w.book.recipe? key = some r → r.Proper)

include hb hc hw hp

/-- A request that fails is for a type without a recipe, or on the way of a failure. -/
lemma Passes.exists_ascends (h : w.Passes stack wanted m) {failure : Failure}
    (he : (w.serveAt stack wanted).runFrom m = (.error (.failed failure), m')) :
    failure = .missing wanted.name ∨ ∃ below, w.Ascends failure ⟨wanted, stack, m, m'⟩ below := by
  obtain ⟨hs, hn⟩ := h.isStack
  cases hr : w.book.recipe? wanted.key with
  | none =>
      rw [serveAt_of_none (hs.length_le hc.acyclic) hr, Request.runFrom_fail] at he
      obtain ⟨hfailure, -⟩ : Failure.missing wanted.name = failure ∧ m = m' := by simpa using he
      exact .inl hfailure.symm
  | some r =>
      obtain ⟨path, cause, hbreaks⟩ := exists_breakdown hb hc.acyclic hs hn he
      exact .inr (hbreaks.ascends hb hc hw hp h (Book.produces_iff.2 ⟨r, hr⟩) he rfl)

/-- **Every request answers an instance of the type**, or does not fail because of the type. -/
theorem Passes.fitting (h : w.Passes stack wanted m) :
    Fitting wanted.key ((w.serveAt stack wanted).runFrom m).1 := by
  rcases hanswer : (w.serveAt stack wanted).runFrom m with ⟨halt | product, m'⟩
  · rintro required actual rfl
    rcases h.exists_ascends hb hc hw hp hanswer with hmissing | ⟨below, hascends⟩
    · cases hmissing
    · exact hascends.raised.ne_wrongType required actual rfl
  · exact h.supplied hb hc.acyclic (supplies_fits hb hw hp) hanswer

/-- So does a request for the same type under its own name. -/
lemma Passes.fits (h : w.Passes stack wanted m) {i : Instance V}
    (hserved : (w.serveAt stack (.of wanted.key)).runFrom m = (.ok i, m')) :
    i.Fits wanted.key := by
  have hfits := supplies_fits hb hw hp
  have hnext : w.book.IsNext stack (TypeRef.of wanted.key).key := h.isStack.2
  exact hfits.served hb hc.acyclic h.isStack.1 hnext (h.furnished hb hc.acyclic hfits) hserved

/-- The type of what is answered is checked in vain. -/
lemma Passes.fetched (h : w.Passes stack wanted m) :
    (w.fetch stack wanted.key).runFrom m = (w.serveAt stack (.of wanted.key)).runFrom m := by
  rw [runFrom_fetch]
  rcases hserved : (w.serveAt stack (.of wanted.key)).runFrom m with ⟨halt | i, m'⟩
  · rfl
  · simp only [Instance.downcast, if_pos (h.fits hb hc hw hp hserved).value]
    rfl

/-- A parameter fails with the failure of its request, or for want of a configuration value. -/
lemma Passes.resolved (h : w.Passes stack wanted m) {need : Need} (hkey : need.key = wanted.key)
    {failure : Failure}
    (hrefused : (w.resolveAt stack need).runFrom m = (.error (.failed failure), m')) :
    (w.serveAt stack (.of wanted.key)).runFrom m = (.error (.failed failure), m') ∨
      ∃ index, need = .setting index ∧ failure = .missing (TypeKey.product index).name := by
  rw [resolveAt] at hrefused
  cases hskips : w.Skips ⟨need, none⟩ with
  | true =>
      rw [Need.runFrom_resolve_of_not need hskips] at hrefused
      cases congrArg Prod.fst hrefused
  | false =>
      rw [runFrom_resolve_fetch hskips] at hrefused
      dsimp only at hrefused
      rw [hkey] at hrefused
      obtain ⟨hreceived, rfl⟩ := Prod.mk.inj hrefused
      have hfits (i : Instance V)
          (hi : ((w.serveAt stack (.of wanted.key)).runFrom m).1 = .ok i) : i.Fits need.key :=
        hkey ▸ h.fits hb hc hw hp (Prod.ext hi rfl)
      rcases Need.receive_eq_error hfits hreceived with he | ⟨index, hneed, hhalt⟩
      · exact .inl (Prod.ext he rfl)
      · exact .inr ⟨index, hneed, Halt.failed.inj hhalt⟩

/-- **Whatever is stored and answered is of the type it is stored or answered for**, whenever a
request is made. -/
theorem Passes.truthful (h : w.Passes stack wanted m) : w.Truthful stack wanted m where
  stored := h.furnished hb hc.acyclic (supplies_fits hb hw hp)
  answered := h.fitting hb hc hw hp
  fetched := h.fetched hb hc hw hp
  resolved _ _ _ hkey := h.resolved hb hc hw hp hkey
  failed _ _ := h.exists_ascends hb hc hw hp

/-- **No query fails because something of another type was found.** -/
theorem Passes.answer_ne_wrongType {q : Query} (h : w.Passes [] q.wanted m)
    (required actual : String) :
    ((w.answer q).runFrom m).1 ≠ .error (.failed (.wrongType required actual)) := by
  cases hidle : w.Idle q with
  | true =>
      rw [runFrom_answer_of_idle hidle]
      nofun
  | false =>
      rw [runFrom_answer hidle]
      exact Query.receive_ne_wrongType (h.fitting hb hc hw hp) required actual

end Truthful

end Workshop

end Wiring
