/-
What a complete book guarantees about requests.

* `Need.take_eq_missing`: the only need that can lack something, given the product it
  requests, is one for a configuration value that its holder does not have;
* `Workshop.LacksSetting`: a parameter that needs such a value, of a recipe that a type
  leads to;
* `Workshop.Breakdown.exists_lacksSetting`: in a complete book every request that lacks
  something breaks down at such a parameter;
* `Workshop.Reached.missing`: **at every moment a get of a type with a recipe lacks nothing
  but configuration values**.
-/
import Wiring.Proofs.Workshop.Breakdown

namespace Wiring

open Relation

variable {σ V : Type}

/-! ### Needs that lack something -/

namespace Need

/-- A function on products brings no failure. -/
lemma eq_error_of_map_eq_error {ε α β : Type} {f : α → β} {x : Except ε α}
    {failure : ε} (h : x.map f = .error failure) : x = .error failure := by
  cases x with
  | error failure' => exact congrArg Except.error (Except.error.inj h)
  | ok a => cases h

lemma settingOf_ne_missing (product : Instance V) (index : ℕ) (name : String) :
    settingOf product index ≠ .error (.missing name) := by
  obtain ⟨type, origin, value⟩ := product
  cases value with
  | product index' content => simp [settingOf]
  | settings held =>
      simp only [settingOf]
      cases held.find index <;> simp

/-- Under an optional layer nothing is lacking. -/
lemma acceptOptional_ne_missing (need : Need) (product : Instance V) (name : String) :
    need.acceptOptional product ≠ .error (.missing name) := by
  induction need with
  | shared key => simp [acceptOptional]
  | setting index =>
      exact fun h => settingOf_ne_missing product index name (eq_error_of_map_eq_error h)
  | optional inner ih => exact fun h => ih (eq_error_of_map_eq_error h)

/-- A value that is not found is not registered. -/
lemma contains_of_settingOf_eq_none {product : Instance V} {index : ℕ}
    (h : settingOf product index = .ok none) :
    ∃ held, product.value = .settings held ∧ held.contains index = false := by
  obtain ⟨type, origin, value⟩ := product
  cases value with
  | product index' content => simp [settingOf] at h
  | settings held =>
      refine ⟨held, rfl, ?_⟩
      rw [Settings.contains, Table.contains]
      cases hentry : held.entries.get? index with
      | none => rfl
      | some entry =>
          by_cases hi : entry.value.index = index <;>
            simp [settingOf, Settings.find, hentry, hi] at h

/-- The only need that can lack something, given the product it requests, is one for a
configuration value that is not registered with its holder. -/
lemma take_eq_missing {need : Need} {product : Instance V} {name : String}
    (h : need.take product = .error (.missing name)) :
    ∃ index held, need = .setting index ∧ name = (TypeKey.product index).name ∧
      product.value = .settings held ∧ held.contains index = false := by
  by_cases hkey : product.value.key = need.key
  · rw [take_of_key hkey] at h
    cases need with
    | shared key => cases h
    | setting index =>
        rw [accept] at h
        rcases hs : settingOf product index with failure | _ | value
        · rw [hs] at h
          obtain rfl : failure = .missing name := Except.error.inj h
          exact absurd hs (settingOf_ne_missing product index name)
        · rw [hs] at h
          obtain rfl : (TypeKey.product index).name = name := by simpa using h
          obtain ⟨held, hvalue, hheld⟩ := contains_of_settingOf_eq_none hs
          exact ⟨index, held, rfl, rfl, hvalue, hheld⟩
        · rw [hs] at h
          cases h
    | optional inner =>
        exact absurd (eq_error_of_map_eq_error h)
          (inner.acceptOptional_ne_missing product name)
  · rw [take_of_ne hkey] at h
    cases h

end Need

namespace Workshop

variable {w : Workshop σ V}

/-- The parameter `p` of the recipe `r`, to which the type `t` leads, needs a configuration
value of the type called `name`, and the holder of configuration values that is obtained for
it does not have any. -/
structure LacksSetting (w : Workshop σ V) (t : TypeKey) (name : String) (r : Recipe σ V)
    (p : Parameter) (holder : Instance V) : Prop where
  reached : w.book.Reaches t r.key
  found : w.book.recipe? r.key = some r
  parameter : p ∈ r.parameters
  setting : ∃ index held, p.need = .setting index ∧ name = (TypeKey.product index).name ∧
    holder.value = .settings held ∧ held.contains index = false

/-- In a complete book the types that parameters request have recipes. -/
lemma produces_of_asks (hb : w.book.Keyed) (hc : w.book.Complete) {t : TypeKey}
    {r : Recipe σ V} (hr : w.book.recipe? t = some r) {p : Parameter}
    (hp : p ∈ r.parameters) (hasks : w.Skips p = false) : w.book.produces p.need.key := by
  cases hoptional : p.need.isOptional with
  | true => simpa [Skips, hoptional] using hasks
  | false =>
      exact hc.supplied r (hb.recipe?_eq_some_iff.1 hr).1 p.dependency
        (List.mem_map_of_mem hp) hoptional

/-- In a complete book a request for a type with a recipe can lack nothing but a
configuration value. -/
lemma Breakdown.exists_lacksSetting (hb : w.book.Keyed) (hc : w.book.Complete)
    {stack : List TypeKey} {wanted : TypeRef} {m m' : Moment σ V} {path : List TypeKey}
    {cause : Cause σ V} {halt : Halt} (h : Breakdown w stack wanted m path cause halt m')
    (hp : w.book.produces wanted.key) {name : String}
    (hhalt : halt = .failed (.missing name)) :
    ∃ r p holder, cause = .unfit r p holder ∧
      w.LacksSetting wanted.key name r p holder := by
  induction h with
  | unknown absent =>
      rw [Book.produces_eq_false_iff.2 absent] at hp
      cases hp
  | @factory stack wanted m m₁ m₂ r make arguments halt found source empty resolved ended =>
      -- a factory that gives up never does so for lack of a recipe
      rw [runFrom_call] at ended
      have hanswer := congrArg Prod.fst ended
      rw [hhalt] at hanswer
      rcases ho : (make arguments m₁.world).1.outcome with value | cause | text <;>
        simp [ho, answerOf] at hanswer
  | @unfit stack wanted m m₁ m₂ r make arguments before after p product failure found source
      empty parameters resolved asks served refused =>
      obtain rfl : failure = .missing name := by simpa using hhalt
      have hkey := hb.key_of_recipe? found
      exact ⟨r, p, product, rfl, ⟨hkey ▸ hp, hkey ▸ .refl⟩, hkey ▸ found,
        by simp [parameters], Need.take_eq_missing refused⟩
  | @deeper stack wanted m m₁ m₂ r make arguments before after p path cause halt found source
      empty parameters resolved asks served breaks ih =>
      have hmem : p ∈ r.parameters := by simp [parameters]
      obtain ⟨q, p', holder, hcause, hlacks⟩ :=
        ih (produces_of_asks hb hc found hmem asks) hhalt
      exact ⟨q, p', holder, hcause,
        ⟨hlacks.reached.1, (hlacks.reached.of_parameter found hmem).to_reflTransGen⟩,
        hlacks.found, hlacks.parameter, hlacks.setting⟩

end Workshop

namespace Query

/-- Whether a query is for a type, and not for what a parameter would receive. -/
def isGet : Query → Bool
  | .resolve _ => false
  | _ => true

/-- A get lacks something only if its request does. -/
lemma given_of_receive_eq_missing {q : Query} (hq : q.isGet)
    {given : Except Halt (Instance V)} {name : String}
    (h : q.receive given = .error (.failed (.missing name))) :
    given = .error (.failed (.missing name)) := by
  cases q with
  | getInstance wanted => exact Need.eq_error_of_map_eq_error h
  | get key =>
      cases given with
      | error halt => exact congrArg Except.error (Except.error.inj h)
      | ok product =>
          cases ht : (Need.shared key).take product with
          | error failure =>
              rw [receive, Need.receive, ht] at h
              obtain rfl : failure = .missing name := by simpa [Except.mapError] using h
              obtain ⟨index, held, hneed, -⟩ := Need.take_eq_missing ht
              cases hneed
          | ok a =>
              rw [receive, Need.receive, ht] at h
              cases h
  | resolve need => cases hq

end Query

namespace Workshop

variable {m : Moment σ V}

/-- A request that fails at a moment that is reached breaks down. -/
lemma Reached.exists_breakdown (h : w.Reached m) {wanted : TypeRef} {halt : Halt}
    {m' : Moment σ V} (he : (w.serveAt [] wanted).runFrom m = (.error halt, m')) :
    ∃ path cause, Breakdown w [] wanted m path cause halt m' :=
  Workshop.exists_breakdown h.keyed h.complete.acyclic Book.isStack_nil
    (Book.isNext_nil wanted.key) he

/-- **A get lacks nothing but configuration values.** At every moment that is reached, if a
get of a type with a recipe ends for lack of something, it breaks down at a parameter, of a
recipe that the type leads to, which needs a configuration value and is not optional, because
the holder that is obtained for it has no such value. In particular, if no recipe has such a
parameter, no get of an exported type or of a type with a recipe ever lacks anything. -/
theorem Reached.missing (h : w.Reached m) {q : Query} (hq : q.isGet = true) :
    (∀ name m', w.book.produces q.wanted.key →
      (w.answer q).runFrom m = (.error (.failed (.missing name)), m') →
      ∃ path r p holder,
        Breakdown w [] q.wanted m path (.unfit r p holder) (.failed (.missing name)) m' ∧
        w.LacksSetting q.wanted.key name r p holder) ∧
    ((∀ r ∈ w.book.recipes, ∀ p ∈ r.parameters, ∀ index, p.need ≠ .setting index) →
      (w.book.produces q.wanted.key ∨ ∃ t ∈ w.book.requiredExports, t.key = q.wanted.key) →
      ∀ name, ((w.answer q).runFrom m).1 ≠ .error (.failed (.missing name))) := by
  have hlacks : ∀ name m', w.book.produces q.wanted.key →
      (w.answer q).runFrom m = (.error (.failed (.missing name)), m') →
      ∃ path r p holder,
        Breakdown w [] q.wanted m path (.unfit r p holder) (.failed (.missing name)) m' ∧
        w.LacksSetting q.wanted.key name r p holder := by
    intro name m' hp he
    have hidle : w.Idle q = false := by
      cases q with
      | getInstance wanted => rfl
      | get key => rfl
      | resolve need => cases hq
    rw [runFrom_answer hidle] at he
    obtain ⟨hanswer, rfl⟩ := Prod.mk.inj he
    have hgiven := Query.given_of_receive_eq_missing hq hanswer
    obtain ⟨path, cause, hbreaks⟩ := h.exists_breakdown (Prod.ext hgiven rfl)
    obtain ⟨r, p, holder, rfl, hsetting⟩ :=
      hbreaks.exists_lacksSetting h.keyed h.complete hp rfl
    exact ⟨path, r, p, holder, hbreaks, hsetting⟩
  refine ⟨hlacks, fun hnone hwanted name he => ?_⟩
  have hp : w.book.produces q.wanted.key := by
    rcases hwanted with hp | ⟨t, ht, hkey⟩
    · exact hp
    · exact hkey ▸ h.complete.exported t ht
  obtain ⟨path, r, p, holder, -, hsetting⟩ := hlacks name _ hp (Prod.ext he rfl)
  obtain ⟨index, held, hneed, -⟩ := hsetting.setting
  exact hnone r (h.keyed.recipe?_eq_some_iff.1 hsetting.found).1 p hsetting.parameter index
    hneed

/-- In the sample a get of the second singleton lacks the configuration value that its
factory needs; without this parameter nothing is lacking. -/
theorem missing_sample :
    (∃ path r p holder, Breakdown (sample [needsFirst, needsSetting]) [] (.of (.product 1))
      (sampleStart [needsFirst, needsSetting]) path (.unfit r p holder)
      (.failed (.missing (TypeKey.product 7).name))
      (((sample [needsFirst, needsSetting]).answer (.get (.product 1))).runFrom
        (sampleStart [needsFirst, needsSetting])).2 ∧
      (sample [needsFirst, needsSetting]).LacksSetting (.product 1)
        (TypeKey.product 7).name r p holder) ∧
    ∀ name, (((sample [needsFirst]).answer (.get (.product 1))).runFrom
      (sampleStart [needsFirst])).1 ≠ .error (.failed (.missing name)) := by
  have hparameters : (sample [needsFirst]).book.recipes.flatMap Recipe.parameters =
      [needsFirst] := rfl
  refine ⟨(Reached.missing ((opened_sample rfl).reached []) (q := .get (.product 1)) rfl).1 _ _
    rfl rfl, (Reached.missing ((opened_sample rfl).reached []) (q := .get (.product 1)) rfl).2
    (fun r hr p hp index => ?_) (.inl rfl)⟩
  have hmem : p ∈ [needsFirst] := hparameters ▸ List.mem_flatMap.2 ⟨r, hr, hp⟩
  rw [List.mem_singleton.1 hmem]
  simp [needsFirst]

end Workshop

end Wiring
