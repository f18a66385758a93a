/-
Parameters under optional layers.

* `Settings.Proper`, `Recipe.Proper`: holders of configuration values that came about by offers,
  and recipes that come up with no other ones; `Workshop.Passes.settled`: whatever is served
  for the type of the holders then tells of each type which value it has, if any;
* `Workshop.Wraps`: what a parameter comes to that is under some optional layers;
* `Workshop.Reached.optional_layers`: **this is what every parameter comes to**, at any moment
  that is reached, and whatever is under construction when it is resolved.
-/
import Wiring.Proofs.Settings.Delivery
import Wiring.Proofs.Workshop.Nesting

namespace Wiring

variable {σ V : Type}

/-! ### Holders of configuration values -/

/-- The holder came about by offers to a new one. There is no other way to come by a holder. -/
def Settings.Proper (held : Settings V) : Prop :=
  ∃ offers, (Settings.offerAll offers .empty).2 = held

/-- Such a holder finds for each type a value or none. -/
lemma Settings.Proper.exists_find {held : Settings V} (h : held.Proper) (index : ℕ) :
    ∃ value, held.find index = .ok value := by
  obtain ⟨offers, rfl⟩ := h
  exact ⟨_, (Settings.keeps_offerAll offers).find_eq index⟩

/-- If the value is a holder of configuration values, it came about by offers. -/
def Value.Proper : Value V → Prop
  | .product .. => True
  | .settings held => held.Proper

/-- The recipe comes up with no other holders of configuration values. -/
def Recipe.Proper (r : Recipe σ V) : Prop :=
  match r.source with
  | .given product => product.value.Proper
  | .factory make => ∀ arguments world value,
      (make arguments world).1.outcome = .made value → value.Proper

/-- A recipe of a value is proper if the value is. -/
lemma Recipe.proper_ofValue (serial : ℕ) {key : TypeKey} (origin : Origin)
    {payload : key.Payload V} (h : (Value.of key payload).Proper) :
    (ofValue serial key origin payload : Recipe σ V).Proper := h

/-- A recipe of a factory is proper if the factory makes proper values. -/
lemma Recipe.proper_ofFactory (serial : ℕ) (role : Role) {key : TypeKey}
    (parameters : List Parameter) {make : Factory σ V (key.Payload V)}
    (h : ∀ arguments world payload, (make arguments world).1.outcome = .made payload →
      (Value.of key payload).Proper) :
    (ofFactory serial role key parameters make).Proper := by
  intro arguments world value hmade
  simp only [erase] at hmade
  cases ho : (make arguments world).1.outcome with
  | made payload =>
      rw [ho] at hmade
      cases hmade
      exact h arguments world payload ho
  | failed cause =>
      rw [ho] at hmade
      cases hmade
  | panicked text =>
      rw [ho] at hmade
      cases hmade

namespace Need

/-- A proper holder tells which value it has of a type, if any. -/
lemma exists_settingOf {product : Instance V} (hkey : product.value.key = .settings)
    (hproper : product.value.Proper) (index : ℕ) :
    ∃ value, settingOf product index = .ok value := by
  obtain ⟨type, origin, value⟩ := product
  cases value with
  | product index' content => cases hkey
  | settings held =>
      obtain ⟨value, hfind⟩ := Settings.Proper.exists_find hproper index
      exact ⟨value, by rw [settingOf]; dsimp only; rw [hfind]⟩

/-- Under an optional layer every proper product of the type that a need uses is accepted. -/
lemma exists_acceptOptional {product : Instance V} (hproper : product.value.Proper) {need : Need}
    (hkey : product.value.key = need.key) : ∃ a, need.acceptOptional product = .ok a := by
  induction need with
  | shared key => exact ⟨_, rfl⟩
  | setting index =>
      obtain ⟨value, hvalue⟩ := exists_settingOf hkey hproper index
      exact ⟨_, by rw [acceptOptional, hvalue]; rfl⟩
  | optional inner ih =>
      obtain ⟨a, ha⟩ := ih hkey
      exact ⟨_, by rw [acceptOptional, ha]; rfl⟩

/-- If a need refuses a proper product of the type that it uses, something is missing. -/
lemma exists_missing_of_take {need : Need} {product : Instance V}
    (hkey : product.value.key = need.key) (hproper : product.value.Proper) {failure : Failure}
    (h : need.take product = .error failure) : ∃ name, failure = .missing name := by
  rw [take_of_key hkey] at h
  cases need with
  | shared key => cases h
  | setting index =>
      obtain ⟨value, hvalue⟩ := exists_settingOf hkey hproper index
      rw [accept, hvalue] at h
      cases value with
      | none => exact ⟨_, (Except.error.inj h).symm⟩
      | some value => cases h
  | optional inner =>
      obtain ⟨a, ha⟩ : ∃ a, inner.acceptOptional product = .ok a :=
        exists_acceptOptional hproper hkey
      rw [accept, ha] at h
      cases h

end Need

/-- Only layers make a need optional. -/
lemma Need.isOptional_nested {base : Need} (hbase : base.isOptional = false) (layers : ℕ) :
    (base.nested layers).isOptional ↔ 1 ≤ layers := by
  cases layers with
  | zero => simpa [nested] using hbase
  | succ layers => simp

namespace Workshop

variable {w : Workshop σ V} {m m' : Moment σ V} {stack : List TypeKey} {base : Need}
  {layers : ℕ}

lemma supplies_of_proper (hp : ∀ key r, w.book.recipe? key = some r → r.Proper) :
    w.Supplies fun _ i => i.value.Proper where
  given {key r product} hr hs := by
    have hgiven := hp key r hr
    rwa [Recipe.Proper, hs] at hgiven
  made {key r make arguments world value} hr hs ho serial := by
    have hmake := hp key r hr
    rw [Recipe.Proper, hs] at hmake
    exact hmake arguments world value ho

/-- A product that is got was served, and is of the type that is asked for. -/
lemma runFrom_fetch_eq_ok {key : TypeKey} {p : Instance V}
    (h : (w.fetch stack key).runFrom m = (.ok p, m')) :
    (w.serveAt stack (.of key)).runFrom m = (.ok p, m') ∧ p.value.key = key := by
  rw [runFrom_fetch] at h
  rcases hs : (w.serveAt stack (.of key)).runFrom m with ⟨halt | product, m₁⟩ <;> rw [hs] at h
  · cases congrArg Prod.fst h
  · by_cases hkey : product.value.key = key
    · simp only [Instance.downcast, if_pos hkey] at h
      obtain ⟨hp, rfl⟩ := Prod.mk.inj h
      obtain rfl : product = p := Except.ok.inj hp
      exact ⟨rfl, hkey⟩
    · simp only [Instance.downcast, if_neg hkey] at h
      cases congrArg Prod.fst h

/-- **What is got for the type of the holders** is a holder that finds for each type a value or
none. -/
theorem Passes.settled (hb : w.book.Keyed) (ha : w.book.Acyclic)
    (hp : ∀ key r, w.book.recipe? key = some r → r.Proper)
    (h : w.Passes stack (.of .settings) m) {p : Instance V}
    (hget : (w.fetch stack .settings).runFrom m = (.ok p, m')) (index : ℕ) :
    ∃ held value, p.value = .settings held ∧ held.find index = .ok value := by
  obtain ⟨hserved, hkey⟩ := runFrom_fetch_eq_ok hget
  have hproper := h.supplied hb ha (supplies_of_proper hp) hserved
  cases hvalue : p.value with
  | product index content =>
      rw [hvalue] at hkey
      cases hkey
  | settings held =>
      rw [hvalue] at hproper
      obtain ⟨value, hfind⟩ := Settings.Proper.exists_find hproper index
      exact ⟨held, value, rfl, hfind⟩

/-! ### Optional layers -/

/-- The resolution of a need while the types of `stack` are under construction. From outside,
when none are, this is `w.resolve need`, as `w.fetch [] key` is `w.get key`. -/
def resolveAt (w : Workshop σ V) (stack : List TypeKey) (need : Need) : Request σ V (Argument V) :=
  need.resolve w.book.produces (w.fetch stack)

/-- Something is requested for a need under optional layers, unless there are any and no recipe
produces what it uses. -/
def Asks (w : Workshop σ V) (base : Need) (layers : ℕ) : Prop :=
  layers = 0 ∨ w.book.produces base.key

/-- What a parameter comes to that has the need `base` under `layers` optional layers, if it is
resolved at the moment `m` while the types of `stack` are under construction. It declares the
type that `base` uses, as optional if there are any layers.

If there are and no recipe produces the type, nothing is in the outermost layer, and nothing
happens, however products are obtained. Otherwise the type is obtained once, and all that
happens happens then. So if getting it fails, then the resolution fails with the same error, and
if there are layers, only then. If a product is got, it is received under all layers, or for a
configuration value, the value that the product has of its type is; if it has none, then nothing
is in the innermost layer, and without layers the type of the value is missing. -/
structure Wraps (w : Workshop σ V) (base : Need) (layers : ℕ) (stack : List TypeKey)
    (m : Moment σ V) : Prop where
  declared : ∀ shownAs, (Parameter.mk (base.nested layers) shownAs).dependency.type.key = base.key
  optional : ∀ shownAs,
    (Parameter.mk (base.nested layers) shownAs).dependency.optional ↔ 1 ≤ layers
  absent : 1 ≤ layers → w.book.produces base.key = false →
    ∀ (obtain : TypeKey → Request σ V (Instance V)) (n : Moment σ V),
      ((base.nested layers).resolve w.book.produces obtain).runFrom n = (.ok .absent, n)
  once : w.Asks base layers →
    ∀ (obtain : TypeKey → Request σ V (Instance V)) (n : Moment σ V),
      ((base.nested layers).resolve w.book.produces obtain).runFrom n =
        match (obtain base.key).runFrom n with
        | (.ok p, n') => (((base.nested layers).accept p).mapError .failed, n')
        | (.error halt, n') => (.error halt, n')
  failed : w.Asks base layers → ∀ halt m',
    (w.fetch stack base.key).runFrom m = (.error halt, m') →
    (w.resolveAt stack (base.nested layers)).runFrom m = (.error halt, m')
  succeeds : 1 ≤ layers → w.book.produces base.key → ∀ p m',
    (w.fetch stack base.key).runFrom m = (.ok p, m') →
    ∃ a, (w.resolveAt stack (base.nested layers)).runFrom m = (.ok a, m')
  shared : w.Asks base layers → ∀ key p m', base = .shared key →
    (w.fetch stack key).runFrom m = (.ok p, m') →
    (w.resolveAt stack (base.nested layers)).runFrom m =
      (.ok ((Argument.shared p).within layers), m')
  setting : w.Asks base layers → ∀ index p m', base = .setting index →
    (w.fetch stack .settings).runFrom m = (.ok p, m') →
    ∃ held value, p.value = .settings held ∧ held.find index = .ok value ∧
      (w.resolveAt stack (base.nested layers)).runFrom m =
        ((Need.settled index value layers).mapError .failed, m')

section Asks

variable (h : w.Asks base layers) (hbase : base.isOptional = false)

include h hbase

/-- A need that asks for something takes one request for the type that it uses. -/
lemma Asks.runFrom_resolve (obtain : TypeKey → Request σ V (Instance V)) (n : Moment σ V) :
    ((base.nested layers).resolve w.book.produces obtain).runFrom n =
      match (obtain base.key).runFrom n with
      | (.ok p, n') => (((base.nested layers).accept p).mapError .failed, n')
      | (.error halt, n') => (.error halt, n') := by
  have hasks : ((base.nested layers).isOptional &&
      !w.book.produces (base.nested layers).key) = false := by
    rcases h with rfl | hproduces
    · rw [Need.nested, hbase, Bool.false_and]
    · rw [Need.key_nested, hproduces, Bool.not_true, Bool.and_false]
  have hkey : (base.nested layers).key = base.key := Need.key_nested base layers
  rw [← hkey]
  exact Need.runFrom_resolve _ hasks n

lemma Asks.resolveAt_of_error {halt : Halt}
    (hget : (w.fetch stack base.key).runFrom m = (.error halt, m')) :
    (w.resolveAt stack (base.nested layers)).runFrom m = (.error halt, m') := by
  rw [resolveAt, h.runFrom_resolve hbase, hget]

lemma Asks.resolveAt_of_ok {p : Instance V}
    (hget : (w.fetch stack base.key).runFrom m = (.ok p, m')) :
    (w.resolveAt stack (base.nested layers)).runFrom m =
      (((base.nested layers).accept p).mapError .failed, m') := by
  rw [resolveAt, h.runFrom_resolve hbase, hget]

end Asks

/-- A shared product is received under all layers. -/
lemma Asks.resolveAt_shared {key : TypeKey} (h : w.Asks (.shared key) layers) {p : Instance V}
    (hget : (w.fetch stack key).runFrom m = (.ok p, m')) :
    (w.resolveAt stack ((Need.shared key).nested layers)).runFrom m =
      (.ok ((Argument.shared p).within layers), m') := by
  rw [h.resolveAt_of_ok rfl hget, Need.accept_nested_shared]
  rfl

/-- What is received of a configuration value is settled by the holder. -/
lemma Asks.resolveAt_setting {index : ℕ} (h : w.Asks (.setting index) layers) {p : Instance V}
    {held : Settings V} {value : Option (Setting V)} (hvalue : p.value = .settings held)
    (hfind : held.find index = .ok value)
    (hget : (w.fetch stack .settings).runFrom m = (.ok p, m')) :
    (w.resolveAt stack ((Need.setting index).nested layers)).runFrom m =
      ((Need.settled index value layers).mapError .failed, m') := by
  rw [h.resolveAt_of_ok rfl hget, Need.accept_nested_setting hvalue hfind]

/-- **The closed form of optional layers**, whenever the type that a need uses is requested. -/
theorem Passes.wraps (hb : w.book.Keyed) (ha : w.book.Acyclic)
    (hp : ∀ key r, w.book.recipe? key = some r → r.Proper) (hbase : base.isOptional = false)
    (h : w.Passes stack (.of base.key) m) (layers : ℕ) : w.Wraps base layers stack m where
  declared _ := Need.key_nested base layers
  optional _ := Need.isOptional_nested hbase layers
  absent hlayers hnone obtain n := by
    refine Need.runFrom_resolve_of_not _ ?_ n
    rw [(Need.isOptional_nested hbase layers).2 hlayers, Need.key_nested, hnone]
    rfl
  once hasks := hasks.runFrom_resolve hbase
  failed hasks _ _ hget := hasks.resolveAt_of_error hbase hget
  succeeds hlayers hproduces p m' hget := by
    have hasks : w.Asks base layers := .inr hproduces
    cases base with
    | shared key => exact ⟨_, hasks.resolveAt_shared hget⟩
    | setting index =>
        obtain ⟨held, value, hvalue, hfind⟩ := h.settled hb ha hp hget index
        obtain ⟨outer, rfl⟩ : ∃ outer, layers = outer + 1 := Nat.exists_eq_add_of_le' hlayers
        exact ⟨_, hasks.resolveAt_setting hvalue hfind hget⟩
    | optional inner => cases hbase
  shared hasks key p m' hshared hget := by
    subst hshared
    exact hasks.resolveAt_shared hget
  setting hasks index p m' hsetting hget := by
    subst hsetting
    obtain ⟨held, value, hvalue, hfind⟩ := h.settled hb ha hp hget index
    exact ⟨held, value, hvalue, hfind, hasks.resolveAt_setting hvalue hfind hget⟩

/-- **What a parameter under optional layers comes to.** It comes to just this at any moment
that is reached, and whatever is under construction when it is resolved. -/
theorem Reached.optional_layers (h : w.Reached m)
    (hp : ∀ key r, w.book.recipe? key = some r → r.Proper) (hbase : base.isOptional = false)
    (layers : ℕ) :
    w.Wraps base layers [] m ∧
    ∀ stack n, w.Passes stack (.of base.key) n → w.Wraps base layers stack n :=
  ⟨(h.rests.passes _).wraps h.keyed h.complete.acyclic hp hbase layers,
    fun _ _ hpasses => hpasses.wraps h.keyed h.complete.acyclic hp hbase layers⟩

lemma proper_sample {parameters : List Parameter} {key : TypeKey} {r : Recipe Unit Unit}
    (hr : (sample parameters).book.recipe? key = some r) : r.Proper := by
  have hmem := Book.mem_of_recipe?_of hr
  simp only [List.mem_cons, List.not_mem_nil, or_false] at hmem
  rcases hmem with rfl | rfl | rfl
  · exact Recipe.proper_ofFactory 0 .retained [] fun _ _ _ _ => trivial
  · exact Recipe.proper_ofFactory 1 .retained parameters fun _ _ _ _ => trivial
  · exact Recipe.proper_ofValue 2 (.given 0) ⟨[], rfl⟩

/-- The factory of the second singleton of the sample needs a value that the holder lacks, and
this is missing when its parameter is resolved. So a layer around a need for the singleton does
not hide it, while the innermost of two layers around a need for the value is empty. -/
theorem optional_layers_sample :
    let w := sample [needsSetting]
    let m := sampleStart [needsSetting]
    w.Wraps (.setting 7) 0 [.product 1] (m.record (.began [.product 1])) ∧
    w.Wraps (.setting 7) 2 [] m ∧ w.Wraps (.shared (.product 1)) 1 [] m ∧
    w.Wraps (.shared (.product 5)) 1 [] m ∧
    (w.resolve (.optional (.optional (.setting 7)))).runFrom m = (.ok (.present .absent), m) ∧
    ((w.resolve (.optional (.shared (.product 1)))).runFrom m).1 =
      .error (.failed (.missing (TypeKey.product 7).name)) ∧
    (w.resolve (.optional (.shared (.product 5)))).runFrom m = (.ok .absent, m) := by
  intro w m
  have h : w.Reached m := (opened_sample rfl).reached []
  have hp : ∀ key r, w.book.recipe? key = some r → r.Proper := fun _ _ => proper_sample
  have hbelow : w.Passes [.product 1] (.of .settings) (m.record (.began [.product 1])) :=
    (h.rests.passes (.of (.product 1))).nested
      (.deeper rfl rfl rfl (List.nil_append [needsSetting]).symm rfl rfl .itself)
  exact ⟨(h.optional_layers hp rfl 0).2 _ _ hbelow, (h.optional_layers hp rfl 2).1,
    (h.optional_layers hp rfl 1).1, (h.optional_layers hp rfl 1).1, rfl, rfl, rfl⟩

end Workshop

end Wiring
