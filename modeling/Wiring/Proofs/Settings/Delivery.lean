/-
The way of a configuration value from the holder to the parameters of factories.

* `Need.settled`, `Need.accept_nested_setting`: what a need for a configuration value receives
  under any optional layers, given the value that the holder has of the type;
* `Workshop.delivers_setting`: **if the recipe of the holder is an existing value, all needs for
  configuration values are delivered what it has**;
* `Settings.delivery`: **after any offers, a composition that contains the component of the
  holder delivers the first value of each type**.
-/
import Wiring.Proofs.Book.Listing
import Wiring.Proofs.Component.Merging
import Wiring.Proofs.Settings.Offers
import Wiring.Proofs.Workshop.Delivery

namespace Wiring

variable {σ V : Type}

namespace Need

/-! ### What a need for a configuration value receives -/

/-- What a need for the configuration value of the product type `index` receives under some
optional layers, if `value` is what the holder has of the type: it lacks a value that is not
there, or the innermost layer is empty. -/
def settled (index : ℕ) (value : Option (Setting V)) :
    (layers : ℕ) → Except Failure (Argument V)
  | 0 =>
    match value with
    | some value => .ok (.setting value)
    | none => .error (.missing (TypeKey.product index).name)
  | layers + 1 => .ok ((Argument.ofOption (value.map .setting)).within layers)

variable {holder : Instance V} {held : Settings V} {index : ℕ} {value : Option (Setting V)}

lemma settingOf_eq (hvalue : holder.value = .settings held)
    (hfind : held.find index = .ok value) : settingOf holder index = .ok value := by
  rw [settingOf, hvalue]
  dsimp only
  rw [hfind]

lemma accept_nested_setting (hvalue : holder.value = .settings held)
    (hfind : held.find index = .ok value) (layers : ℕ) :
    ((Need.setting index).nested layers).accept holder = settled index value layers := by
  cases layers with
  | zero =>
      rw [nested, accept, settingOf_eq hvalue hfind]
      cases value <;> rfl
  | succ layers =>
      have hinner : (Need.setting index).acceptOptional holder = .ok (value.map .setting) := by
        rw [acceptOptional, settingOf_eq hvalue hfind]
        rfl
      rw [nested, accept, acceptOptional_nested hinner]
      rfl

end Need

/-- **All needs for configuration values are delivered what the holder has**, if its recipe is
an existing value. -/
theorem Workshop.delivers_setting {w : Workshop σ V} (hb : w.book.Keyed) (ha : w.book.Acyclic)
    (hw : ∀ key r, w.book.recipe? key = some r → r.WellTyped) {r : Recipe σ V}
    {holder : Instance V} {held : Settings V} (hr : w.book.recipe? .settings = some r)
    (hsource : r.source = .given holder) (hvalue : holder.value = .settings held)
    {index : ℕ} {value : Option (Setting V)} (hfind : held.find index = .ok value)
    (layers : ℕ) :
    w.Delivers ((Need.setting index).nested layers) (Need.settled index value layers) := by
  have hkey : ((Need.setting index).nested layers).key = .settings := Need.key_nested _ layers
  have hdelivers := delivers_of_given hb ha hw (hkey ▸ hr) hsource
  rwa [Need.take_of_key (by rw [hvalue, hkey]; rfl),
    Need.accept_nested_setting hvalue hfind] at hdelivers

/-! ### From the first offer to the last parameter -/

namespace Settings

/-- **Configuration values from end to end.** After any offers to a new holder, accepted or
refused, it finds for each type the first value that was offered and contains just the types
of these; it refuses any further value of such a type, and stays as it is, and accepts all
others. A component is built from the holder. In any composition that has the recipe of this
component, whatever else was merged, and in any workshop that works by it and finds no defects
in its book, every parameter for a configuration value receives the first one that was
offered; if none was, it lacks a value of the type, or if it is optional nothing is in its
innermost layer. -/
theorem delivery (offers : List (Offer V)) (recipe : ℕ) (origin : Origin) :
    let held : Settings V := (offerAll offers .empty).2
    (∀ index, held.find index = .ok (firstOffered offers index) ∧
      held.contains index = (firstOffered offers index).isSome) ∧
    (∀ o value, o.value? = some value → (firstOffered offers value.index).isSome →
      held.offer o = (.error (.alreadyRegistered (.of (.product value.index))), held)) ∧
    (∀ o, (∀ value, o.value? = some value → firstOffered offers value.index = none) →
      (held.offer o).1 = .ok ()) ∧
    ∃ c : Component σ V, (Draft.ofSettings recipe origin held).build = .ok c ∧
      ∀ (composed : Component σ V) (exports : List TypeRef) (w : Workshop σ V),
        composed.Built → (∀ r ∈ c.recipes, r ∈ composed.recipes) →
        (∀ r ∈ composed.recipes, r.WellTyped) →
        w.book = .of composed exports → w.book.check = .ok () →
        ∀ index layers, w.Delivers ((Need.setting index).nested layers)
          (Need.settled index (firstOffered offers index) layers) := by
  intro held
  have hkeeps : held.Keeps offers := keeps_offerAll offers
  refine ⟨fun index => ⟨hkeeps.find_eq index, hkeeps.contains_eq index⟩,
    fun o value hvalue hheld => hkeeps.offer_of_held hvalue hheld,
    fun o hnew => hkeeps.offer_of_new hnew,
    ⟨Draft.settingsName, [.ofValue recipe .settings origin held]⟩, rfl, ?_⟩
  intro composed exports w hbuilt hstays hwell hbook hcheck index layers
  have hkeyed : w.book.Keyed := hbook ▸ Book.keyed_of composed exports
  have hr : w.book.recipe? .settings = some (.ofValue recipe .settings origin held) := by
    rw [hbook, Book.recipe?_of_iff hbuilt.nodup]
    exact ⟨hstays _ (List.mem_singleton_self _), rfl⟩
  refine Workshop.delivers_setting hkeyed ((Book.check_eq_ok_iff hkeyed).1 hcheck).acyclic
    (fun key r hr => hwell r ?_) hr rfl rfl (hkeeps.find_eq index) layers
  rw [hbook] at hr
  exact Book.mem_of_recipe?_of hr

/-- Values of two types, the first type twice, and something that is not there. -/
def offered : List (Offer String) :=
  [.add ⟨.given 0, 0, "first"⟩, .maybeAdd none, .add ⟨.given 1, 0, "second"⟩,
    .maybeAdd (some ⟨.given 2, 1, "other"⟩)]

/-- The recipe of a holder that they were offered to. -/
def provider : Recipe Unit String :=
  .ofValue 0 .settings (.given 3) (offerAll offered .empty).2

/-- A factory that needs a value of the first type, and a value that may be lacking. -/
def consumer : Recipe Unit String :=
  .ofFactory 1 .required (.product 5)
    [⟨.setting 0, none⟩, ⟨.optional (.setting 2), none⟩]
    fun _ world => (⟨.made "product", []⟩, world)

/-- Both in one component. -/
def shipment : Component Unit String := ⟨"shipment", [provider, consumer]⟩

lemma built_shipment : shipment.Built :=
  ⟨"shipment", [.component .adding ⟨Draft.settingsName, [provider]⟩,
    .recipe .adding consumer], rfl⟩

/-- The second value is refused, the factory gets the first one, and what was not offered is
lacking unless it is optional. -/
theorem delivery_shipment :
    let w : Workshop Unit String := ⟨0, .of shipment []⟩
    let first : Setting String := ⟨.given 0, 0, "first"⟩
    (offerAll offered .empty).1 =
      [.ok (), .ok (), .error (.alreadyRegistered (.of (.product 0))), .ok ()] ∧
    .called 0 (.product 5) [.setting first, .absent] ⟨.made (.product 5 "product"), []⟩ ∈
      (w.opening.runIn ()).2.trace ∧
    w.Delivers (.setting 0) (.ok (.setting first)) ∧
    w.Delivers (.setting 2) (.error (.missing (TypeKey.product 2).name)) ∧
    w.Delivers (.optional (.setting 2)) (.ok .absent) := by
  intro w first
  obtain ⟨-, -, -, c, hbuild, hdelivers⟩ := delivery (σ := Unit) offered 0 (.given 3)
  obtain rfl : Component.mk Draft.settingsName [provider] = c := Except.ok.inj hbuild
  have hstays : ∀ r ∈ [provider], r ∈ shipment.recipes :=
    List.forall_mem_singleton.2 (List.mem_cons_self ..)
  have hwell : ∀ r ∈ shipment.recipes, r.WellTyped :=
    List.forall_mem_cons.2 ⟨Recipe.wellTyped_ofValue ..,
      List.forall_mem_singleton.2 (Recipe.wellTyped_ofFactory ..)⟩
  have hcomposed := hdelivers shipment [] w built_shipment hstays hwell rfl rfl
  exact ⟨rfl, by decide, hcomposed 0 0, hcomposed 2 0, hcomposed 2 1⟩

end Settings

end Wiring
