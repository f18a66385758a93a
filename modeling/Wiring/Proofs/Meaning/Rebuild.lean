/-
Evaluation of a recipe book without a shelf, on what products are apart from their
identities.

* `Content`, `Ingredient`: what a shared value and an argument are apart from identities, as
  far as a view of the products tells; `Value.content`, `Argument.ingredient`;
* `Law`, `Obeys`, `Book.Lawful`: factories whose outcome is a function of their ingredients;
* `Need.read`, `Need.gather`: what a parameter makes of the content of the type it uses;
* `Book.rebuild`: the content of a type, where everything it needs is made anew for each use;
  `Book.rebuild_eq_rebuild`: in a book without circles it does not depend on the bound of the
  nesting, if that is more than the number of recipes;
* `Book.content`, `Book.content_eq`: **the content of a type in terms of the contents of what
  its recipe uses**.
-/
import Wiring.Proofs.Workshop.Course

namespace Wiring

variable {σ V C : Type}

/-! ### Contents -/

/-- What a shared value is apart from its identity. A product is known by `made`, a holder of
configuration values by what is found in it. -/
inductive Content (C : Type) where
  /-- A product of the product type with this number. -/
  | product (index : Nat) (made : C)
  /-- A holder of configuration values. -/
  | settings (found : Nat → Except SettingError (Option C))

/-- What a factory receives for a parameter, apart from identities. -/
inductive Ingredient (C : Type) where
  /-- A shared product. -/
  | shared (content : Content C)
  /-- A configuration value of the product type with this number. -/
  | setting (index : Nat) (made : C)
  /-- An optional layer without anything in it. -/
  | absent
  /-- An optional layer around an ingredient. -/
  | present (inner : Ingredient C)

/-- An optional layer around what there is. -/
def Ingredient.ofOption : Option (Ingredient C) → Ingredient C
  | none => .absent
  | some inner => .present inner

/-- The configuration value of the product type `index` in a content, if it is that of a
holder of such values. -/
def Content.setting? (c : Content C) (index : Nat) : Except Failure (Option C) :=
  match c with
  | .product actual _ =>
    .error (.wrongType TypeKey.settings.name (TypeKey.product actual).name)
  | .settings found =>
    (found index).mapError fun e => .factoryFailed (TypeKey.product index).name e.message

section View

variable (view : V → C)

/-- The content of a value. A product that holds other products is viewed with these
unfolded, so that the view tells all but identities. -/
def Value.content : Value V → Content C
  | .product index made => .product index (view made)
  | .settings held =>
    .settings fun index => (held.find index).map (Option.map fun s => view s.content)

/-- What an argument is apart from identities. -/
def Argument.ingredient : Argument V → Ingredient C
  | .shared product => .shared (product.value.content view)
  | .setting value => .setting value.index (view value.content)
  | .absent => .absent
  | .present inner => .present inner.ingredient

/-! ### Factories without memory -/

/-- What a factory makes of its ingredients: a content, or an error of this text. -/
abbrev Law (C : Type) := List (Ingredient C) → Except String (Content C)

/-- The outcome of a call that answers or gives up. -/
def Outcome.ofExcept {α : Type} : Except String α → Outcome α
  | .ok product => .made product
  | .error cause => .failed cause

/-- The outcome of a factory is a function of its ingredients, whatever their identities, the
world and the calls before; it never breaks off. -/
def Obeys (make : Factory σ V (Value V)) (law : Law C) : Prop :=
  ∀ arguments world, (make arguments world).1.outcome.map (Value.content view) =
    .ofExcept (law (arguments.map (Argument.ingredient view)))

/-- Each factory of the book obeys the law of its type. -/
def Book.Lawful (b : Book σ V) (laws : TypeKey → Law C) : Prop :=
  ∀ key r make, b.recipe? key = some r → r.source = .factory make → Obeys view make (laws key)

end View

/-! ### Evaluation -/

namespace Need

/-- What an optional layer around a need holds, given the content of the type that the need
uses. -/
def readOptional : Need → Content C → Except Failure (Option (Ingredient C))
  | .shared _, c => .ok (some (.shared c))
  | .setting index, c => (c.setting? index).map (Option.map (.setting index))
  | .optional inner, c => (inner.readOptional c).map (some ∘ .ofOption)

/-- What a need receives, given the content of the type that it uses. -/
def read : Need → Content C → Except Failure (Ingredient C)
  | .shared _, c => .ok (.shared c)
  | .setting index, c =>
    match c.setting? index with
    | .ok (some made) => .ok (.setting index made)
    | .ok none => .error (.missing (TypeKey.product index).name)
    | .error failure => .error failure
  | .optional inner, c => (inner.readOptional c).map .ofOption

/-- What a need receives if `eval` evaluates the type that it uses: nothing if it is optional
and no recipe produces that type. -/
def gather (produces : TypeKey → Bool) (eval : TypeKey → Except Halt (Content C))
    (need : Need) : Except Halt (Ingredient C) :=
  if need.isOptional && !produces need.key then .ok .absent
  else do
    let c ← eval need.key
    (need.read c).mapError .failed

/-- Parameters receive the same from evaluations that agree on the types they use. -/
lemma mapM_gather_congr (produces : TypeKey → Bool)
    (eval eval' : TypeKey → Except Halt (Content C)) {ps : List Parameter}
    (h : ∀ p ∈ ps, eval p.need.key = eval' p.need.key) :
    (ps.mapM fun p => p.need.gather produces eval) =
      ps.mapM fun p => p.need.gather produces eval' := by
  induction ps with
  | nil => rfl
  | cons p rest ih =>
      have hfirst : p.need.gather produces eval = p.need.gather produces eval' := by
        rw [gather, gather, h p (List.mem_cons_self ..)]
      rw [List.mapM_cons, List.mapM_cons, hfirst,
        ih fun q hq => h q (List.mem_cons_of_mem p hq)]

end Need

namespace Book

variable (b : Book σ V) (view : V → C) (laws : TypeKey → Law C)

/-- The content of the product of `key`, where at most `depth` evaluations are nested. Given
values are as they are; otherwise the parameters of the recipe are evaluated from left to
right, each anew, and the law of the factory is applied to them. -/
def rebuild : (depth : Nat) → TypeKey → Except Halt (Content C)
  | 0, _ => .error .tooDeep
  | depth + 1, key =>
    match b.recipe? key with
    | none => .error (.failed (.missing key.name))
    | some r =>
      match r.source with
      | .given product => .ok (product.value.content view)
      | .factory _ => do
        let ingredients ← r.parameters.mapM fun p => p.need.gather b.produces (rebuild depth)
        (laws key ingredients).mapError fun cause => .failed (.factoryFailed r.type.name cause)

/-- The content of the product of a type, evaluated as deep as the book allows. -/
def content (key : TypeKey) : Except Halt (Content C) := b.rebuild view laws (b.size + 1) key

variable {b view laws}

lemma rebuild_of_none {key : TypeKey} (h : b.recipe? key = none) (depth : Nat) :
    b.rebuild view laws (depth + 1) key = .error (.failed (.missing key.name)) := by
  rw [rebuild, h]

lemma rebuild_of_given {key : TypeKey} {r : Recipe σ V} {product : Instance V}
    (h : b.recipe? key = some r) (hs : r.source = .given product) (depth : Nat) :
    b.rebuild view laws (depth + 1) key = .ok (product.value.content view) := by
  rw [rebuild, h]
  dsimp only
  rw [hs]

lemma rebuild_of_factory {key : TypeKey} {r : Recipe σ V} {make : Factory σ V (Value V)}
    (h : b.recipe? key = some r) (hs : r.source = .factory make) (depth : Nat) :
    b.rebuild view laws (depth + 1) key =
      r.parameters.mapM (fun p => p.need.gather b.produces (b.rebuild view laws depth)) >>=
        fun ingredients => (laws key ingredients).mapError fun cause =>
          .failed (.factoryFailed r.type.name cause) := by
  rw [rebuild, h]
  dsimp only
  rw [hs]

/-- **The bound does not matter.** While the types of `stack` are under construction, all
bounds that leave room for the rest of the book give the same content. -/
lemma rebuild_eq_rebuild (ha : b.Acyclic) {stack : List TypeKey} (hs : b.IsStack stack)
    {key : TypeKey} (hn : b.IsNext stack key) {depth depth' : Nat}
    (h : b.size < depth + stack.length) (h' : b.size < depth' + stack.length) :
    b.rebuild view laws depth key = b.rebuild view laws depth' key := by
  induction hs using IsStack.induction ha generalizing key depth depth' with
  | step stack hs ih =>
      have hle := hs.length_le ha
      obtain ⟨d, rfl⟩ : ∃ d, depth = d + 1 := ⟨depth - 1, by omega⟩
      obtain ⟨d', rfl⟩ : ∃ d', depth' = d' + 1 := ⟨depth' - 1, by omega⟩
      cases hr : b.recipe? key with
      | none => rw [rebuild_of_none hr, rebuild_of_none hr]
      | some r =>
          cases hsource : r.source with
          | given product => rw [rebuild_of_given hr hsource, rebuild_of_given hr hsource]
          | factory make =>
              rw [rebuild_of_factory hr hsource, rebuild_of_factory hr hsource]
              have hpush := hs.push (produces_iff.2 ⟨r, hr⟩) hn
              have hparameters := Need.mapM_gather_congr b.produces
                (b.rebuild view laws d) (b.rebuild view laws d')
                fun p (hp : p ∈ r.parameters) =>
                  ih key hpush (isNext_parameter hr hp)
                    (by rw [List.length_cons]; omega) (by rw [List.length_cons]; omega)
              rw [hparameters]

/-- **The content of a type** in terms of the contents of the types that its recipe uses. -/
theorem content_eq (ha : b.Acyclic) (key : TypeKey) :
    b.content view laws key =
      match b.recipe? key with
      | none => .error (.failed (.missing key.name))
      | some r =>
        match r.source with
        | .given product => .ok (product.value.content view)
        | .factory _ =>
          r.parameters.mapM (fun p => p.need.gather b.produces (b.content view laws)) >>=
            fun ingredients => (laws key ingredients).mapError fun cause =>
              .failed (.factoryFailed r.type.name cause) := by
  rw [content]
  cases hr : b.recipe? key with
  | none => rw [rebuild_of_none hr]
  | some r =>
      dsimp only
      cases hsource : r.source with
      | given product => rw [rebuild_of_given hr hsource]
      | factory make =>
          have hpush := isStack_nil.push (produces_iff.2 ⟨r, hr⟩) (isNext_nil key)
          have hparameters := Need.mapM_gather_congr b.produces
            (b.rebuild view laws b.size) (b.content view laws)
            fun p (hp : p ∈ r.parameters) =>
              rebuild_eq_rebuild ha hpush (isNext_parameter hr hp)
                (by rw [List.length_singleton]; omega) (by rw [List.length_singleton]; omega)
          rw [rebuild_of_factory hr hsource, hparameters]

end Book

end Wiring
