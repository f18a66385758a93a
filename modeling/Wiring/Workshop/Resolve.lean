/-
How the parameters of factories are resolved, given which types have a recipe
(`produces`) and how the product of a type is had (`obtain`).

* `Need.lookUp`: a configuration value, by way of the holder of such values;
* `Need.resolveOptional`: what an optional layer around a need holds;
* `Need.resolve`, `resolveAll`: one parameter, and all parameters from left to right
  up to the first that can not be resolved.
-/
import Wiring.Workshop.Request

namespace Wiring

variable {σ V : Type}

namespace Need

/-- The configuration value of the product type `index`, if the holder that is
obtained has one. -/
def lookUp (obtain : TypeKey → Request σ V (Instance V)) (index : Nat) :
    Request σ V (Option (Setting V)) := do
  let holder ← obtain .settings
  match holder.value with
  | .product .. => Request.fail (.wrongType TypeKey.settings.name holder.type.name)
  | .settings held =>
    match held.find index with
    | .ok value => pure value
    | .error e => Request.fail (.factoryFailed (TypeKey.product index).name e.message)

/-- What an optional layer around a need holds: nothing if no recipe produces what
the need depends on. A configuration value may also be lacking in its holder. -/
def resolveOptional (produces : TypeKey → Bool)
    (obtain : TypeKey → Request σ V (Instance V)) :
    Need → Request σ V (Option (Argument V))
  | .shared key =>
    if produces key then (some ∘ .shared) <$> obtain key else pure none
  | .setting index =>
    if produces .settings then (Option.map .setting) <$> lookUp obtain index else pure none
  | .optional inner =>
    if produces inner.key then
      (some ∘ .ofOption) <$> resolveOptional produces obtain inner
    else pure none

/-- What a need receives. -/
def resolve (produces : TypeKey → Bool) (obtain : TypeKey → Request σ V (Instance V)) :
    Need → Request σ V (Argument V)
  | .shared key => .shared <$> obtain key
  | .setting index => do
    match ← lookUp obtain index with
    | some value => pure (.setting value)
    | none => Request.fail (.missing (TypeKey.product index).name)
  | .optional inner => .ofOption <$> resolveOptional produces obtain inner

end Need

/-- What the parameters of a factory receive, from left to right. -/
def resolveAll (produces : TypeKey → Bool) (obtain : TypeKey → Request σ V (Instance V)) :
    List Parameter → Request σ V (List (Argument V))
  | [] => pure []
  | p :: rest => do
    let first ← p.need.resolve produces obtain
    let others ← resolveAll produces obtain rest
    pure (first :: others)

end Wiring
