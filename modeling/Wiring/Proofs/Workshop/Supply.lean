/-
How a workshop serves one request, in terms of the moments before and after.

* `Need.take`: what a parameter makes of the product of the type it uses;
  `Need.runFrom_resolve`: a parameter is resolved by at most one request, for that type;
* `Workshop.Skips`: parameters for which nothing is requested;
* `Workshop.runFrom_call`, `Workshop.runFrom_construct`: a factory call, and an attempt
  to make a product;
* `Workshop.runFrom_fromShelf_of_none`, `Workshop.runFrom_fromShelf_of_product`,
  `Workshop.runFrom_fromShelf_of_empty`: the use of the shelf;
* `Workshop.serveAt`: a request while the types of a stack are under construction, and
  `Workshop.serveAt_of_none`, `Workshop.serveAt_of_given`, `Workshop.serveAt_of_factory`:
  what it comes to.
-/
import Mathlib.Data.Nat.Notation
import Mathlib.Logic.Basic
import Wiring.Workshop

namespace Wiring

variable {σ V : Type}

/-! ### What a parameter receives -/

namespace Need

/-- The configuration value of the product type `index` that a product holds, if it is a
holder of such values. -/
def settingOf (holder : Instance V) (index : Nat) : Except Failure (Option (Setting V)) :=
  match holder.value with
  | .product .. => .error (.wrongType TypeKey.settings.name holder.type.name)
  | .settings held =>
    match held.find index with
    | .ok value => .ok value
    | .error e => .error (.factoryFailed (TypeKey.product index).name e.message)

/-- What an optional layer around a need holds, given the product of the type that the
need uses. -/
def acceptOptional : Need → Instance V → Except Failure (Option (Argument V))
  | .shared _, product => .ok (some (.shared product))
  | .setting index, product => (settingOf product index).map (Option.map .setting)
  | .optional inner, product => (inner.acceptOptional product).map (some ∘ .ofOption)

/-- What a need receives, given the product of the type that it uses. -/
def accept : Need → Instance V → Except Failure (Argument V)
  | .shared _, product => .ok (.shared product)
  | .setting index, product =>
    match settingOf product index with
    | .ok (some value) => .ok (.setting value)
    | .ok none => .error (.missing (TypeKey.product index).name)
    | .error failure => .error failure
  | .optional inner, product => (inner.acceptOptional product).map .ofOption

/-- What a need receives, given a product that has to be of the type it uses. -/
def take (need : Need) (product : Instance V) : Except Failure (Argument V) :=
  match product.downcast need.key with
  | .ok product => need.accept product
  | .error actual => .error (.wrongType need.key.name actual)

/-- What a need receives from a request for the type it uses. -/
def receive (need : Need) : Except Halt (Instance V) → Except Halt (Argument V)
  | .ok product => (need.take product).mapError .failed
  | .error halt => .error halt

lemma take_of_key {need : Need} {product : Instance V}
    (h : product.value.key = need.key) : need.take product = need.accept product := by
  simp [take, Instance.downcast, h]

lemma take_of_ne {need : Need} {product : Instance V} (h : product.value.key ≠ need.key) :
    need.take product = .error (.wrongType need.key.name product.type.name) := by
  simp [take, Instance.downcast, h]

/-- A need receives something only from a product. -/
lemma exists_of_receive_eq_ok {need : Need} {given : Except Halt (Instance V)}
    {a : Argument V} (h : need.receive given = .ok a) :
    ∃ product, given = .ok product ∧ need.accept product = .ok a := by
  cases given with
  | error halt => cases h
  | ok product =>
      refine ⟨product, rfl, ?_⟩
      by_cases hkey : product.value.key = need.key
      · rw [receive, take_of_key hkey] at h
        cases ha : need.accept product with
        | error failure =>
            rw [ha] at h
            cases h
        | ok b =>
            rw [ha] at h
            obtain rfl := Except.ok.inj h
            rfl
      · rw [receive, take_of_ne hkey] at h
        cases h

variable (produces : TypeKey → Bool) (obtain : TypeKey → Request σ V (Instance V))

lemma runFrom_lookUp (index : Nat) (m : Moment σ V) :
    (lookUp obtain index).runFrom m =
      match (obtain .settings).runFrom m with
      | (.ok holder, m') => ((settingOf holder index).mapError .failed, m')
      | (.error halt, m') => (.error halt, m') := by
  rw [lookUp, Request.runFrom_bind]
  rcases (obtain .settings).runFrom m with ⟨halt | ⟨type, origin, value⟩, m'⟩
  · rfl
  · cases value with
    | product index' content => rfl
    | settings held =>
        simp only [settingOf]
        cases held.find index <;> rfl

variable {produces obtain}

/-- If a recipe produces what a need uses, an optional layer around the need takes one
request for it. -/
lemma runFrom_resolveOptional (need : Need) (hp : produces need.key = true)
    (m : Moment σ V) :
    (need.resolveOptional produces obtain).runFrom m =
      match (obtain need.key).runFrom m with
      | (.ok product, m') => ((need.acceptOptional product).mapError .failed, m')
      | (.error halt, m') => (.error halt, m') := by
  induction need with
  | shared t =>
      rw [resolveOptional, if_pos (show produces t = true from hp), Request.runFrom_map]
      change _ = match (obtain t).runFrom m with | (.ok _, _) => _ | (.error _, _) => _
      rcases (obtain t).runFrom m with ⟨halt | product, m'⟩ <;> rfl
  | setting index =>
      rw [resolveOptional, if_pos (show produces .settings = true from hp),
        Request.runFrom_map, runFrom_lookUp]
      change _ = match (obtain .settings).runFrom m with | (.ok _, _) => _ | (.error _, _) => _
      rcases (obtain .settings).runFrom m with ⟨halt | product, m'⟩
      · rfl
      · simp only [acceptOptional]
        cases settingOf product index <;> rfl
  | optional inner ih =>
      rw [resolveOptional, if_pos (show produces inner.key = true from hp),
        Request.runFrom_map, ih hp]
      change _ = match (obtain inner.key).runFrom m with | (.ok _, _) => _ | (.error _, _) => _
      rcases (obtain inner.key).runFrom m with ⟨halt | product, m'⟩
      · rfl
      · simp only [acceptOptional]
        cases inner.acceptOptional product <;> rfl

/-- If no recipe produces what a need uses, an optional layer around it holds nothing. -/
lemma runFrom_resolveOptional_of_not (need : Need) (hp : produces need.key = false)
    (m : Moment σ V) : (need.resolveOptional produces obtain).runFrom m = (.ok none, m) := by
  have hne {k : TypeKey} (hk : produces k = false) : ¬ produces k = true := by simp [hk]
  cases need with
  | shared t => rw [resolveOptional, if_neg (hne (k := t) hp), Request.runFrom_pure]
  | setting index =>
      rw [resolveOptional, if_neg (hne (k := .settings) hp), Request.runFrom_pure]
  | optional inner =>
      rw [resolveOptional, if_neg (hne (k := inner.key) hp), Request.runFrom_pure]

/-- A parameter takes one request for the type that it uses. -/
lemma runFrom_resolve (need : Need)
    (hp : (need.isOptional && !produces need.key) = false) (m : Moment σ V) :
    (need.resolve produces obtain).runFrom m =
      match (obtain need.key).runFrom m with
      | (.ok product, m') => ((need.accept product).mapError .failed, m')
      | (.error halt, m') => (.error halt, m') := by
  cases need with
  | shared t =>
      rw [resolve, Request.runFrom_map]
      change _ = match (obtain t).runFrom m with | (.ok _, _) => _ | (.error _, _) => _
      rcases (obtain t).runFrom m with ⟨halt | product, m'⟩ <;> rfl
  | setting index =>
      rw [resolve, Request.runFrom_bind, runFrom_lookUp]
      change _ = match (obtain .settings).runFrom m with | (.ok _, _) => _ | (.error _, _) => _
      rcases (obtain .settings).runFrom m with ⟨halt | product, m'⟩
      · rfl
      · simp only [accept]
        rcases settingOf product index with failure | _ | value <;> rfl
  | optional inner =>
      have hin : produces inner.key = true := by simpa [isOptional, key] using hp
      rw [resolve, Request.runFrom_map, runFrom_resolveOptional inner hin]
      change _ = match (obtain inner.key).runFrom m with | (.ok _, _) => _ | (.error _, _) => _
      rcases (obtain inner.key).runFrom m with ⟨halt | product, m'⟩
      · rfl
      · simp only [accept]
        cases inner.acceptOptional product <;> rfl

/-- An optional parameter takes no request if no recipe produces what it uses. -/
lemma runFrom_resolve_of_not (need : Need)
    (hp : (need.isOptional && !produces need.key) = true) (m : Moment σ V) :
    (need.resolve produces obtain).runFrom m = (.ok .absent, m) := by
  cases need with
  | shared t => simp [isOptional] at hp
  | setting index => simp [isOptional] at hp
  | optional inner =>
      have hin : produces inner.key = false := by simpa [isOptional, key] using hp
      rw [resolve, Request.runFrom_map, runFrom_resolveOptional_of_not inner hin]
      rfl

end Need

/-- The parameters of a factory are resolved from left to right, up to the first that can
not be resolved. -/
lemma runFrom_resolveAll_cons (produces : TypeKey → Bool)
    (obtain : TypeKey → Request σ V (Instance V)) (p : Parameter) (rest : List Parameter)
    (m : Moment σ V) :
    (resolveAll produces obtain (p :: rest)).runFrom m =
      match (p.need.resolve produces obtain).runFrom m with
      | (.ok first, m₁) =>
        match (resolveAll produces obtain rest).runFrom m₁ with
        | (.ok others, m₂) => (.ok (first :: others), m₂)
        | (.error halt, m₂) => (.error halt, m₂)
      | (.error halt, m₁) => (.error halt, m₁) := by
  rw [resolveAll, Request.runFrom_bind]
  rcases (p.need.resolve produces obtain).runFrom m with ⟨halt | first, m₁⟩
  · rfl
  · dsimp only
    rw [Request.runFrom_bind]
    rcases (resolveAll produces obtain rest).runFrom m₁ with ⟨halt | others, m₂⟩ <;> rfl

/-! ### After an attempt -/

namespace Moment

/-- The moment after an attempt with this answer, when its failure is reported. -/
def reported (m : Moment σ V) (name : String) : Except Halt (Instance V) → Moment σ V
  | .error (.failed failure) => m.record (.noted (.constructionFailed name failure))
  | _ => m

/-- The moment after an attempt with this answer, when the place of `wanted` is given
free: it is filled by a product, marked by a panic, and left as it is by a failure. -/
def released (m : Moment σ V) (wanted : TypeRef) : Except Halt (Instance V) → Moment σ V
  | .ok product => (m.record (.noted (.constructed wanted.name))).store wanted.key product
  | .error (.panicked _) => m.poison wanted.key
  | _ => m

end Moment

namespace Workshop

variable (w : Workshop σ V)

/-! ### Calls and the shelf -/

/-- Nothing is requested for an optional parameter if no recipe produces what it uses. -/
def Skips (p : Parameter) : Bool := p.need.isOptional && !w.book.produces p.need.key

/-- The product of the factory call with the number `serial`. -/
def product (serial : ℕ) (value : Value V) : Instance V :=
  ⟨.of value.key, .built w.serial serial, value⟩

/-- What the factory call with the number `serial` answers to the request for a product
of `r`. -/
def answerOf (r : Recipe σ V) (serial : ℕ) : Outcome (Value V) → Except Halt (Instance V)
  | .made value => .ok (w.product serial value)
  | .failed cause => .error (.failed (.factoryFailed r.type.name cause))
  | .panicked text => .error (.panicked text)

/-- A factory call counts, changes the world and is recorded; it leaves the shelf as it
is. -/
lemma runFrom_call (r : Recipe σ V) (make : Factory σ V (Value V))
    (arguments : List (Argument V)) (m : Moment σ V) :
    (w.call r make arguments).runFrom m =
      (w.answerOf r m.calls (make arguments m.world).1.outcome,
        { m with
          calls := m.calls + 1
          world := (make arguments m.world).2
          trace := m.trace ++
            [.called m.calls r.key arguments (make arguments m.world).1] }) := by
  simp only [call, Request.runFrom_bind, Request.runFrom_get, Request.runFrom_set]
  rcases (make arguments m.world).1.outcome with value | cause | text <;> rfl

/-- The type of a product is checked without any change. -/
lemma runFrom_checked (key : TypeKey) (product : Instance V) (m : Moment σ V) :
    (checked key product).runFrom m =
      ((product.downcast key).mapError fun actual => .failed (.wrongType key.name actual),
        m) := by
  rw [checked]
  cases product.downcast key <;> rfl

/-- An attempt: its beginning is recorded, the parameters are resolved, the factory is
called, and a failure is reported. -/
lemma runFrom_construct (stack : List TypeKey) (wanted : TypeRef) (r : Recipe σ V)
    (make : Factory σ V (Value V)) (obtain : TypeKey → Request σ V (Instance V))
    (m : Moment σ V) :
    (w.construct stack wanted r make obtain).runFrom m =
      match (resolveAll w.book.produces obtain r.parameters >>= w.call r make).runFrom
          (m.record (.began (wanted.key :: stack))) with
      | (answer, m') => (answer, m'.reported wanted.name answer) := by
  rw [construct, Request.runFrom_reporting, Request.runFrom_bind, Request.runFrom_record]
  dsimp only
  rcases (resolveAll w.book.produces obtain r.parameters >>= w.call r make).runFrom
    (m.record (.began (wanted.key :: stack))) with ⟨(failure | text | _) | product, m'⟩ <;> rfl

variable {wanted : TypeRef} {attempt : Request σ V (Instance V)} {m : Moment σ V}

/-- Without a place every request is an attempt. -/
lemma runFrom_fromShelf_of_none (h : m.shelf.get? wanted.key = none) :
    (fromShelf wanted attempt).runFrom m = attempt.runFrom m := by
  rw [fromShelf, Request.runFrom_bind, Request.runFrom_get]
  dsimp only
  rw [h]

/-- A product on the shelf is handed out. -/
lemma runFrom_fromShelf_of_product {product : Instance V}
    (h : m.shelf.product? wanted.key = some product) :
    (fromShelf wanted attempt).runFrom m = (.ok product, m) := by
  obtain ⟨⟨found, poisoned⟩, hplace, rfl⟩ := Option.bind_eq_some_iff.1 h
  rw [fromShelf, Request.runFrom_bind, Request.runFrom_get]
  dsimp only
  rw [hplace]
  rfl

/-- For an empty place an attempt is made, whatever the mark on the place. -/
lemma runFrom_fromShelf_of_empty {place : Place V}
    (h : m.shelf.get? wanted.key = some place) (he : place.product = none) :
    (fromShelf wanted attempt).runFrom m =
      match attempt.runFrom m with
      | (answer, m') => (answer, m'.released wanted answer) := by
  obtain ⟨found, poisoned⟩ := place
  subst he
  rw [fromShelf, Request.runFrom_bind, Request.runFrom_get]
  dsimp only
  rw [h]
  dsimp only
  rw [Request.runFrom_bind, Request.runFrom_guarding]
  rcases attempt.runFrom m with ⟨(failure | text | _) | product, m'⟩ <;> rfl

/-! ### Requests while other types are under construction -/

/-- A request while the types of `stack` are under construction. -/
def serveAt (stack : List TypeKey) (wanted : TypeRef) : Request σ V (Instance V) :=
  w.serve (w.room - stack.length) stack wanted

/-- A request for a parameter while the types of `stack` are under construction. -/
def fetch (stack : List TypeKey) (key : TypeKey) : Request σ V (Instance V) :=
  w.serveAt stack (.of key) >>= checked key

lemma getInstance_eq (wanted : TypeRef) : w.getInstance wanted = w.serveAt [] wanted := rfl

lemma get_eq (key : TypeKey) : w.get key = w.fetch [] key := rfl

variable {w} in
lemma room_sub {stack : List TypeKey} (h : stack.length ≤ w.book.size) :
    w.room - stack.length = w.book.size - stack.length + 1 := by
  rw [room]
  omega

variable {w}

lemma serveAt_of_none {stack : List TypeKey} {wanted : TypeRef}
    (h : stack.length ≤ w.book.size) (hr : w.book.recipe? wanted.key = none) :
    w.serveAt stack wanted = Request.fail (.missing wanted.name) := by
  rw [serveAt, room_sub h, serve_succ, hr]

lemma serveAt_of_given {stack : List TypeKey} {wanted : TypeRef} {r : Recipe σ V}
    {product : Instance V} (h : stack.length ≤ w.book.size)
    (hr : w.book.recipe? wanted.key = some r) (hs : r.source = .given product) :
    w.serveAt stack wanted = pure product := by
  rw [serveAt, room_sub h, serve_succ, hr]
  dsimp only
  rw [hs]

/-- As long as not more types are under construction than the book has, what a request
comes to does not depend on the number of them. -/
lemma serveAt_of_factory {stack : List TypeKey} {wanted : TypeRef} {r : Recipe σ V}
    {make : Factory σ V (Value V)} (h : stack.length ≤ w.book.size)
    (hr : w.book.recipe? wanted.key = some r) (hs : r.source = .factory make) :
    w.serveAt stack wanted =
      fromShelf wanted (w.construct stack wanted r make (w.fetch (wanted.key :: stack))) := by
  have hroom : w.book.size - stack.length = w.room - (wanted.key :: stack).length := by
    rw [room, List.length_cons]
    omega
  rw [serveAt, room_sub h, serve_succ, hr]
  dsimp only
  rw [hs, hroom]
  rfl

/-- A request for a parameter, and the check of its type. -/
lemma runFrom_fetch (stack : List TypeKey) (key : TypeKey) (m : Moment σ V) :
    (w.fetch stack key).runFrom m =
      match (w.serveAt stack (.of key)).runFrom m with
      | (.ok product, m') =>
        ((product.downcast key).mapError fun actual => .failed (.wrongType key.name actual),
          m')
      | (.error halt, m') => (.error halt, m') := by
  rw [fetch, Request.runFrom_bind]
  rcases (w.serveAt stack (.of key)).runFrom m with ⟨halt | product, m'⟩
  · rfl
  · exact runFrom_checked key product m'

/-- A parameter receives what it makes of the answer to its request. -/
lemma runFrom_resolve_fetch {p : Parameter} (h : w.Skips p = false) (stack : List TypeKey)
    (m : Moment σ V) :
    (p.need.resolve w.book.produces (w.fetch stack)).runFrom m =
      match (w.serveAt stack (.of p.need.key)).runFrom m with
      | (answer, m') => (p.need.receive answer, m') := by
  rw [Need.runFrom_resolve p.need h, runFrom_fetch]
  rcases (w.serveAt stack (.of p.need.key)).runFrom m with ⟨halt | product, m'⟩
  · rfl
  · simp only [Need.receive, Need.take]
    cases product.downcast p.need.key <;> rfl

end Workshop

end Wiring
