/-
How a request fails.

* `Cause`: what a request can fail at: a type without a recipe, a factory that does not
  succeed, or a product that a parameter can not use;
* `Moment.abandoned`: the end of an attempt one part of which has failed;
* `Workshop.Breakdown`: the types under construction when a request fails, its cause, and
  how each of the attempts is abandoned: the parameters before the failing one are resolved,
  those after it are not, and the factory is not called;
* `Workshop.exists_breakdown`: **every request that fails breaks down like this**;
* `Workshop.Breakdown.unfinished`: the places of all types under construction stay empty.
-/
import Wiring.Proofs.Workshop.Growth

namespace Wiring

open Relation

variable {σ V : Type}

/-- What a request fails at. -/
inductive Cause (σ V : Type) where
  /-- No recipe is there for the type. -/
  | unknown (wanted : TypeRef)
  /-- The factory of the recipe does not succeed with these arguments. -/
  | factory (r : Recipe σ V) (arguments : List (Argument V))
  /-- The parameter `p` of the recipe `r` can not use the product that it requested. -/
  | unfit (r : Recipe σ V) (p : Parameter) (product : Instance V)

/-- The moment after an attempt that is abandoned because a part of it ended in `halt`: a
failure is reported, a panic marks the place, and nothing else happens. -/
def Moment.abandoned (m : Moment σ V) (wanted : TypeRef) (halt : Halt) : Moment σ V :=
  (m.reported wanted.name (.error halt)).released wanted (.error halt)

/-- An abandoned attempt leaves all products as they were. -/
lemma Moment.product?_abandoned (m : Moment σ V) (wanted : TypeRef) (halt : Halt)
    (k : TypeKey) : (m.abandoned wanted halt).shelf.product? k = m.shelf.product? k := by
  rw [abandoned, product?_released_error, shelf_reported]

/-- Parameters are resolved from left to right. If one can not be resolved, those before it
were, and nothing happens after it. -/
lemma exists_of_resolveAll_eq_error {produces : TypeKey → Bool}
    {obtain : TypeKey → Request σ V (Instance V)} {ps : List Parameter} {m m' : Moment σ V}
    {halt : Halt} (h : (resolveAll produces obtain ps).runFrom m = (.error halt, m')) :
    ∃ before p after arguments m₁, ps = before ++ p :: after ∧
      (resolveAll produces obtain before).runFrom m = (.ok arguments, m₁) ∧
      (p.need.resolve produces obtain).runFrom m₁ = (.error halt, m') := by
  induction ps generalizing m with
  | nil => cases congrArg Prod.fst h
  | cons p rest ih =>
      rw [runFrom_resolveAll_cons] at h
      rcases hp : (p.need.resolve produces obtain).runFrom m with ⟨halt' | first, m₁⟩
      · rw [hp] at h
        obtain ⟨rfl, rfl⟩ : halt' = halt ∧ m₁ = m' := by simpa using h
        exact ⟨[], p, rest, [], m, rfl, rfl, hp⟩
      · rw [hp] at h
        rcases hr : (resolveAll produces obtain rest).runFrom m₁ with ⟨halt' | others, m₂⟩
        · obtain ⟨rfl, rfl⟩ : halt' = halt ∧ m₂ = m' := by simpa [hr] using h
          obtain ⟨before, q, after, arguments, m₃, rfl, hbefore, hq⟩ := ih hr
          refine ⟨p :: before, q, after, first :: arguments, m₃, rfl, ?_, hq⟩
          rw [runFrom_resolveAll_cons, hp]
          simp [hbefore]
        · simp [hr] at h

namespace Workshop

/-- How a request for `wanted` that is made at the moment `m`, while the types of `stack`
are under construction, fails: the types whose construction is in progress then, the
outermost first, the cause, what the request ends in, and the moment after it. -/
inductive Breakdown (w : Workshop σ V) : List TypeKey → TypeRef → Moment σ V →
    List TypeKey → Cause σ V → Halt → Moment σ V → Prop
  | unknown {stack : List TypeKey} {wanted : TypeRef} {m : Moment σ V}
      (absent : w.book.recipe? wanted.key = none) :
      Breakdown w stack wanted m [] (.unknown wanted) (.failed (.missing wanted.name)) m
  | factory {stack : List TypeKey} {wanted : TypeRef} {m m₁ m₂ : Moment σ V}
      {r : Recipe σ V} {make : Factory σ V (Value V)} {arguments : List (Argument V)}
      {halt : Halt} (found : w.book.recipe? wanted.key = some r)
      (source : r.source = .factory make) (empty : m.shelf.product? wanted.key = none)
      (resolved : (resolveAll w.book.produces (w.fetch (wanted.key :: stack))
        r.parameters).runFrom (m.record (.began (wanted.key :: stack))) =
          (.ok arguments, m₁))
      (ended : (w.call r make arguments).runFrom m₁ = (.error halt, m₂)) :
      Breakdown w stack wanted m [wanted.key] (.factory r arguments) halt
        (m₂.abandoned wanted halt)
  | unfit {stack : List TypeKey} {wanted : TypeRef} {m m₁ m₂ : Moment σ V}
      {r : Recipe σ V} {make : Factory σ V (Value V)} {arguments : List (Argument V)}
      {before after : List Parameter} {p : Parameter} {product : Instance V}
      {failure : Failure} (found : w.book.recipe? wanted.key = some r)
      (source : r.source = .factory make) (empty : m.shelf.product? wanted.key = none)
      (parameters : r.parameters = before ++ p :: after)
      (resolved : (resolveAll w.book.produces (w.fetch (wanted.key :: stack))
        before).runFrom (m.record (.began (wanted.key :: stack))) = (.ok arguments, m₁))
      (asks : w.Skips p = false)
      (served : (w.serveAt (wanted.key :: stack) (.of p.need.key)).runFrom m₁ =
        (.ok product, m₂))
      (refused : p.need.take product = .error failure) :
      Breakdown w stack wanted m [wanted.key] (.unfit r p product) (.failed failure)
        (m₂.abandoned wanted (.failed failure))
  | deeper {stack : List TypeKey} {wanted : TypeRef} {m m₁ m₂ : Moment σ V}
      {r : Recipe σ V} {make : Factory σ V (Value V)} {arguments : List (Argument V)}
      {before after : List Parameter} {p : Parameter} {path : List TypeKey}
      {cause : Cause σ V} {halt : Halt} (found : w.book.recipe? wanted.key = some r)
      (source : r.source = .factory make) (empty : m.shelf.product? wanted.key = none)
      (parameters : r.parameters = before ++ p :: after)
      (resolved : (resolveAll w.book.produces (w.fetch (wanted.key :: stack))
        before).runFrom (m.record (.began (wanted.key :: stack))) = (.ok arguments, m₁))
      (asks : w.Skips p = false)
      (served : (w.serveAt (wanted.key :: stack) (.of p.need.key)).runFrom m₁ =
        (.error halt, m₂))
      (breaks : Breakdown w (wanted.key :: stack) (.of p.need.key) m₁ path cause halt m₂) :
      Breakdown w stack wanted m (wanted.key :: path) cause halt (m₂.abandoned wanted halt)

variable {w : Workshop σ V}

/-- A request that fails although there is a factory was an attempt. -/
lemma exists_of_serveAt_eq_error {stack : List TypeKey} {wanted : TypeRef} {r : Recipe σ V}
    {make : Factory σ V (Value V)} {m m' : Moment σ V} {halt : Halt}
    (hle : stack.length ≤ w.book.size) (hr : w.book.recipe? wanted.key = some r)
    (hsource : r.source = .factory make)
    (hplaces : ((resolveAll w.book.produces (w.fetch (wanted.key :: stack)) r.parameters >>=
      w.call r make).runFrom (m.record (.began (wanted.key :: stack)))).2.shelf.contains
        wanted.key = m.shelf.contains wanted.key)
    (h : (w.serveAt stack wanted).runFrom m = (.error halt, m')) :
    m.shelf.product? wanted.key = none ∧ ∃ m₁,
      (resolveAll w.book.produces (w.fetch (wanted.key :: stack)) r.parameters >>=
        w.call r make).runFrom (m.record (.began (wanted.key :: stack))) =
          (.error halt, m₁) ∧ m' = m₁.abandoned wanted halt := by
  have hattempt := w.runFrom_construct stack wanted r make (w.fetch (wanted.key :: stack)) m
  rcases hinner : (resolveAll w.book.produces (w.fetch (wanted.key :: stack)) r.parameters >>=
    w.call r make).runFrom (m.record (.began (wanted.key :: stack))) with ⟨answer, m₁⟩
  rw [hinner] at hattempt hplaces
  dsimp only at hattempt hplaces
  rw [serveAt_of_factory hle hr hsource] at h
  cases hplace : m.shelf.get? wanted.key with
  | none =>
      rw [runFrom_fromShelf_of_none hplace, hattempt] at h
      obtain ⟨rfl, rfl⟩ := Prod.mk.inj h
      refine ⟨by simp [Shelf.product?, hplace], m₁, rfl, ?_⟩
      -- without a place there is nothing to mark
      have hnone : m₁.shelf.get? wanted.key = none := by
        rw [Table.contains, Table.contains, hplace] at hplaces
        simpa using hplaces
      cases halt with
      | failed failure => rfl
      | panicked text => exact (m₁.poison_of_get?_eq_none hnone).symm
      | tooDeep => rfl
  | some place =>
      have hproduct : m.shelf.product? wanted.key = place.product := by
        simp [Shelf.product?, hplace]
      cases hthere : place.product with
      | none =>
          rw [runFrom_fromShelf_of_empty hplace hthere, hattempt] at h
          obtain ⟨rfl, rfl⟩ := Prod.mk.inj h
          exact ⟨hproduct.trans hthere, m₁, rfl, rfl⟩
      | some product =>
          rw [runFrom_fromShelf_of_product (hproduct.trans hthere)] at h
          cases congrArg Prod.fst h

/-- An attempt that fails breaks down, if the requests for its parameters do. -/
lemma exists_breakdown_of_attempt {stack : List TypeKey} {wanted : TypeRef} {r : Recipe σ V}
    {make : Factory σ V (Value V)} {m m₁ : Moment σ V} {halt : Halt}
    (hr : w.book.recipe? wanted.key = some r) (hsource : r.source = .factory make)
    (hempty : m.shelf.product? wanted.key = none)
    (hbelow : ∀ p ∈ r.parameters, ∀ m m' halt,
      (w.serveAt (wanted.key :: stack) (.of p.need.key)).runFrom m = (.error halt, m') →
      ∃ path cause, Breakdown w (wanted.key :: stack) (.of p.need.key) m path cause halt m')
    (h : (resolveAll w.book.produces (w.fetch (wanted.key :: stack)) r.parameters >>=
      w.call r make).runFrom (m.record (.began (wanted.key :: stack))) = (.error halt, m₁)) :
    ∃ path cause, Breakdown w stack wanted m path cause halt (m₁.abandoned wanted halt) := by
  rw [Request.runFrom_bind] at h
  rcases hall : (resolveAll w.book.produces (w.fetch (wanted.key :: stack))
    r.parameters).runFrom (m.record (.began (wanted.key :: stack))) with
    ⟨halt' | arguments, m₂⟩
  · rw [hall] at h
    obtain ⟨rfl, rfl⟩ : halt' = halt ∧ m₂ = m₁ := by simpa using h
    obtain ⟨before, p, after, arguments, m₃, hsplit, hbefore, hp⟩ :=
      exists_of_resolveAll_eq_error hall
    cases hskips : w.Skips p with
    | true =>
        rw [Need.runFrom_resolve_of_not p.need hskips] at hp
        cases congrArg Prod.fst hp
    | false =>
        rw [runFrom_resolve_fetch hskips] at hp
        rcases hserved : (w.serveAt (wanted.key :: stack) (.of p.need.key)).runFrom m₃ with
          ⟨halt'' | product, m₄⟩
        · rw [hserved] at hp
          obtain ⟨rfl, rfl⟩ : halt'' = halt' ∧ m₄ = m₂ := by
            simpa [Need.receive] using hp
          obtain ⟨path, cause, hbreaks⟩ :=
            hbelow p (by simp [hsplit]) _ _ _ hserved
          exact ⟨_, cause, .deeper hr hsource hempty hsplit hbefore hskips hserved hbreaks⟩
        · rw [hserved] at hp
          obtain ⟨hrefused, rfl⟩ := Prod.mk.inj hp
          cases hfailure : p.need.take product with
          | error failure =>
              rw [Need.receive, hfailure] at hrefused
              obtain rfl : .failed failure = halt' := by
                simpa [Except.mapError] using hrefused
              exact ⟨_, _, .unfit hr hsource hempty hsplit hbefore hskips hserved hfailure⟩
          | ok argument =>
              rw [Need.receive, hfailure] at hrefused
              cases hrefused
  · rw [hall] at h
    exact ⟨_, _, .factory hr hsource hempty hall h⟩

/-- An attempt neither adds nor removes places. -/
lemma contains_attempt (hb : w.book.Keyed) (ha : w.book.Acyclic) {stack : List TypeKey}
    {wanted : TypeRef} (hs : w.book.IsStack stack) (hn : w.book.IsNext stack wanted.key)
    {r : Recipe σ V} (hr : w.book.recipe? wanted.key = some r)
    (make : Factory σ V (Value V)) (m : Moment σ V) (k : TypeKey) :
    ((resolveAll w.book.produces (w.fetch (wanted.key :: stack)) r.parameters >>=
      w.call r make).runFrom (m.record (.began (wanted.key :: stack)))).2.shelf.contains k =
        m.shelf.contains k := by
  have hp : w.book.produces wanted.key := Book.produces_iff.2 ⟨r, hr⟩
  have hc : Course w (wanted.key :: stack) (.build r make [] r.parameters)
      (m.record (.began (wanted.key :: stack))) _ _ :=
    course_build (fun p hmem m => course_serveAt ha (hs.push hp hn)
      (Book.isNext_parameter hr hmem) m) (Prod.eta _).symm
  obtain ⟨new, hgrows, -⟩ := hc.grows hb ha
  exact hgrows.places k

/-- **Every request that fails breaks down**, whatever is under construction. -/
theorem exists_breakdown (hb : w.book.Keyed) (ha : w.book.Acyclic) {stack : List TypeKey}
    {wanted : TypeRef} (hs : w.book.IsStack stack) (hn : w.book.IsNext stack wanted.key)
    {m m' : Moment σ V} {halt : Halt}
    (h : (w.serveAt stack wanted).runFrom m = (.error halt, m')) :
    ∃ path cause, Breakdown w stack wanted m path cause halt m' := by
  induction hs using Book.IsStack.induction ha generalizing wanted m m' halt with
  | step stack hs ih =>
      have hle := hs.length_le ha
      cases hr : w.book.recipe? wanted.key with
      | none =>
          rw [serveAt_of_none hle hr, Request.runFrom_fail] at h
          obtain ⟨rfl, rfl⟩ : .failed (.missing wanted.name) = halt ∧ m = m' := by
            simpa using h
          exact ⟨_, _, .unknown hr⟩
      | some r =>
          cases hsource : r.source with
          | given product =>
              rw [serveAt_of_given hle hr hsource] at h
              cases congrArg Prod.fst h
          | factory make =>
              have hpush := hs.push (Book.produces_iff.2 ⟨r, hr⟩) hn
              obtain ⟨hempty, m₁, hinner, rfl⟩ := exists_of_serveAt_eq_error hle hr hsource
                (contains_attempt hb ha hs hn hr make m wanted.key) h
              exact exists_breakdown_of_attempt hr hsource hempty
                (fun p hmem m m' halt => ih wanted.key hpush (Book.isNext_parameter hr hmem))
                hinner

/-! ### Unfinished constructions -/

/-- A request below the construction of a type fills places of types only that this type
leads to. -/
lemma grows_below (hb : w.book.Keyed) (ha : w.book.Acyclic) {stack : List TypeKey}
    {wanted : TypeRef} (hs : w.book.IsStack stack) (hn : w.book.IsNext stack wanted.key)
    {r : Recipe σ V} (hr : w.book.recipe? wanted.key = some r) {p : Parameter}
    (hp : p ∈ r.parameters) (m : Moment σ V) :
    ∃ new, w.Grows (TransGen w.book.DependsOn wanted.key) new m
      ((w.serveAt (wanted.key :: stack) (.of p.need.key)).runFrom m).2 := by
  have hpush := hs.push (Book.produces_iff.2 ⟨r, hr⟩) hn
  obtain ⟨new, hgrows, -⟩ :=
    (course_serveAt ha hpush (Book.isNext_parameter hr hp) m).grows hb ha
  exact ⟨new, hgrows.mono fun k hk => hk.of_parameter hr hp⟩

/-- Parameters fill places of a kind if the requests for them do. -/
lemma grows_resolveAll {within : TypeKey → Prop} {stack : List TypeKey}
    {ps : List Parameter}
    (hserve : ∀ p ∈ ps, ∀ m, ∃ new, w.Grows within new m
      ((w.serveAt stack (.of p.need.key)).runFrom m).2) (m : Moment σ V) :
    ∃ new, w.Grows within new m
      ((resolveAll w.book.produces (w.fetch stack) ps).runFrom m).2 := by
  induction ps generalizing m with
  | nil => exact ⟨[], .refl _ _⟩
  | cons p rest ih =>
      obtain ⟨before, hbefore⟩ : ∃ new, w.Grows within new m
          ((p.need.resolve w.book.produces (w.fetch stack)).runFrom m).2 := by
        cases hskips : w.Skips p with
        | true =>
            rw [Need.runFrom_resolve_of_not p.need hskips]
            exact ⟨[], .refl _ _⟩
        | false =>
            rw [runFrom_resolve_fetch hskips]
            exact hserve p (List.mem_cons_self ..) m
      rw [runFrom_resolveAll_cons]
      rcases hp : (p.need.resolve w.book.produces (w.fetch stack)).runFrom m with
        ⟨halt | first, m₁⟩
      · rw [hp] at hbefore
        exact ⟨before, hbefore⟩
      · rw [hp] at hbefore
        obtain ⟨after, hafter⟩ := ih (fun q hq => hserve q (List.mem_cons_of_mem p hq)) m₁
        refine ⟨before ++ after, hbefore.trans ?_⟩
        dsimp only
        rcases hr : (resolveAll w.book.produces (w.fetch stack) rest).runFrom m₁ with
          ⟨halt | others, m₂⟩ <;> simpa only [hr] using hafter

/-- The place of a type whose construction is in progress stays empty while parameters of
its factory are resolved. -/
lemma product?_of_resolved (hb : w.book.Keyed) (ha : w.book.Acyclic)
    {stack : List TypeKey} {wanted : TypeRef} (hs : w.book.IsStack stack)
    (hn : w.book.IsNext stack wanted.key) {r : Recipe σ V}
    (hr : w.book.recipe? wanted.key = some r) {ps : List Parameter}
    (hps : ∀ p ∈ ps, p ∈ r.parameters) {m m₁ : Moment σ V}
    {answer : Except Halt (List (Argument V))}
    (hempty : m.shelf.product? wanted.key = none)
    (hresolved : (resolveAll w.book.produces (w.fetch (wanted.key :: stack)) ps).runFrom
      (m.record (.began (wanted.key :: stack))) = (answer, m₁)) :
    m₁.shelf.product? wanted.key = none := by
  obtain ⟨new, hgrows⟩ := grows_resolveAll
    (fun p hp => grows_below hb ha hs hn hr (hps p hp))
    (m.record (.began (wanted.key :: stack)))
  rw [hresolved] at hgrows
  exact hgrows.eq_none hempty (ha wanted.key)

lemma product?_of_served (hb : w.book.Keyed) (ha : w.book.Acyclic)
    {stack : List TypeKey} {wanted : TypeRef} (hs : w.book.IsStack stack)
    (hn : w.book.IsNext stack wanted.key) {r : Recipe σ V}
    (hr : w.book.recipe? wanted.key = some r) {p : Parameter} (hp : p ∈ r.parameters)
    {m m₁ : Moment σ V} {answer : Except Halt (Instance V)}
    (hempty : m.shelf.product? wanted.key = none)
    (hserved : (w.serveAt (wanted.key :: stack) (.of p.need.key)).runFrom m = (answer, m₁)) :
    m₁.shelf.product? wanted.key = none := by
  obtain ⟨new, hgrows⟩ := grows_below hb ha hs hn hr hp m
  rw [hserved] at hgrows
  exact hgrows.eq_none hempty (ha wanted.key)

/-- **The places of all types whose construction is in progress stay empty** when a request
fails. -/
theorem Breakdown.unfinished (hb : w.book.Keyed) (ha : w.book.Acyclic)
    {stack : List TypeKey} {wanted : TypeRef} {m m' : Moment σ V} {path : List TypeKey}
    {cause : Cause σ V} {halt : Halt}
    (h : Breakdown w stack wanted m path cause halt m') (hs : w.book.IsStack stack)
    (hn : w.book.IsNext stack wanted.key) :
    ∀ k ∈ path, m'.shelf.product? k = none := by
  induction h with
  | unknown absent => exact fun k hk => by cases hk
  | @factory stack wanted m m₁ m₂ r make arguments halt found source empty resolved ended =>
      intro k hk
      obtain rfl := List.mem_singleton.1 hk
      rw [runFrom_call] at ended
      obtain ⟨-, rfl⟩ := Prod.mk.inj ended
      have hempty := product?_of_resolved hb ha hs hn found (fun p hp => hp) empty resolved
      rw [Moment.product?_abandoned]
      exact hempty
  | @unfit stack wanted m m₁ m₂ r make arguments before after p product failure found source
      empty parameters resolved asks served refused =>
      intro k hk
      obtain rfl := List.mem_singleton.1 hk
      have hempty := product?_of_resolved hb ha hs hn found
        (fun q hq => parameters ▸ List.mem_append_left _ hq) empty resolved
      rw [Moment.product?_abandoned]
      exact product?_of_served hb ha hs hn found (by simp [parameters]) hempty served
  | @deeper stack wanted m m₁ m₂ r make arguments before after p path cause halt found source
      empty parameters resolved asks served breaks ih =>
      intro k hk
      have hp : p ∈ r.parameters := by simp [parameters]
      rw [Moment.product?_abandoned]
      rcases List.mem_cons.1 hk with rfl | hk
      · have hempty := product?_of_resolved hb ha hs hn found
          (fun q hq => parameters ▸ List.mem_append_left _ hq) empty resolved
        exact product?_of_served hb ha hs hn found hp hempty served
      · exact ih (hs.push (Book.produces_iff.2 ⟨r, found⟩) hn)
          (Book.isNext_parameter found hp) k hk

end Workshop

end Wiring
