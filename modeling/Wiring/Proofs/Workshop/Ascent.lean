/-
How a failure comes up to those who asked.

* `failures`: the failed constructions that a workshop reports during some events;
  `Workshop.Course.failures_eq`: a request that is served reports none;
* `Workshop.Rung`: a request on the way of a failure; `Workshop.Sends`, `Workshop.Raises`: how
  it ends because of another one that was made for it, and how a failure arises;
* `Workshop.Ascends`: the way of a failure, from the rung that it arises at up to the first;
  `Workshop.Breakdown.ascends`: every breakdown that is a failure goes this way;
* `Workshop.Reached.ascent`: **every request for a type with a recipe that ends without an answer,
  and not by a panic, fails like this**: the failure is answered and reported at every step of
  the way, unchanged, and no factory is called above the place where it arises.
-/
import Wiring.Proofs.Workshop.Optional
import Wiring.Proofs.Workshop.Renewal

namespace Wiring

variable {σ V : Type}

/-! ### Reports of failures -/

/-- The failed construction that the workshop itself reports. What a factory reports while it is
called is no part of this. -/
def Event.failure? : Event V → Option (String × Failure)
  | .noted (.constructionFailed name failure) => some (name, failure)
  | _ => none

/-- The failed constructions that the workshop itself reports during some events: the names under
which they are shown, and the failures. -/
def failures (events : List (Event V)) : List (String × Failure) := events.filterMap Event.failure?

@[simp] lemma failures_append (before after : List (Event V)) :
    failures (before ++ after) = failures before ++ failures after :=
  List.filterMap_append

@[simp] lemma failures_called (serial : ℕ) (key : TypeKey) (arguments : List (Argument V))
    (call : Call (Value V)) : failures [.called serial key arguments call] = [] := rfl

namespace Moment

variable (m : Moment σ V)

@[simp] lemma failures_record_began (stack : List TypeKey) :
    failures (m.record (.began stack)).trace = failures m.trace := by
  rw [record, failures_append]
  exact List.append_nil _

/-- A product that is put in its place is reported as made. -/
lemma failures_released_ok (wanted : TypeRef) (product : Instance V) :
    failures (m.released wanted (.ok product)).trace = failures m.trace := by
  simp [released, store, record, failures, Event.failure?]

/-- An attempt that is abandoned because of a failure reports it. -/
lemma trace_abandoned (wanted : TypeRef) (failure : Failure) :
    (m.abandoned wanted (.failed failure)).trace =
      m.trace ++ [.noted (.constructionFailed wanted.name failure)] := rfl

lemma failures_abandoned (wanted : TypeRef) (failure : Failure) :
    failures (m.abandoned wanted (.failed failure)).trace =
      failures m.trace ++ [(wanted.name, failure)] := by
  rw [trace_abandoned, failures_append]
  rfl

lemma prefix_abandoned (wanted : TypeRef) (failure : Failure) :
    m.trace <+: (m.abandoned wanted (.failed failure)).trace :=
  List.prefix_append _ _

end Moment

namespace Workshop

variable {w : Workshop σ V} {m m' : Moment σ V}

lemma callsOf_abandoned (key : TypeKey) (m : Moment σ V) (wanted : TypeRef) (halt : Halt) :
    callsOf key (m.abandoned wanted halt).trace = callsOf key m.trace := by
  rw [Moment.abandoned, callsOf_released, callsOf_reported]

/-- **What is served, or made, reports no failure.** -/
theorem Course.failures_eq {stack : List TypeKey} {task : Task σ V}
    {answer : Except Halt (Instance V)} (hc : Course w stack task m answer m')
    {product : Instance V} (hanswer : answer = .ok product) :
    failures m'.trace = failures m.trace := by
  induction hc generalizing product with
  | missing absent => rfl
  | given found source => rfl
  | shelved found source there => rfl
  | @passed stack wanted m m' r make answer found source placeless built ih =>
      subst hanswer
      exact (ih rfl).trans (m.failures_record_began _)
  | @kept stack wanted m m' r make answer found source placed empty built ih =>
      subst hanswer
      exact (m'.failures_released_ok wanted product).trans
        ((ih rfl).trans (m.failures_record_began _))
  | called ended =>
      rw [runFrom_call] at ended
      obtain ⟨-, rfl⟩ := Prod.mk.inj ended
      dsimp only
      rw [failures_append, failures_called, List.append_nil]
  | skipped skips others ih => exact ih hanswer
  | supplied asks served fits others ihs iho =>
      obtain ⟨product, hproduct, -⟩ := Need.exists_of_receive_eq_ok fits
      exact (iho hanswer).trans (ihs hproduct)
  | stopped asks served unfit ih => cases hanswer

/-! ### While nothing fails -/

/-- From the moment `m` to the moment `n` no failure is reported, and the factory of `key` is not
called. -/
structure Calm (key : TypeKey) (m n : Moment σ V) : Prop where
  trace : m.trace <+: n.trace
  failures : failures n.trace = failures m.trace
  calls : callsOf key n.trace = callsOf key m.trace

section Calm

variable {stack : List TypeKey} {wanted : TypeRef} {r : Recipe σ V}

lemma Calm.trans {key : TypeKey} {m₁ : Moment σ V} (h : Calm key m m₁) (h' : Calm key m₁ m') :
    Calm key m m' where
  trace := h.trace.trans h'.trace
  failures := h'.failures.trans h.failures
  calls := h'.calls.trans h.calls

/-- A request for a parameter of a recipe calls no factory of the recipe's own type. -/
lemma callsOf_parameter (hb : w.book.Keyed) (ha : w.book.Acyclic)
    (hs : w.book.IsStack (wanted.key :: stack)) (hr : w.book.recipe? wanted.key = some r)
    {p : Parameter} (hp : p ∈ r.parameters) (m : Moment σ V) :
    callsOf wanted.key ((w.serveAt (wanted.key :: stack) (.of p.need.key)).runFrom m).2.trace =
      callsOf wanted.key m.trace :=
  (course_serveAt ha hs (Book.isNext_parameter hr hp) m).callsOf_eq hb
    (not_reaches_of_parameter ha hr hp)

/-- While a parameter of a recipe is served, it is calm about the recipe's type. -/
lemma calm_served (hb : w.book.Keyed) (ha : w.book.Acyclic)
    (hs : w.book.IsStack (wanted.key :: stack)) (hr : w.book.recipe? wanted.key = some r)
    {p : Parameter} (hp : p ∈ r.parameters) {product : Instance V}
    (h : (w.serveAt (wanted.key :: stack) (.of p.need.key)).runFrom m = (.ok product, m')) :
    Calm wanted.key m m' := by
  have hcourse := course_serveAt ha hs (Book.isNext_parameter hr hp) m
  have hcalls := callsOf_parameter hb ha hs hr hp m
  rw [h] at hcourse hcalls
  obtain ⟨new, hgrows, -⟩ := hcourse.grows hb ha
  exact ⟨⟨new, hgrows.trace.symm⟩, hcourse.failures_eq rfl, hcalls⟩

/-- As long as the parameters of a recipe are resolved, it is calm about the recipe's type. -/
lemma calm_resolved (hb : w.book.Keyed) (ha : w.book.Acyclic)
    (hs : w.book.IsStack (wanted.key :: stack)) (hr : w.book.recipe? wanted.key = some r)
    {ps : List Parameter} (hps : ∀ p ∈ ps, p ∈ r.parameters) {arguments : List (Argument V)}
    (h : (resolveAll w.book.produces (w.fetch (wanted.key :: stack)) ps).runFrom
      (m.record (.began (wanted.key :: stack))) = (.ok arguments, m')) :
    Calm wanted.key m m' :=
  keeps_resolveAll (fun p hp _ _ _ hcalm hserved =>
      hcalm.trans (calm_served hb ha hs hr (hps p hp) hserved))
    ⟨List.prefix_append _ _, m.failures_record_began _, callsOf_record_began ..⟩ h

end Calm

/-! ### The way of a failure -/

/-- A request on the way of a failure, one of the rungs that it goes up. -/
structure Rung (σ V : Type) where
  /-- The type that is requested. -/
  wanted : TypeRef
  /-- The types under construction when it is made, the innermost first. -/
  stack : List TypeKey
  /-- The moment when it is made. -/
  start : Moment σ V
  /-- The moment after it. -/
  stop : Moment σ V

/-- The upper request begins a construction, and the lower one is made for a parameter of its
factory, when those before it are resolved. The failure of the lower request ends the upper one:
it is reported for it, and nothing else happens. -/
inductive Sends (w : Workshop σ V) (failure : Failure) : Rung σ V → Rung σ V → Prop
  | parameter {upper lower : Rung σ V} {r : Recipe σ V} {make : Factory σ V (Value V)}
      {arguments : List (Argument V)} {before after : List Parameter} {p : Parameter}
      (found : w.book.recipe? upper.wanted.key = some r) (source : r.source = .factory make)
      (parameters : r.parameters = before ++ p :: after)
      (stack : lower.stack = upper.wanted.key :: upper.stack)
      (wanted : lower.wanted = .of p.need.key)
      (resolved : (resolveAll w.book.produces (w.fetch lower.stack) before).runFrom
        (upper.start.record (.began lower.stack)) = (.ok arguments, lower.start))
      (abandoned : upper.stop = lower.stop.abandoned upper.wanted (.failed failure)) :
      Sends w failure upper lower

/-- A failure arises at a rung: the factory gives up when all parameters are resolved, or a
parameter needs a configuration value that the holder does not have. -/
inductive Raises (w : Workshop σ V) : Failure → Rung σ V → Prop
  | factory {e : Rung σ V} {r : Recipe σ V} {make : Factory σ V (Value V)}
      {arguments : List (Argument V)} {m : Moment σ V} {cause : String}
      (found : w.book.recipe? e.wanted.key = some r) (source : r.source = .factory make)
      (resolved : (resolveAll w.book.produces (w.fetch (e.wanted.key :: e.stack))
        r.parameters).runFrom (e.start.record (.began (e.wanted.key :: e.stack))) =
          (.ok arguments, m))
      (gaveUp : (make arguments m.world).1.outcome = .failed cause) :
      Raises w (.factoryFailed e.wanted.key.name cause) e
  | setting {e : Rung σ V} {r : Recipe σ V} {make : Factory σ V (Value V)}
      {arguments : List (Argument V)} {before after : List Parameter} {p : Parameter}
      {m m' : Moment σ V} {index : ℕ} {holder : Instance V} {held : Settings V}
      (found : w.book.recipe? e.wanted.key = some r) (source : r.source = .factory make)
      (parameters : r.parameters = before ++ p :: after) (need : p.need = .setting index)
      (resolved : (resolveAll w.book.produces (w.fetch (e.wanted.key :: e.stack))
        before).runFrom (e.start.record (.began (e.wanted.key :: e.stack))) =
          (.ok arguments, m))
      (served : (w.serveAt (e.wanted.key :: e.stack) (.of .settings)).runFrom m =
        (.ok holder, m'))
      (value : holder.value = .settings held) (lacks : held.contains index = false) :
      Raises w (.missing (TypeKey.product index).name) e

/-- The report that the construction begun at a rung failed. -/
def Rung.report (e : Rung σ V) (failure : Failure) : String × Failure :=
  (e.wanted.name, failure)

/-- The way of a failure up to the rung `first`, from the last one of `below` on. -/
structure Ascends (w : Workshop σ V) (failure : Failure) (first : Rung σ V)
    (below : List (Rung σ V)) : Prop where
  sends : (first :: below).IsChain (w.Sends failure)
  /-- Each type declares the next one as a dependency. -/
  linked : ((first :: below).map fun e => e.wanted.key).IsChain w.book.DependsOn
  factories : ∀ e ∈ first :: below, ∃ r make,
    w.book.recipe? e.wanted.key = some r ∧ r.source = .factory make
  /-- All requests end in one and the same failure. -/
  answered : ∀ e ∈ first :: below,
    (w.serveAt e.stack e.wanted).runFrom e.start = (.error (.failed failure), e.stop)
  raised : w.Raises failure ((first :: below).getLast (List.cons_ne_nil first below))
  /-- Above the last rung no factory is called for the construction that a request begins. -/
  uncalled : ∀ e ∈ (first :: below).dropLast,
    callsOf e.wanted.key e.stop.trace = callsOf e.wanted.key e.start.trace
  trace : first.start.trace <+: first.stop.trace
  /-- The failure is reported once for each rung, for the last one first. -/
  reported : failures first.stop.trace = failures first.start.trace ++
    ((first :: below).map fun e => e.report failure).reverse

variable {failure : Failure}

/-- A failure is reported at the rung that it arises at. -/
lemma Raises.ascends {e : Rung σ V} (h : w.Raises failure e)
    (hanswered : (w.serveAt e.stack e.wanted).runFrom e.start = (.error (.failed failure), e.stop))
    {n : Moment σ V} (htrace : e.start.trace <+: n.trace)
    (hfailures : failures n.trace = failures e.start.trace)
    (hstop : e.stop = n.abandoned e.wanted (.failed failure)) : w.Ascends failure e [] where
  sends := List.isChain_singleton e
  linked := List.isChain_singleton _
  factories := by
    rw [List.forall_mem_singleton]
    cases h with
    | factory found source => exact ⟨_, _, found, source⟩
    | setting found source => exact ⟨_, _, found, source⟩
  answered := by rwa [List.forall_mem_singleton]
  raised := h
  uncalled _ he := by cases he
  trace := by
    rw [hstop]
    exact htrace.trans (n.prefix_abandoned ..)
  reported := by
    rw [hstop, Moment.failures_abandoned, hfailures]
    rfl

/-- A failure goes up from rung to rung. -/
lemma Ascends.cons (hb : w.book.Keyed) (ha : w.book.Acyclic) {upper lower : Rung σ V}
    {below : List (Rung σ V)} (h : w.Ascends failure lower below)
    (hsends : w.Sends failure upper lower) (hs : w.book.IsStack lower.stack)
    (hanswered : (w.serveAt upper.stack upper.wanted).runFrom upper.start =
      (.error (.failed failure), upper.stop)) :
    w.Ascends failure upper (lower :: below) := by
  obtain @⟨r, make, arguments, before, after, p, found, source, parameters, stack, wanted,
    resolved, abandoned⟩ := hsends
  have hp : p ∈ r.parameters := by simp [parameters]
  rw [stack] at hs resolved
  have hcalm : Calm upper.wanted.key upper.start lower.start :=
    calm_resolved hb ha hs found (fun q hq => parameters ▸ List.mem_append_left _ hq) resolved
  have hdepends : w.book.DependsOn upper.wanted.key lower.wanted.key := by
    obtain ⟨q, -, hq, -⟩ := h.factories lower (List.mem_cons_self ..)
    rw [wanted] at hq ⊢
    exact Book.dependsOn_of_parameter found hp (Book.produces_iff.2 ⟨q, hq⟩)
  -- the lower request does not lead back to the type that it is made for
  have hcalls : callsOf upper.wanted.key upper.stop.trace =
      callsOf upper.wanted.key upper.start.trace := by
    have hbelow := callsOf_parameter hb ha hs found hp lower.start
    have hlower := h.answered lower (List.mem_cons_self ..)
    rw [stack, wanted] at hlower
    rw [hlower] at hbelow
    rw [abandoned, callsOf_abandoned, hbelow, hcalm.calls]
  refine ⟨?_, ?_, List.forall_mem_cons.2 ⟨⟨r, make, found, source⟩, h.factories⟩,
    List.forall_mem_cons.2 ⟨hanswered, h.answered⟩, ?_,
    List.forall_mem_cons.2 ⟨hcalls, h.uncalled⟩, ?_, ?_⟩
  · refine List.isChain_cons_cons.2 ⟨?_, h.sends⟩
    exact .parameter found source parameters stack wanted (stack ▸ resolved) abandoned
  · exact List.isChain_cons_cons.2 ⟨hdepends, h.linked⟩
  · rw [List.getLast_cons_cons]
    exact h.raised
  · rw [abandoned]
    exact (hcalm.trace.trans h.trace).trans (lower.stop.prefix_abandoned ..)
  · rw [abandoned, Moment.failures_abandoned, h.reported, hcalm.failures]
    simp only [List.map_cons, List.reverse_cons, List.append_assoc]
    rfl

section Breakdown

variable {stack : List TypeKey} {wanted : TypeRef} {path : List TypeKey} {cause : Cause σ V}
  {halt : Halt} (hb : w.book.Keyed) (hc : w.book.Complete)
  (hw : ∀ key r, w.book.recipe? key = some r → r.WellTyped)
  (hp : ∀ key r, w.book.recipe? key = some r → r.Proper)

include hb hc hw hp

/-- **A breakdown that is a failure goes its way up** from the rung that it arises at. -/
theorem Breakdown.ascends (h : Breakdown w stack wanted m path cause halt m')
    (hpasses : w.Passes stack wanted m) (hproduces : w.book.produces wanted.key)
    (hanswered : (w.serveAt stack wanted).runFrom m = (.error halt, m'))
    (hhalt : halt = .failed failure) :
    ∃ below, w.Ascends failure ⟨wanted, stack, m, m'⟩ below := by
  have ha := hc.acyclic
  induction h with
  | unknown absent =>
      obtain ⟨r, hr⟩ := Book.produces_iff.1 hproduces
      rw [absent] at hr
      cases hr
  | @factory stack wanted m m₁ m₂ r make arguments halt found source empty resolved ended =>
      subst hhalt
      obtain ⟨hs, hn⟩ := hpasses.isStack
      have hcalm := calm_resolved hb ha (hs.push hproduces hn) found (fun _ => id) resolved
      have hkey : r.type.name = wanted.key.name := by
        rw [(hw _ _ found).1, hb.key_of_recipe? found]
        rfl
      rw [runFrom_call] at ended
      obtain ⟨hgaveUp, rfl⟩ := Prod.mk.inj ended
      obtain ⟨text, houtcome, rfl⟩ : ∃ text, (make arguments m₁.world).1.outcome = .failed text ∧
          failure = .factoryFailed wanted.key.name text := by
        rcases ho : (make arguments m₁.world).1.outcome with value | text | text <;>
          rw [ho] at hgaveUp <;> cases hgaveUp
        exact ⟨text, rfl, by rw [hkey]⟩
      have hraises (stop : Moment σ V) :
          w.Raises (.factoryFailed wanted.key.name text) ⟨wanted, stack, m, stop⟩ :=
        .factory (e := ⟨wanted, stack, m, stop⟩) found source resolved houtcome
      refine ⟨[], (hraises _).ascends hanswered (hcalm.trace.trans (List.prefix_append _ _)) ?_ rfl⟩
      dsimp only
      rw [failures_append, failures_called, List.append_nil, hcalm.failures]
  | @unfit stack wanted m m₁ m₂ r make arguments before after p product failure' found source
      empty parameters resolved asks served refused =>
      obtain rfl : failure' = failure := by simpa using hhalt
      obtain ⟨hs, hn⟩ := hpasses.isStack
      have hpush := hs.push hproduces hn
      have hmem : p ∈ r.parameters := by simp [parameters]
      have hcalm := (calm_resolved hb ha hpush found
        (fun q hq => parameters ▸ List.mem_append_left _ hq) resolved).trans
          (calm_served hb ha hpush found hmem served)
      -- the product is of the right type and knows its values, so one of them is missing
      have hbelow : w.Passes (wanted.key :: stack) (.of p.need.key) m₁ :=
        hpasses.nested (.deeper found source empty parameters resolved asks .itself)
      have hkey : product.value.key = p.need.key :=
        hbelow.supplied hb ha (supplies_of_wellTyped hb hw) served
      have hproper : product.value.Proper :=
        hbelow.supplied hb ha (supplies_of_proper hp) served
      obtain ⟨name, rfl⟩ := Need.exists_missing_of_take hkey hproper refused
      obtain ⟨index, held, hneed, rfl, hvalue, hlacks⟩ := Need.take_eq_missing refused
      rw [hneed] at served
      have hraises (stop : Moment σ V) :
          w.Raises (.missing (TypeKey.product index).name) ⟨wanted, stack, m, stop⟩ :=
        .setting (e := ⟨wanted, stack, m, stop⟩) found source parameters hneed resolved served
          hvalue hlacks
      exact ⟨[], (hraises _).ascends hanswered hcalm.trace hcalm.failures rfl⟩
  | @deeper stack wanted m m₁ m₂ r make arguments before after p path cause halt found source
      empty parameters resolved asks served breaks ih =>
      subst hhalt
      obtain ⟨hs, hn⟩ := hpasses.isStack
      obtain ⟨below, hbelow⟩ :=
        ih (hpasses.nested (.deeper found source empty parameters resolved asks .itself))
          (produces_of_asks hb hc found (by simp [parameters]) asks) served rfl
      exact ⟨_, hbelow.cons hb ha (.parameter found source parameters rfl rfl resolved rfl)
        (hs.push hproduces hn) hanswered⟩

end Breakdown

/-- **Failures come up unchanged, and with their way.** At every moment that is reached, if a
request for a type with a recipe ends without an answer, but not by a panic, then it fails. The
failure arises at the last of a chain of requests, each of which is for a declared dependency
of the one before it: there the factory gives up, or a configuration value is missing. All of
them are answered with this very failure, and no factory is called for those above. What the
workshop reports as failed during the request is just this failure for each of them, for the last
one first, and for the first one under the name that it was requested by. -/
theorem Reached.ascent (h : w.Reached m)
    (hp : ∀ key r, w.book.recipe? key = some r → r.Proper) {wanted : TypeRef}
    (hproduces : w.book.produces wanted.key) {halt : Halt}
    (he : (w.getInstance wanted).runFrom m = (.error halt, m'))
    (hpanic : ∀ text, halt ≠ .panicked text) :
    ∃ failure below, halt = .failed failure ∧ w.Ascends failure ⟨wanted, [], m, m'⟩ below := by
  cases halt with
  | failed failure =>
      obtain ⟨path, cause, hbreaks⟩ := h.exists_breakdown he
      obtain ⟨below, hascends⟩ := hbreaks.ascends h.keyed h.complete
        (fun _ _ => h.wellTyped) hp (h.rests.passes wanted) hproduces he rfl
      exact ⟨failure, below, rfl, hascends⟩
  | panicked text => exact absurd rfl (hpanic text)
  | tooDeep =>
      have hcourse := (h.course wanted m).ne_tooDeep
      rw [← getInstance_eq, he] at hcourse
      exact absurd rfl hcourse

/-- A workshop with a type that needs another one optionally, which needs a third one, under
another name. The factory of the third type has the given parameters, and gives up. There is a
fourth type, which the first one needs before the second, and a holder without any configuration
values. -/
def ladder (parameters : List Parameter) : Workshop Unit Unit where
  serial := 0
  book := .of ⟨"ladder",
    [.ofFactory 0 .transient (.product 0)
        [⟨.shared (.product 3), none⟩, ⟨.optional (.shared (.product 1)), none⟩]
        fun _ world => (⟨.made (), []⟩, world),
      .ofFactory 1 .transient (.product 1) [⟨.shared (.product 2), some "step"⟩]
        fun _ world => (⟨.made (), []⟩, world),
      .ofFactory 2 .retained (.product 2) parameters
        fun _ world => (⟨.failed "rotten", []⟩, world),
      .ofFactory 3 .retained (.product 3) [] fun _ world => (⟨.made (), []⟩, world),
      .ofValue 4 .settings (.given 0) .empty]⟩ []

/-- The moment after the opening of the ladder. -/
def ladderStart (parameters : List Parameter) : Moment Unit Unit :=
  ((ladder parameters).opening.runIn ()).2

lemma opened_ladder (parameters : List Parameter)
    (h : (ladder parameters).opening.runIn () = (.ok (), ladderStart parameters)) :
    (ladder parameters).Opened (ladderStart parameters) := by
  refine ⟨⟨_, _, rfl, ?_⟩, (), [], h⟩
  simp only [List.forall_mem_cons, List.not_mem_nil, false_imp_iff, implies_true, and_true]
  exact ⟨Recipe.wellTyped_ofFactory .., Recipe.wellTyped_ofFactory ..,
    Recipe.wellTyped_ofFactory .., Recipe.wellTyped_ofFactory .., Recipe.wellTyped_ofValue ..⟩

lemma proper_ladder {parameters : List Parameter} {key : TypeKey} {r : Recipe Unit Unit}
    (hr : (ladder parameters).book.recipe? key = some r) : r.Proper := by
  have hmem := Book.mem_of_recipe?_of hr
  simp only [List.mem_cons, List.not_mem_nil, or_false] at hmem
  rcases hmem with rfl | rfl | rfl | rfl | rfl
  · exact Recipe.proper_ofFactory 0 .transient _ fun _ _ _ _ => trivial
  · exact Recipe.proper_ofFactory 1 .transient _ fun _ _ _ _ => trivial
  · exact Recipe.proper_ofFactory 2 .retained parameters fun _ _ _ _ => trivial
  · exact Recipe.proper_ofFactory 3 .retained [] fun _ _ _ _ => trivial
  · exact Recipe.proper_ofValue 4 (.given 0) ⟨[], rfl⟩

/-- The third type of the ladder is requested on behalf of the first one, which is asked for under
another name. A configuration value is missing, or the factory gives up; in both cases three
failures are reported. -/
theorem ascent_ladder :
    (∃ m', ((ladder [needsSetting]).getInstance ⟨"attic", .product 0⟩).runFrom
        (ladderStart [needsSetting]) =
          (.error (.failed (.missing (TypeKey.product 7).name)), m') ∧
      failures m'.trace =
        [((TypeKey.product 2).name, .missing (TypeKey.product 7).name),
          ((TypeKey.product 1).name, .missing (TypeKey.product 7).name),
          ("attic", .missing (TypeKey.product 7).name)] ∧
      ∃ failure below,
        Halt.failed (.missing (TypeKey.product 7).name) = .failed failure ∧
        (ladder [needsSetting]).Ascends failure
          ⟨⟨"attic", .product 0⟩, [], ladderStart [needsSetting], m'⟩ below) ∧
    ∃ m', ((ladder []).getInstance ⟨"attic", .product 0⟩).runFrom (ladderStart []) =
        (.error (.failed (.factoryFailed (TypeKey.product 2).name "rotten")), m') ∧
      ∃ failure below,
        Halt.failed (.factoryFailed (TypeKey.product 2).name "rotten") = .failed failure ∧
        (ladder []).Ascends failure ⟨⟨"attic", .product 0⟩, [], ladderStart [], m'⟩ below :=
  ⟨⟨_, rfl, rfl, Reached.ascent ((opened_ladder [needsSetting] rfl).reached [])
      (fun _ _ => proper_ladder) rfl rfl nofun⟩,
    ⟨_, rfl, Reached.ascent ((opened_ladder [] rfl).reached []) (fun _ _ => proper_ladder) rfl rfl
      nofun⟩⟩

end Workshop

end Wiring
