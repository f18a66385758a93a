/-
A workshop answers what plain evaluation of its book gives.

* `Need.receive_ingredient`: a parameter makes the same of a product as of its content;
* `Workshop.Faithful`: the products on the shelf have the contents that evaluation gives;
* `Workshop.Task.content`: the content of what a part of a request is to answer;
  `Workshop.Course.content`: **every course of a request that starts with a faithful shelf
  answers this content and leaves a faithful shelf**;
* `Workshop.Reached.get_content`: **at every moment a get answers, up to identities, what
  evaluation without a shelf gives**.
-/
import Wiring.Proofs.Meaning.Rebuild
import Wiring.Proofs.Workshop.Growth

namespace Wiring

variable {σ V C : Type} {view : V → C}

/-! ### Parameters -/

namespace Need

/-- A value that is found in a holder is of the type it was looked up for. -/
lemma index_of_find {held : Settings V} {index : ℕ} {s : Setting V}
    (h : held.find index = .ok (some s)) : s.index = index := by
  rw [Settings.find] at h
  split at h
  · cases h
  · split at h
    · rename_i hindex
      obtain rfl := Option.some.inj (Except.ok.inj h)
      exact hindex
    · cases h

/-- What is found in a holder of configuration values, apart from identities. -/
lemma settingOf_content (view : V → C) {holder : Instance V}
    (h : holder.value.key = .settings) (index : ℕ) :
    (settingOf holder index).map (Option.map fun s => Ingredient.setting s.index (view s.content))
      = ((holder.value.content view).setting? index).map (Option.map (.setting index)) := by
  obtain ⟨type, origin, value⟩ := holder
  cases value with
  | product index' content => cases h
  | settings held =>
      simp only [settingOf, Value.content, Content.setting?]
      rcases hfind : held.find index with e | _ | s
      · rfl
      · rfl
      · simp [Except.map, Except.mapError, index_of_find hfind]

lemma acceptOptional_ingredient {need : Need} {product : Instance V}
    (h : product.value.key = need.key) :
    (need.acceptOptional product).map (Option.map (Argument.ingredient view)) =
      need.readOptional (product.value.content view) := by
  induction need with
  | shared key => rfl
  | setting index =>
      rw [readOptional, ← settingOf_content view h, acceptOptional]
      rcases settingOf product index with failure | _ | s <;> rfl
  | optional inner ih =>
      rw [readOptional, ← ih h, acceptOptional]
      rcases inner.acceptOptional product with failure | _ | a <;> rfl

/-- A need accepts the same of a product as it reads of its content. -/
lemma accept_ingredient {need : Need} {product : Instance V}
    (h : product.value.key = need.key) :
    (need.accept product).map (Argument.ingredient view) =
      need.read (product.value.content view) := by
  cases need with
  | shared key => rfl
  | setting index =>
      have hsetting := settingOf_content view h index
      rw [accept, read]
      rcases hs : settingOf product index with failure | _ | s <;>
        rcases hc : (product.value.content view).setting? index with failure' | _ | made <;>
        rw [hs, hc] at hsetting <;> simp_all [Except.map, Argument.ingredient]
  | optional inner =>
      have hinner : product.value.key = inner.key := h
      rw [read, ← acceptOptional_ingredient hinner, accept]
      rcases inner.acceptOptional product with failure | _ | a <;> rfl

/-- A need receives the same from a request as it reads of the content that is answered. -/
lemma receive_ingredient {need : Need} {given : Except Halt (Instance V)}
    (h : ∀ product, given = .ok product → product.value.key = need.key) :
    (need.receive given).map (Argument.ingredient view) =
      given.map (fun product => product.value.content view) >>= fun c =>
        (need.read c).mapError .failed := by
  cases given with
  | error halt => rfl
  | ok product =>
      have hkey := h product rfl
      rw [receive, take_of_key hkey]
      change ((need.accept product).mapError Halt.failed).map (Argument.ingredient view) =
        (need.read (product.value.content view)).mapError .failed
      rw [← accept_ingredient hkey]
      cases need.accept product <;> rfl

end Need

namespace Workshop

variable {w : Workshop σ V} {laws : TypeKey → Law C} {m m' : Moment σ V}

/-! ### Requests -/

/-- The products on the shelf have the contents that evaluation gives. -/
def Faithful (w : Workshop σ V) (view : V → C) (laws : TypeKey → Law C) (m : Moment σ V) : Prop :=
  ∀ k i, m.shelf.product? k = some i → w.book.content view laws k = .ok (i.value.content view)

/-- The content of what a task is to answer: that of a type with a recipe, or what the law of
a factory makes of the arguments that are there and of the rest. -/
def Task.content (w : Workshop σ V) (view : V → C) (laws : TypeKey → Law C) :
    Task σ V → Except Halt (Content C)
  | .serve wanted =>
    if w.book.produces wanted.key then w.book.content view laws wanted.key
    else .error (.failed (.missing wanted.name))
  | .build r _ ready rest =>
    rest.mapM (fun p => p.need.gather w.book.produces (w.book.content view laws)) >>=
      fun others => (laws r.key (ready.map (Argument.ingredient view) ++ others)).mapError
        fun cause => .failed (.factoryFailed r.type.name cause)

/-- The factory of a task obeys the law of its type. -/
def Task.Obedient (view : V → C) (laws : TypeKey → Law C) : Task σ V → Prop
  | .serve _ => True
  | .build r make _ _ => Obeys view make (laws r.key)

lemma Task.obedient_of_lawful (hb : w.book.Keyed) (hl : w.book.Lawful view laws)
    {key : TypeKey} {r : Recipe σ V} {make : Factory σ V (Value V)}
    (found : w.book.recipe? key = some r) (source : r.source = .factory make) :
    (Task.build r make [] r.parameters).Obedient view laws := by
  change Obeys view make (laws r.key)
  rw [hb.key_of_recipe? found]
  exact hl key r make found source

/-- A request under a type's own name is for the content of that type. -/
lemma Task.content_serve_of (ha : w.book.Acyclic) (key : TypeKey) :
    (Task.serve (.of key)).content w view laws = w.book.content view laws key := by
  change (if w.book.produces key then _ else _) = _
  split
  · rfl
  · rename_i hp
    rw [Book.content_eq ha, Book.produces_eq_false_iff.1 (Bool.eq_false_iff.2 hp)]
    rfl

/-- A request for a type with a factory is for what the factory makes of the parameters. -/
lemma Task.content_serve_of_factory (hb : w.book.Keyed) (ha : w.book.Acyclic)
    {wanted : TypeRef} {r : Recipe σ V} {make : Factory σ V (Value V)}
    (found : w.book.recipe? wanted.key = some r) (source : r.source = .factory make) :
    (Task.serve wanted).content w view laws =
      (Task.build r make [] r.parameters).content w view laws := by
  rw [Task.content, if_pos (Book.produces_iff.2 ⟨r, found⟩), Book.content_eq ha, found]
  dsimp only
  rw [source, Task.content, hb.key_of_recipe? found]
  rfl

/-- A parameter that receives something contributes it. -/
lemma Task.content_build_cons {r : Recipe σ V} {make : Factory σ V (Value V)}
    {ready : List (Argument V)} {p : Parameter} {rest : List Parameter} {a : Argument V}
    (h : p.need.gather w.book.produces (w.book.content view laws) =
      .ok (a.ingredient view)) :
    (Task.build r make ready (p :: rest)).content w view laws =
      (Task.build r make (ready ++ [a]) rest).content w view laws := by
  rw [Task.content, Task.content, List.mapM_cons, h, List.map_append]
  cases rest.mapM fun p => p.need.gather w.book.produces (w.book.content view laws) with
  | error halt => rfl
  | ok others =>
      change (laws r.key (ready.map (Argument.ingredient view) ++
        a.ingredient view :: others)).mapError _ = _
      rw [List.append_cons]
      rfl

/-- A parameter that is not left out receives what it makes of the content of its type. -/
lemma gather_of_asks (ha : w.book.Acyclic) {p : Parameter} (asks : w.Skips p = false)
    {given : Except Halt (Instance V)}
    (htyped : ∀ product, given = .ok product → product.value.key = p.need.key)
    (hgiven : given.map (fun product => product.value.content view) =
      (Task.serve (.of p.need.key)).content w view laws) :
    p.need.gather w.book.produces (w.book.content view laws) =
      (p.need.receive given).map (Argument.ingredient view) := by
  have hasks : ¬ (p.need.isOptional && !w.book.produces p.need.key) = true := by
    rw [Bool.not_eq_true]
    exact asks
  rw [Need.gather, if_neg hasks, Need.receive_ingredient htyped, hgiven,
    Task.content_serve_of ha]

/-- What a call answers has the content that the law of the factory gives. -/
lemma content_answerOf {r : Recipe σ V} {make : Factory σ V (Value V)}
    (hmake : Obeys view make (laws r.key)) (serial : ℕ) (arguments : List (Argument V))
    (world : σ) :
    (w.answerOf r serial (make arguments world).1.outcome).map
        (fun product => product.value.content view) =
      (laws r.key (arguments.map (Argument.ingredient view))).mapError fun cause =>
        .failed (.factoryFailed r.type.name cause) := by
  have houtcome := hmake arguments world
  rcases ho : (make arguments world).1.outcome with value | cause | text <;>
    rcases hlaw : laws r.key (arguments.map (Argument.ingredient view)) with cause' | c <;>
    rw [ho, hlaw] at houtcome <;> cases houtcome <;> rfl

/-- A product with the right content may be put on the shelf. -/
lemma Faithful.released (hm : w.Faithful view laws m) {wanted : TypeRef}
    {answer : Except Halt (Instance V)}
    (h : ∀ i, answer = .ok i →
      w.book.content view laws wanted.key = .ok (i.value.content view)) :
    w.Faithful view laws (m.released wanted answer) := by
  intro k i hi
  cases answer with
  | error halt => exact hm k i ((m.product?_released_error wanted halt k).symm.trans hi)
  | ok product =>
      by_cases hk : k = wanted.key
      · subst hk
        obtain rfl := Moment.eq_of_product?_store _ hi
        exact h i rfl
      · exact hm k i ((Moment.product?_store_of_ne _ hk product).symm.trans hi)

/-- **Every course answers the content of its task** and keeps the shelf faithful. -/
theorem Course.content (hb : w.book.Keyed) (ha : w.book.Acyclic)
    (hw : ∀ key r, w.book.recipe? key = some r → r.WellTyped)
    (hl : w.book.Lawful view laws) {stack : List TypeKey} {task : Task σ V}
    {answer : Except Halt (Instance V)} (hc : Course w stack task m answer m')
    (hs : task.Sound) (hobeys : task.Obedient view laws) (htyped : Typed m)
    (hm : w.Faithful view laws m) :
    answer.map (fun product => product.value.content view) = task.content w view laws ∧
      w.Faithful view laws m' := by
  induction hc with
  | @missing stack wanted m absent =>
      refine ⟨?_, hm⟩
      rw [Task.content, if_neg (by rw [Book.produces_eq_false_iff.2 absent]; simp)]
      rfl
  | @given stack wanted m r product found source =>
      refine ⟨?_, hm⟩
      rw [Task.content, if_pos (Book.produces_iff.2 ⟨r, found⟩), Book.content_eq ha, found]
      dsimp only
      rw [source]
      rfl
  | @shelved stack wanted m r make product found source there =>
      refine ⟨?_, hm⟩
      rw [Task.content, if_pos (Book.produces_iff.2 ⟨r, found⟩), hm _ _ there]
      rfl
  | @passed stack wanted m m' r make answer found source placeless built ih =>
      obtain ⟨hanswer, hm'⟩ :=
        ih (Task.sound_of_wellTyped (hw _ r found) source)
          (Task.obedient_of_lawful hb hl found source) htyped hm
      refine ⟨hanswer.trans (Task.content_serve_of_factory hb ha found source).symm, ?_⟩
      exact fun k i hi => hm' k i (by rwa [Moment.shelf_reported] at hi)
  | @kept stack wanted m m' r make answer found source placed empty built ih =>
      obtain ⟨hanswer, hm'⟩ :=
        ih (Task.sound_of_wellTyped (hw _ r found) source)
          (Task.obedient_of_lawful hb hl found source) htyped hm
      rw [← Task.content_serve_of_factory hb ha found source] at hanswer
      refine ⟨hanswer, Faithful.released
        (fun k i hi => hm' k i (by rwa [Moment.shelf_reported] at hi)) fun i hi => ?_⟩
      rw [Task.content, if_pos (Book.produces_iff.2 ⟨r, found⟩), hi] at hanswer
      exact hanswer.symm
  | @called stack r make ready m m' answer ended =>
      rw [runFrom_call] at ended
      obtain ⟨rfl, rfl⟩ := Prod.mk.inj ended
      refine ⟨?_, hm⟩
      rw [content_answerOf hobeys, Task.content, List.mapM_nil]
      change _ = (laws r.key (ready.map (Argument.ingredient view) ++ [])).mapError _
      rw [List.append_nil]
  | @skipped stack r make ready p rest m m' answer skips others ih =>
      obtain ⟨hanswer, hm'⟩ := ih hs hobeys htyped hm
      refine ⟨?_, hm'⟩
      rw [hanswer, Task.content_build_cons (a := .absent)]
      exact if_pos skips
  | @supplied stack r make ready p rest m m₁ m' given answer argument asks served fits others
      ihs iho =>
      obtain ⟨htyped₁, hkey⟩ := served.typed hb hw trivial htyped
      obtain ⟨hgiven, hm₁⟩ := ihs trivial trivial htyped hm
      obtain ⟨hanswer, hm'⟩ := iho hs hobeys htyped₁ hm₁
      refine ⟨?_, hm'⟩
      rw [hanswer, Task.content_build_cons (a := argument)]
      rw [gather_of_asks ha asks hkey hgiven, fits]
      rfl
  | @stopped stack r make ready p rest m m' given halt asks served unfit ih =>
      obtain ⟨-, hkey⟩ := served.typed hb hw trivial htyped
      obtain ⟨hgiven, hm'⟩ := ih trivial trivial htyped hm
      refine ⟨?_, hm'⟩
      have hgather := gather_of_asks ha asks hkey hgiven
      rw [unfit] at hgather
      rw [Task.content, List.mapM_cons, hgather]
      rfl

/-- A request to factories that obey laws ends in a product or in a failure, and in nothing
else. -/
lemma Course.exists_failed (hb : w.book.Keyed) (hl : w.book.Lawful view laws)
    {stack : List TypeKey} {task : Task σ V} {answer : Except Halt (Instance V)}
    (hc : Course w stack task m answer m') (hobeys : task.Obedient view laws) {halt : Halt}
    (he : answer = .error halt) : ∃ failure, halt = .failed failure := by
  induction hc with
  | missing absent => exact ⟨_, (Except.error.inj he).symm⟩
  | given found source => cases he
  | shelved found source there => cases he
  | passed found source placeless built ih =>
      exact ih (Task.obedient_of_lawful hb hl found source) he
  | kept found source placed empty built ih =>
      exact ih (Task.obedient_of_lawful hb hl found source) he
  | @called stack r make ready m m' answer ended =>
      rw [runFrom_call, he] at ended
      have hanswer := content_answerOf (w := w) hobeys m.calls ready m.world
      have hfails := congrArg Prod.fst ended
      dsimp only at hfails
      rw [hfails] at hanswer
      cases hlaw : laws r.key (ready.map (Argument.ingredient view)) with
      | error cause =>
          rw [hlaw] at hanswer
          exact ⟨_, Except.error.inj hanswer⟩
      | ok c =>
          rw [hlaw] at hanswer
          cases hanswer
  | skipped skips others ih => exact ih hobeys he
  | supplied asks served fits others ihs iho => exact iho hobeys he
  | @stopped stack r make ready p rest m m' given halt' asks served unfit ih =>
      obtain rfl := Except.error.inj he
      cases given with
      | error halt'' =>
          obtain rfl := Except.error.inj unfit
          exact ih trivial rfl
      | ok product =>
          rw [Need.receive] at unfit
          cases htake : p.need.take product with
          | error failure =>
              rw [htake] at unfit
              exact ⟨failure, (Except.error.inj unfit).symm⟩
          | ok a =>
              rw [htake] at unfit
              cases unfit

/-! ### All moments -/

lemma invariant_faithful (hb : w.book.Keyed) (ha : w.book.Acyclic)
    (hw : ∀ key r, w.book.recipe? key = some r → r.WellTyped)
    (hl : w.book.Lawful view laws) :
    w.Invariant fun m => Typed m ∧ w.Faithful view laws m where
  blank m hshelf hcalls htrace := by
    refine ⟨(invariant_typed hb hw).blank m hshelf hcalls htrace, fun k i hi => ?_⟩
    rw [hshelf, product?_emptyShelf hb] at hi
    cases hi
  noted m notice hm := hm
  served m wanted answer m' hm hc :=
    ⟨(hc.typed hb hw trivial hm.1).1, (hc.content hb ha hw hl trivial trivial hm.1 hm.2).2⟩
  elsewhere m world hm := hm

/-- **The shelf makes no difference to contents.** Let the outcome of every factory be a
function of its ingredients. Then at every moment that is reached, a get ends in a product or
in a failure, and it answers up to identities what evaluation of the book without a shelf
gives, with any bound on the nesting that exceeds the number of recipes. -/
theorem Reached.get_content (h : w.Reached m) (hl : w.book.Lawful view laws) (key : TypeKey) :
    (∀ halt, ((w.get key).runFrom m).1 = .error halt → ∃ failure, halt = .failed failure) ∧
    ∀ depth, w.book.size < depth →
      ((w.get key).runFrom m).1.map (fun product => product.value.content view) =
        w.book.rebuild view laws depth key := by
  have hb := h.keyed
  have ha := h.complete.acyclic
  have hw : ∀ key r, w.book.recipe? key = some r → r.WellTyped := fun _ _ => h.wellTyped
  obtain ⟨htyped, hfaithful⟩ := h.invariant (invariant_faithful hb ha hw hl)
  have hcourse := h.course (.of key) m
  obtain ⟨hanswer, -⟩ := hcourse.content hb ha hw hl trivial trivial htyped hfaithful
  obtain ⟨-, hkey⟩ := hcourse.typed hb hw trivial htyped
  -- the product is of the type that was asked for, so its check changes nothing
  have hget : ((w.get key).runFrom m).1 = ((w.serveAt [] (.of key)).runFrom m).1 := by
    rw [get_eq, runFrom_fetch]
    rcases hs : (w.serveAt [] (.of key)).runFrom m with ⟨halt | product, m'⟩
    · rfl
    · rw [hs] at hkey
      have hdowncast : product.downcast key = .ok product := if_pos (hkey product rfl)
      dsimp only
      rw [hdowncast]
      rfl
  rw [hget]
  refine ⟨fun halt he => hcourse.exists_failed hb hl trivial he, fun depth hdepth => ?_⟩
  rw [hanswer, Task.content_serve_of ha, Book.content]
  exact Book.rebuild_eq_rebuild ha Book.isStack_nil (Book.isNext_nil key)
    (Nat.lt_succ_self _) hdepth

end Workshop

/-! ### A sample -/

/-- The identity in an argument, if there is one. -/
def Argument.origins : Argument V → List Origin
  | .shared product => [product.origin]
  | .setting value => [value.origin]
  | .absent => []
  | .present inner => inner.origins

/-- The number of parts of which an ingredient is made. -/
def Ingredient.parts : Ingredient Nat → Nat
  | .shared (.product _ parts) => parts
  | .shared (.settings _) => 0
  | .setting _ parts => parts
  | .absent => 0
  | .present inner => inner.parts

/-- The law of a factory that puts together all it is given and adds one part. -/
def assembly (index : Nat) : Law Nat := fun ingredients =>
  .ok (.product index ((ingredients.map Ingredient.parts).foldr Nat.add 1))

/-- A factory that obeys this law. Its products know the identities of what they are made of,
and it counts its calls. -/
def assemble : Factory Nat (Nat × List Origin) (Nat × List Origin) := fun arguments calls =>
  (⟨.made ((arguments.map fun a => (a.ingredient Prod.fst).parts).foldr Nat.add 1,
    arguments.flatMap Argument.origins), []⟩, calls + 1)

/-- Factories that assemble obey their law. -/
lemma obeys_assemble (index : ℕ) :
    Obeys Prod.fst (Recipe.erase (.product index) assemble) (assembly index) := by
  intro arguments calls
  rw [assembly, List.map_map]
  rfl

namespace Workshop

/-- A workshop that puts together a singleton, a transient made of it, and a singleton that is
made of both and, if there is one, of something else. -/
def tower : Workshop Nat (Nat × List Origin) where
  serial := 0
  book := .of ⟨"tower",
    [.ofFactory 0 .retained (.product 0) [] assemble,
      .ofFactory 1 .transient (.product 1) [⟨.shared (.product 0), none⟩] assemble,
      .ofFactory 2 .retained (.product 2)
        [⟨.shared (.product 1), none⟩, ⟨.shared (.product 0), none⟩,
          ⟨.optional (.shared (.product 3)), none⟩] assemble]⟩ []

/-- The moment after the opening of the tower. -/
def towerStart : Moment Nat (Nat × List Origin) := (tower.opening.runIn 0).2

lemma opened_tower : tower.Opened towerStart := by
  refine ⟨⟨_, _, rfl, ?_⟩, 0, [], rfl⟩
  rw [List.forall_mem_cons, List.forall_mem_cons, List.forall_mem_singleton]
  exact ⟨Recipe.wellTyped_ofFactory .., Recipe.wellTyped_ofFactory ..,
    Recipe.wellTyped_ofFactory ..⟩

/-- Every factory of the tower obeys the law of its type. -/
lemma lawful_tower : tower.book.Lawful Prod.fst fun
    | .product index => assembly index
    | .settings => fun _ => .error "" := by
  intro key r make hr hs
  have hmem : r ∈ _ := Book.mem_of_recipe?_of hr
  obtain rfl := (opened_tower.keyed.recipe?_eq_some_iff.1 hr).2
  simp only [List.mem_cons, List.not_mem_nil, or_false] at hmem
  rcases hmem with rfl | rfl | rfl <;>
  · obtain rfl := Source.factory.inj hs
    exact obeys_assemble _

/-- When a first request has put its singleton on the shelf, the top of the tower still has as
many parts as plain evaluation counts. -/
theorem get_content_tower :
    ((tower.get (.product 2)).runFrom
      (tower.run [.ask (.get (.product 1))] towerStart).2).1.map
        (fun product => product.value.content Prod.fst) = .ok (.product 2 4) ∧
    (tower.run [.ask (.get (.product 1))] towerStart).2.shelf.product? (.product 0) =
      some ⟨.of (.product 0), .built 0 0, .product 0 (1, [])⟩ :=
  ⟨((opened_tower.reached [.ask (.get (.product 1))]).get_content lawful_tower
    (.product 2)).2 4 (by decide), by decide⟩

end Workshop

end Wiring
