/-
Workers who request the same singleton, each once, with nothing else going on.

* `Workshop.requested`, `Workshop.answerAfter`: the moments and the answers if the requests are
  made one after the other; `Workshop.run_replicate`: so it is in a run of the workshop;
* `Floor.Lined`: the workers who have got inside so far, in this order, have had the answers to
  requests made one after the other, and at most the last of them is still inside;
  `Floor.Lined.move`: **every move keeps this, and one of three counts goes down**;
* `Floor.lined_of_works`: so it is with whatever the workers come to;
* `Floor.Lined.acc`: the moves come to an end; `Floor.Lined.outcome`: and then all is as after
  the requests one after the other;
* `Floor.linearised`: **in whatever order they move, the workers come to what as many requests
  come to that are made one after the other**.
-/
import Mathlib.Algebra.Order.BigOperators.Group.Finset
import Mathlib.Data.Fintype.Card
import Mathlib.Data.List.FinRange
import Mathlib.Data.Prod.Lex
import Wiring.Proofs.Floor.Inside
import Wiring.Proofs.Floor.Waiting

namespace Wiring

open Relation

variable {ι σ V : Type}

/-! ### One after the other -/

namespace Workshop

/-- The moment after some requests for `wanted`, one after the other. -/
def requested (w : Workshop σ V) (wanted : TypeRef) (m : Moment σ V) (n : ℕ) : Moment σ V :=
  (fun m => ((w.getInstance wanted).runFrom m).2)^[n] m

/-- The answer to a request for `wanted` after `n` others. -/
def answerAfter (w : Workshop σ V) (wanted : TypeRef) (m : Moment σ V) (n : ℕ) :
    Except Halt (Instance V) :=
  ((w.getInstance wanted).runFrom (w.requested wanted m n)).1

variable {w : Workshop σ V} {wanted : TypeRef} {m : Moment σ V}

lemma requested_succ (w : Workshop σ V) (wanted : TypeRef) (m : Moment σ V) (n : ℕ) :
    w.requested wanted m (n + 1) =
      ((w.getInstance wanted).runFrom (w.requested wanted m n)).2 := by
  rw [requested, Function.iterate_succ_apply']
  rfl

/-- A run that asks for the product of one type again and again makes just these requests. -/
lemma run_replicate (w : Workshop σ V) (key : TypeKey) (n : ℕ) (m : Moment σ V) :
    w.run (List.replicate n (.ask (.get key))) m =
      ((List.range n).map fun k =>
          .answered ((Query.get key).receive (w.answerAfter (.of key) m k)),
        w.requested (.of key) m n) := by
  induction n generalizing m with
  | zero => rfl
  | succ n ih =>
      have hact : w.act (.ask (.get key)) m =
          (.answered ((Query.get key).receive (w.answerAfter (.of key) m 0)),
            w.requested (.of key) m 1) := by
        rw [act, runFrom_answer rfl]
        rfl
      rw [List.replicate_succ, run, hact, ih, List.range_succ_eq_map, List.map_cons, List.map_map]
      rfl

end Workshop

/-! ### The workers in line -/

namespace Worker

/-- The worker has not got any further than to make its only request. -/
def Waits (wanted : TypeRef) (x : Worker σ V) : Prop :=
  x = ⟨[], [wanted], []⟩ ∨ x = posing wanted

/-- The worker has had the answer to its only request. -/
def Served (wanted : TypeRef) (answer : Except Halt (Instance V)) (x : Worker σ V) : Prop :=
  ∃ log, x = answering wanted answer log ∨ x = ⟨[], [], log ++ [(wanted, answer)]⟩

/-- What is left to do before and after a worker is inside. -/
def chores (x : Worker σ V) : ℕ := 2 * x.todo.length + x.errands.length

/-- The reply that a worker has got to a query. -/
def reply (q : Query) (x : Worker σ V) : Option (Reply V) :=
  x.answered.getLast?.map fun a => .answered (q.receive a.2)

variable {w : Workshop σ V} {wanted : TypeRef} {answer : Except Halt (Instance V)}
  {x x' : Worker σ V} {h h' : Hall σ V}

lemma Waits.not_done (hx : x.Waits wanted) : ¬ x.Done := by
  rintro ⟨herrands, htodo⟩
  rcases hx with rfl | rfl
  · cases htodo
  · cases herrands

lemma Inside.not_done (hx : x.Inside wanted) : ¬ x.Done := not_done_of_mem_held hx.mem_held

lemma Served.reply_eq (hx : x.Served wanted answer) (hdone : x.Done) (q : Query) :
    x.reply q = some (.answered (q.receive answer)) := by
  obtain ⟨log, rfl | rfl⟩ := hx
  · cases hdone.1
  · simp [reply]

/-- A worker who was served passes its answer on and changes nothing else. -/
lemma Served.move (hx : x.Served wanted answer) (hm : w.Move x h x' h') :
    x'.Served wanted answer ∧ h' = h ∧ x'.chores < x.chores := by
  obtain ⟨log, rfl | rfl⟩ := hx
  · cases hm with
    | proceeds step => cases step
    | answers => exact ⟨⟨log, .inr rfl⟩, rfl, Nat.zero_lt_one⟩
    | quits => exact ⟨⟨log, .inr rfl⟩, rfl, Nat.zero_lt_one⟩
  · cases hm

/-- A worker who has not made its request yet makes it. -/
lemma Waits.move (hx : x.Waits wanted) (hm : w.Move x h x' h') :
    x = posing wanted ∨ x'.Waits wanted ∧ h' = h ∧ x'.chores < x.chores := by
  rcases hx with rfl | rfl
  · cases hm with
    | begins => exact .inr ⟨.inr rfl, rfl, Nat.one_lt_two⟩
  · exact .inl rfl

end Worker

namespace Floor

/-- The workers in a list have had the answers to requests made one after the other. -/
def InTurn (w : Workshop σ V) (wanted : TypeRef) (m : Moment σ V) (served : List ι)
    (f : Floor ι σ V) : Prop :=
  ∀ k i, served[k]? = some i → (f.workers i).Served wanted (w.answerAfter wanted m k)

/-- Who is inside, when some workers have got inside in this order: nobody, or the last of
them, who has its answer after so many moves. The others have had theirs. -/
inductive Phase (w : Workshop σ V) (wanted : TypeRef) (m : Moment σ V) :
    List ι → ℕ → Floor ι σ V → Prop
  | free {entered : List ι} {f : Floor ι σ V} (served : f.InTurn w wanted m entered)
      (hall : f.hall = ⟨w.requested wanted m entered.length, fun _ => false⟩) :
      Phase w wanted m entered 0 f
  | taken {before : List ι} {i : ι} {left : ℕ} {f : Floor ι σ V}
      (served : f.InTurn w wanted m before) (keeps : w.book.keeps wanted.key = true)
      (inside : (f.workers i).Inside wanted)
      (heads : w.Heads wanted (w.answerAfter wanted m before.length)
        (w.requested wanted m (before.length + 1)) left (f.workers i) f.hall) :
      Phase w wanted m (before ++ [i]) left f

/-- The workers stand in line for the product of a type, which they request from the moment `m`
on: some have got inside, in this order, and the others wait. -/
structure Lined (w : Workshop σ V) (wanted : TypeRef) (m : Moment σ V) (entered : List ι)
    (left : ℕ) (f : Floor ι σ V) : Prop where
  nodup : entered.Nodup
  waits : ∀ i ∉ entered, (f.workers i).Waits wanted
  phase : f.Phase w wanted m entered left

/-- One of three counts goes down: of those who have not got inside yet, of the moves that the
one inside has left, or of what the others have left to do. -/
inductive Progress (entered : List ι) (left : ℕ) (x x' : Worker σ V) :
    List ι → ℕ → Prop
  | enters {j : ι} {left' : ℕ} (new : j ∉ entered) :
      Progress entered left x x' (entered ++ [j]) left'
  | nears {left' : ℕ} (less : left' < left) : Progress entered left x x' entered left'
  | clears (less : x'.chores < x.chores) : Progress entered left x x' entered left

variable {w : Workshop σ V} {wanted : TypeRef} {m : Moment σ V} {entered served : List ι}
  {left : ℕ} {f : Floor ι σ V}

/-- The next one is served. -/
lemma InTurn.append (hf : f.InTurn w wanted m served) {j : ι}
    (hj : (f.workers j).Served wanted (w.answerAfter wanted m served.length)) :
    f.InTurn w wanted m (served ++ [j]) := by
  intro k i hi
  rw [List.getElem?_append] at hi
  split at hi
  · exact hf k i hi
  · rename_i hk
    obtain ⟨hlt, rfl⟩ := List.getElem?_eq_some_iff.1 hi
    obtain rfl : k = served.length := by
      rw [List.length_singleton] at hlt
      omega
    simpa using hj

/-- Those who were served, and are done, have had these answers as replies. -/
lemma InTurn.replies (hf : f.InTurn w wanted m served) (hdone : ∀ i, (f.workers i).Done)
    (q : Query) :
    served.map (fun i => (f.workers i).reply q) = (List.range served.length).map fun k =>
      some (.answered (q.receive (w.answerAfter wanted m k))) := by
  refine List.ext_getElem (by simp) fun k hk _ => ?_
  rw [List.length_map] at hk
  rw [List.getElem_map, List.getElem_map, List.getElem_range]
  exact (hf k _ (List.getElem?_eq_getElem hk)).reply_eq (hdone _) q

/-- When no worker has anything left to do, all have got inside and have had their answers. -/
lemma Lined.outcome (hl : f.Lined w wanted m entered left) (hdone : ∀ i, (f.workers i).Done) :
    (∀ i, i ∈ entered) ∧ f.InTurn w wanted m entered ∧
      f.hall = ⟨w.requested wanted m entered.length, fun _ => false⟩ := by
  refine ⟨fun i => ?_, ?_⟩
  · by_contra hi
    exact (hl.waits i hi).not_done (hdone i)
  · cases hl.phase with
    | free served hall => exact ⟨served, hall⟩
    | @taken before i left f served keeps inside heads => exact absurd (hdone i) inside.not_done

variable [DecidableEq ι]

/-- Those who were served do not mind the others. -/
lemma InTurn.update_of_not_mem (hf : f.InTurn w wanted m served) {j : ι} (hj : j ∉ served)
    (x : Worker σ V) (h : Hall σ V) :
    InTurn w wanted m served ⟨h, Function.update f.workers j x⟩ := by
  intro k i hi
  have hne : i ≠ j := by
    rintro rfl
    exact hj (List.mem_of_getElem? hi)
  simpa [hne] using hf k i hi

/-- Whoever was served stays so. -/
lemma InTurn.update_of_served (hf : f.InTurn w wanted m served) {j : ι} {x : Worker σ V}
    (hx : ∀ answer, (f.workers j).Served wanted answer → x.Served wanted answer) (h : Hall σ V) :
    InTurn w wanted m served ⟨h, Function.update f.workers j x⟩ := by
  intro k i hi
  by_cases hij : i = j
  · subst hij
    simpa using hx _ (hf k i hi)
  · simpa [hij] using hf k i hi

/-- The one who moves has got its answer, and so the next one may get inside. -/
lemma InTurn.free (hf : f.InTurn w wanted m served) {j : ι} (hj : j ∉ served) {x : Worker σ V}
    {h : Hall σ V} (hd : w.Heads wanted (w.answerAfter wanted m served.length)
      (w.requested wanted m (served.length + 1)) left x h)
    (hx : ∃ answer log, x = Worker.answering wanted answer log) :
    Phase w wanted m (served ++ [j]) 0 ⟨h, Function.update f.workers j x⟩ := by
  obtain ⟨answer, log, rfl⟩ := hx
  obtain ⟨rfl, rfl⟩ := hd.eq_of_answering
  refine .free ((hf.update_of_not_mem hj _ _).append ⟨log, .inl ?_⟩) ?_
  · exact Function.update_self ..
  · rw [List.length_append]
    rfl

/-- The one who moves is inside and so many moves away from its answer. -/
lemma InTurn.taken (hf : f.InTurn w wanted m served) (hkeeps : w.book.keeps wanted.key = true)
    {j : ι} (hj : j ∉ served) {x : Worker σ V} {h : Hall σ V}
    (hd : w.Heads wanted (w.answerAfter wanted m served.length)
      (w.requested wanted m (served.length + 1)) left x h) (hx : x.Inside wanted) :
    Phase w wanted m (served ++ [j]) left ⟨h, Function.update f.workers j x⟩ := by
  refine .taken (hf.update_of_not_mem hj _ _) hkeeps ?_ ?_
  · simpa using hx
  · simpa using hd

/-- A worker who is not inside moves without anybody minding. -/
lemma Phase.update (hf : f.Phase w wanted m entered left) {j : ι} {x : Worker σ V}
    (hm : w.Move (f.workers j) f.hall x f.hall)
    (hj : j ∉ entered ∨ ∃ answer, (f.workers j).Served wanted answer) :
    Phase w wanted m entered left ⟨f.hall, Function.update f.workers j x⟩ := by
  cases hf with
  | free served hall =>
      exact .free (served.update_of_served (fun answer hx => (hx.move hm).1) f.hall) hall
  | @taken before i left f served keeps inside heads =>
      have hne : i ≠ j := by
        rintro rfl
        rcases hj with hj | ⟨answer, log, hserved | hserved⟩
        · exact hj (by simp)
        · cases (hserved ▸ inside).single.2.2
        · cases (hserved ▸ inside).not_done ⟨rfl, rfl⟩
      refine .taken (served.update_of_served (fun answer hx => (hx.move hm).1) f.hall) keeps
        ?_ ?_
      · simpa [hne] using inside
      · simpa [hne] using heads

lemma Lined.waits_update (hl : f.Lined w wanted m entered left) {j : ι} {x : Worker σ V}
    {entered' : List ι} (hsub : entered ⊆ entered') (hj : j ∈ entered' ∨ x.Waits wanted) :
    ∀ i ∉ entered', (Function.update f.workers j x i).Waits wanted := by
  intro i hi
  by_cases hij : i = j
  · subst hij
    simpa using hj.resolve_left hi
  · simpa [hij] using hl.waits i fun hmem => hi (hsub hmem)

/-- A worker who was served moves. -/
lemma Lined.move_served (hl : f.Lined w wanted m entered left) {j : ι} {x : Worker σ V}
    {h : Hall σ V} (hm : w.Move (f.workers j) f.hall x h) {answer : Except Halt (Instance V)}
    (hj : j ∈ entered) (hserved : (f.workers j).Served wanted answer) :
    Progress entered left (f.workers j) x entered left ∧
      Lined w wanted m entered left ⟨h, Function.update f.workers j x⟩ := by
  obtain ⟨-, rfl, hless⟩ := hserved.move hm
  exact ⟨.clears hless, hl.nodup, hl.waits_update (List.Subset.refl _) (.inl hj),
    hl.phase.update hm (.inr ⟨answer, hserved⟩)⟩

/-- A worker who waits makes its request, if it has not yet. -/
lemma Lined.move_waits (hl : f.Lined w wanted m entered left) {j : ι} {x : Worker σ V}
    {h : Hall σ V} (hm : w.Move (f.workers j) f.hall x h) (hj : j ∉ entered) :
    f.workers j = .posing wanted ∨
      Progress entered left (f.workers j) x entered left ∧
        Lined w wanted m entered left ⟨h, Function.update f.workers j x⟩ := by
  refine ((hl.waits j hj).move hm).imp_right ?_
  rintro ⟨hwaits, rfl, hless⟩
  exact ⟨.clears hless, hl.nodup, hl.waits_update (List.Subset.refl _) (.inr hwaits),
    hl.phase.update hm (.inl hj)⟩

/-- With all locks free whoever makes its request gets inside, or has its answer at once. -/
lemma Lined.move_posing (hl : f.Lined w wanted m entered left) (hf : f.InTurn w wanted m entered)
    (hall : f.hall = ⟨w.requested wanted m entered.length, fun _ => false⟩)
    (hp : w.Placed f.hall.moment) (ha : w.book.Acyclic) (hr : w.book.renews wanted.key = false)
    {j : ι} {x : Worker σ V} {h : Hall σ V} (hm : w.Move (f.workers j) f.hall x h)
    (hj : j ∉ entered) (hposing : f.workers j = .posing wanted) :
    ∃ left', Progress entered left (f.workers j) x (entered ++ [j]) left' ∧
      Lined w wanted m (entered ++ [j]) left' ⟨h, Function.update f.workers j x⟩ := by
  obtain ⟨total, hheads⟩ := Workshop.heads_posed ha wanted (w.requested wanted m entered.length)
  rw [← Workshop.requested_succ, ← hall, ← hposing] at hheads
  obtain ⟨left', -, hnext⟩ := hheads.move (.inr hposing) hm
  have hnodup : (entered ++ [j]).Nodup := by
    rw [← List.concat_eq_append]
    exact hl.nodup.concat hj
  have hwaits := hl.waits_update (j := j) (x := x) (List.subset_append_left entered [j])
    (.inl (by simp))
  rw [hposing] at hm
  rcases hm.posed hp hr with ⟨hinside, hkept, -⟩ | ⟨hanswering, -⟩
  · exact ⟨left', .enters hj, hnodup, hwaits, hf.taken hkept hj hnext hinside⟩
  · exact ⟨0, .enters hj, hnodup, hwaits, hf.free hj hnext hanswering⟩

/-- The one inside comes closer to its answer. -/
lemma Lined.move_inside {before : List ι} {i : ι}
    (hl : f.Lined w wanted m (before ++ [i]) left) (hf : f.InTurn w wanted m before)
    (hkept : w.book.keeps wanted.key = true) (hi : (f.workers i).Inside wanted)
    (hd : w.Heads wanted (w.answerAfter wanted m before.length)
      (w.requested wanted m (before.length + 1)) left (f.workers i) f.hall)
    {x : Worker σ V} {h : Hall σ V} (hm : w.Move (f.workers i) f.hall x h) :
    ∃ left', Progress (before ++ [i]) left (f.workers i) x (before ++ [i]) left' ∧
      Lined w wanted m (before ++ [i]) left' ⟨h, Function.update f.workers i x⟩ := by
  have hfresh : i ∉ before := fun hmem =>
    (List.nodup_append.1 hl.nodup).2.2 i hmem i (by simp) rfl
  have hwaits := hl.waits_update (j := i) (x := x) (List.Subset.refl _) (.inl (by simp))
  obtain ⟨left', rfl, hnext⟩ := hd.move (.inl hi) hm
  rcases hm.inside hi with hinside | hanswering
  · exact ⟨left', .nears (Nat.lt_succ_self left'), hl.nodup, hwaits,
      hf.taken hkept hfresh hnext hinside⟩
  · exact ⟨0, .nears (Nat.succ_pos left'), hl.nodup, hwaits,
      hf.free hfresh hnext hanswering⟩

/-- **Every move keeps the workers in line**, and one of the three counts goes down. Nobody gets
inside as long as another worker is, who has the lock for it. -/
theorem Lined.move (hl : f.Lined w wanted m entered left) (hg : f.Guarded)
    (hp : w.Placed f.hall.moment) (ha : w.book.Acyclic) (hr : w.book.renews wanted.key = false)
    {j : ι} {x : Worker σ V} {h : Hall σ V} (hm : w.Move (f.workers j) f.hall x h) :
    ∃ entered' left', Progress entered left (f.workers j) x entered' left' ∧
      Lined w wanted m entered' left' ⟨h, Function.update f.workers j x⟩ := by
  have hphase := hl.phase
  cases hphase with
  | free served hall =>
      by_cases hj : j ∈ entered
      · obtain ⟨k, hk⟩ := List.mem_iff_getElem?.1 hj
        exact ⟨_, _, hl.move_served hm hj (served k j hk)⟩
      · rcases hl.move_waits hm hj with hposing | hnext
        · exact ⟨_, hl.move_posing served hall hp ha hr hm hj hposing⟩
        · exact ⟨_, _, hnext⟩
  | @taken before i left f served keeps inside heads =>
      by_cases hji : j = i
      · subst hji
        exact ⟨_, hl.move_inside served keeps inside heads hm⟩
      by_cases hj : j ∈ before
      · obtain ⟨k, hk⟩ := List.mem_iff_getElem?.1 hj
        exact ⟨_, _, hl.move_served hm (List.mem_append_left _ hj) (served k j hk)⟩
      rcases hl.move_waits hm (by simp [hj, hji]) with hposing | hnext
      · -- the lock is taken by the one inside
        have hlocked := (hg.locked_iff wanted.key).2 ⟨i, inside.mem_held⟩
        rw [hposing] at hm
        rcases hm.posed hp hr with ⟨-, -, hfree⟩ | ⟨-, hnot⟩
        · rw [hlocked] at hfree
          cases hfree
        · rw [keeps] at hnot
          cases hnot
      · exact ⟨_, _, hnext⟩

/-- Nobody has moved yet, no lock is taken, and all workers are about to request the product of
one type. -/
def queue (wanted : TypeRef) (m : Moment σ V) : Floor ι σ V :=
  ⟨⟨m, fun _ => false⟩, fun _ => ⟨[], [wanted], []⟩⟩

/-- **Whatever the workers come to, they are in line.** -/
theorem lined_of_works (h : w.Reached m)
    (hr : w.book.renews wanted.key = false) (hf : ReflTransGen w.Works (queue wanted m) f) :
    f.Reached w ∧ ∃ entered left, f.Lined w wanted m entered left := by
  induction hf with
  | refl =>
      exact ⟨⟨_, ⟨h, fun _ => rfl, fun _ => ⟨rfl, rfl⟩⟩, .refl⟩, [], 0, List.nodup_nil,
        fun _ _ => .inl rfl, .free (fun k i hi => by simp at hi) rfl⟩
  | tail _ hworks ih =>
      obtain ⟨hreached, entered, left, hl⟩ := ih
      obtain ⟨j, x, hall, hm, rfl⟩ := hworks
      obtain ⟨entered', left', -, hnext⟩ := hl.move hreached.orderly.guarded
        hreached.orderly.placed hreached.complete.acyclic hr hm
      exact ⟨hreached.after (.single (.works j hm)), entered', left', hnext⟩

/-- As long as a worker has something left to do, one of them can move. -/
lemma Orderly.exists_works (ho : f.Orderly w) (ha : w.book.Acyclic)
    (hleft : ∃ i, ¬ (f.workers i).Done) : ∃ g, w.Works f g := by
  obtain ⟨i, hi⟩ := hleft
  rcases (ho.sound i).exists_move hi with ⟨x, h, hm⟩ | ⟨u, -, hlocked⟩
  · exact ⟨_, i, x, h, hm, rfl⟩
  · obtain ⟨j, hj⟩ := (ho.guarded.locked_iff u).1 hlocked
    obtain ⟨k, x, h, hm⟩ := ho.exists_move_of_held ha hj
    exact ⟨_, k, x, h, hm, rfl⟩

/-! ### The end of the line -/

variable [Fintype ι]

/-- What all workers have left to do besides what they do inside. -/
def chores (f : Floor ι σ V) : ℕ := ∑ i, (f.workers i).chores

lemma chores_update_lt {j : ι} {x : Worker σ V} (h : Hall σ V)
    (hx : x.chores < (f.workers j).chores) :
    chores ⟨h, Function.update f.workers j x⟩ < f.chores := by
  refine Finset.sum_lt_sum (fun i _ => ?_) ⟨j, Finset.mem_univ j, ?_⟩
  · by_cases hij : i = j
    · subst hij
      simpa using hx.le
    · simp [hij]
  · simpa using hx

/-- The counts that a move of a worker in line brings down, the first one that changes. -/
def counts (entered : List ι) (left : ℕ) (f : Floor ι σ V) : ℕ ×ₗ ℕ ×ₗ ℕ :=
  toLex (Fintype.card ι - entered.length, toLex (left, f.chores))

lemma Progress.lt {entered' : List ι} {left' : ℕ} {j : ι} {x : Worker σ V} {h : Hall σ V}
    (hp : Progress entered left (f.workers j) x entered' left') (hn : entered'.Nodup) :
    counts entered' left' ⟨h, Function.update f.workers j x⟩ < counts entered left f := by
  cases hp with
  | enters new =>
      refine Prod.Lex.toLex_lt_toLex.2 (.inl ?_)
      have hle := hn.length_le_card
      rw [List.length_append, List.length_singleton] at hle ⊢
      omega
  | nears less =>
      exact Prod.Lex.toLex_lt_toLex.2 (.inr ⟨rfl, Prod.Lex.toLex_lt_toLex.2 (.inl less)⟩)
  | clears less =>
      exact Prod.Lex.toLex_lt_toLex.2 (.inr ⟨rfl, Prod.Lex.toLex_lt_toLex.2
        (.inr ⟨rfl, chores_update_lt h less⟩)⟩)

/-- **The moves come to an end**, in whatever order the workers move. -/
theorem Lined.acc (hl : f.Lined w wanted m entered left) (hf : f.Reached w)
    (hr : w.book.renews wanted.key = false) : Acc (fun g f => w.Works f g) f := by
  generalize hcounts : counts entered left f = c
  induction c using WellFoundedLT.induction generalizing entered left f with
  | ind c ih =>
      refine ⟨f, fun g hg => ?_⟩
      obtain ⟨j, x, h, hm, rfl⟩ := hg
      obtain ⟨entered', left', hprogress, hnext⟩ :=
        hl.move hf.orderly.guarded hf.orderly.placed hf.complete.acyclic hr hm
      exact ih _ (hcounts ▸ hprogress.lt hnext.nodup) hnext (hf.after (.single (.works j hm))) rfl

/-- **Requests for one singleton stand in line.** When `n` workers get the product of a singleton
from some moment on, while nothing else goes on, then in whatever order they move they come to
an end, and until then one of them can move. In the end the state of the workshop, with all
that was recorded, is the one after `n` gets one after the other, whatever their outcomes, no
lock is taken, and the workers have had just the answers to these gets, in some order. -/
theorem linearised (h : w.Reached m) {key : TypeKey} {r : Recipe σ V}
    (hr : w.book.recipe? key = some r) (hs : r.lifetime = .singleton) (n : ℕ)
    {f : Floor (Fin n) σ V} (hf : ReflTransGen w.Works (queue (.of key) m) f) :
    let serial := w.run (List.replicate n (.ask (.get key))) m
    Acc (fun g f => w.Works f g) f ∧
    ((∃ i, ¬ (f.workers i).Done) → ∃ g, w.Works f g) ∧
    ((∀ i, (f.workers i).Done) →
      f.hall = ⟨serial.2, fun _ => false⟩ ∧
      ((List.finRange n).map fun i => (f.workers i).reply (.get key)).Perm
        (serial.1.map some)) := by
  intro serial
  have hrenews : w.book.renews (TypeRef.of key).key = false := by
    simp [Book.renews, hr, hs]
  obtain ⟨hreached, entered, left, hl⟩ := lined_of_works h hrenews hf
  refine ⟨hl.acc hreached hrenews, hreached.orderly.exists_works hreached.complete.acyclic,
    fun hdone => ?_⟩
  obtain ⟨hall, hserved, hhall⟩ := hl.outcome hdone
  have hperm : (List.finRange n).Perm entered :=
    (List.perm_ext_iff_of_nodup (List.nodup_finRange n) hl.nodup).2 fun i =>
      iff_of_true (List.mem_finRange i) (hall i)
  have hlength : entered.length = n := hperm.length_eq.symm.trans List.length_finRange
  have hserial : serial = _ := w.run_replicate key n m
  rw [hserial, hhall, hlength]
  refine ⟨rfl, (hperm.map _).trans (.of_eq ?_)⟩
  rw [hserved.replies hdone, hlength, List.map_map]
  rfl

/-- A workshop whose world counts the calls of factories. The first call is of the first
singleton's factory and fails, the second one panics, and all later ones succeed. The second
singleton needs the first one. -/
def faltering : Workshop ℕ Unit where
  serial := 0
  book := .of ⟨"faltering",
    [.ofFactory 0 .retained (.product 0) [] fun _ calls =>
        (⟨[.failed "early", .panicked "shaken"].getD calls (.made ()), []⟩, calls + 1),
      .ofFactory 1 .retained (.product 1) [Workshop.needsFirst] fun _ calls =>
        (⟨.made (), []⟩, calls + 1)]⟩ [.of (.product 1)]

/-- The moment after its opening. -/
def falteringStart : Moment ℕ Unit := (faltering.opening.runIn 0).2

lemma opened_faltering : faltering.Opened falteringStart := by
  refine ⟨⟨_, _, rfl, ?_⟩, 0, [], rfl⟩
  rw [List.forall_mem_cons, List.forall_mem_singleton]
  exact ⟨Recipe.wellTyped_ofFactory .., Recipe.wellTyped_ofFactory ..⟩

/-- Three workers want the second singleton. All of them begin before the first of them is
done, the others then wait for each other. -/
def crowd : Floor (Fin 3) ℕ Unit :=
  faltering.turns (queue (.of (.product 1)) falteringStart)
    ([1, 2, 0, 1, 2, 0] ++ List.replicate 10 1 ++ List.replicate 11 2 ++ List.replicate 13 0)

set_option maxRecDepth 1000 in
/-- The first two who get inside have the failure and the panic of the first singleton's
factory, and only the last one gets a product, as with three gets one after the other. -/
theorem linearised_crowd :
    let serial := faltering.run (List.replicate 3 (.ask (.get (.product 1)))) falteringStart
    faltering.Reached falteringStart ∧
    ReflTransGen faltering.Works (queue (.of (.product 1)) falteringStart) crowd ∧
    (∀ i, (crowd.workers i).Done) ∧
    (crowd.workers 1).reply (.get (.product 1)) =
      some (.answered (.error (.failed (.factoryFailed (TypeKey.product 0).name "early")))) ∧
    (crowd.workers 2).reply (.get (.product 1)) =
      some (.answered (.error (.panicked "shaken"))) ∧
    (crowd.workers 0).reply (.get (.product 1)) =
      some (.answered (.ok (.shared ⟨.of (.product 1), .built 0 3, .product 1 ()⟩))) ∧
    crowd.hall = ⟨serial.2, fun _ => false⟩ ∧
    ((List.finRange 3).map fun i => (crowd.workers i).reply (.get (.product 1))).Perm
      (serial.1.map some) := by
  have hreached : faltering.Reached falteringStart := opened_faltering.reached []
  have hworks : ReflTransGen faltering.Works (queue (.of (.product 1)) falteringStart) crowd :=
    Workshop.turns_works _ _
  have hdone : ∀ i, (crowd.workers i).Done := by
    intro i
    match i with
    | 0 => exact ⟨rfl, rfl⟩
    | 1 => exact ⟨rfl, rfl⟩
    | 2 => exact ⟨rfl, rfl⟩
  obtain ⟨-, -, hend⟩ := linearised hreached rfl rfl 3 hworks
  exact ⟨hreached, hworks, hdone, rfl, rfl, rfl, hend hdone⟩

end Floor

end Wiring
