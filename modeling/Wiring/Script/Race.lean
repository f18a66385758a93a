/-
Several requests for one product at once.

They come to the same as if they were made one after the other, because every singleton
is made while its place on the shelf is locked; so that is how they are made.

* `raceOf`: what the answers and the journal come to, whatever their order;
* `Session.race`: the requests.
-/
import Wiring.Script.Session

namespace Wiring.Script

/-- A list of texts in ascending order. -/
def sortTexts (texts : List String) : List String := texts.mergeSort (fun a b => a ≤ b)

/-- What the answers to several requests come to, given the journal of the requests. -/
def raceOf (answers : List (Except Halt (Instance Made))) (journal : List Entry) : Race where
  good := answers.countP fun | .ok _ => true | _ => false
  distinct := (answers.filterMap fun
    | .ok product => some (identity product)
    | _ => none).eraseDups.length
  errors := sortTexts (answers.filterMap fun
    | .error (.failed failure) => some failure.message
    | _ => none)
  panics := answers.countP fun | .error (.panicked _) => true | _ => false
  events := sortTexts (journal.map fun e =>
    String.ofList (e.text.toList.takeWhile (· ≠ '#')))

namespace Session

/-- The answers to a number of requests, one after the other. -/
def askTimes (w : Workshop World Made) (key : TypeKey) :
    Nat → Act (List (Except Halt (Instance Made)))
  | 0 => pure []
  | times + 1 => do
    let first ← ask w (w.get key)
    let others ← askTimes w key times
    pure (first :: others)

/-- Requests a product several times. The factory calls are part of the answer and do
not appear in the journal of the step. -/
def race (w : Workshop World Made) (key : TypeKey) (times : Nat) : Act Result := do
  let answers ← askTimes w key times
  let journal ← withWorld fun world => (world.journal, { world with journal := [] })
  pure (.ok (.race (raceOf answers journal)))

end Session

end Wiring.Script
