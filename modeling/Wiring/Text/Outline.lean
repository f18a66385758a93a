/-
Outlines of values for inspection, on one line or with one line for each part.

* `Outline`: atoms, records with named fields, and lists;
* `Outline.compact`: all on one line;
* `Outline.indented`: one line for each field and element, four blanks deeper for
  each level, with a comma after each.
-/

namespace Wiring.Text

/-- The outline of a value. -/
inductive Outline where
  /-- A text that stands as it is. -/
  | atom (text : String)
  /-- A part with its name. -/
  | field (name : String) (value : Outline)
  /-- A record with its fields. -/
  | record (name : String) (fields : List Outline)
  /-- A list with its elements. -/
  | list (items : List Outline)

namespace Outline

/-- Four blanks for each level. -/
def indent (level : Nat) : String := String.ofList (List.replicate (4 * level) ' ')

mutual

/-- The outline on one line. A record without fields is its name alone. -/
def compact : Outline → String
  | .atom text => text
  | .field name value => name ++ ": " ++ value.compact
  | .record name [] => name
  | .record name (first :: rest) => name ++ " \x7b " ++ first.compact ++ separated rest ++ " \x7d"
  | .list [] => "[]"
  | .list (first :: rest) => "[" ++ first.compact ++ separated rest ++ "]"

/-- Further parts on the same line, each after a comma. -/
def separated : List Outline → String
  | [] => ""
  | part :: rest => ", " ++ part.compact ++ separated rest

end

mutual

/-- The outline with its parts on lines of their own, where it starts on a line of
the given level. -/
def indented (level : Nat) : Outline → String
  | .atom text => text
  | .field name value => name ++ ": " ++ value.indented level
  | .record name [] => name
  | .record name (first :: rest) =>
    name ++ " \x7b\n" ++ indent (level + 1) ++ first.indented (level + 1) ++ ",\n"
      ++ stacked (level + 1) rest ++ indent level ++ "\x7d"
  | .list [] => "[]"
  | .list (first :: rest) =>
    "[\n" ++ indent (level + 1) ++ first.indented (level + 1) ++ ",\n"
      ++ stacked (level + 1) rest ++ indent level ++ "]"

/-- Parts on lines of their own. -/
def stacked (level : Nat) : List Outline → String
  | [] => ""
  | part :: rest => indent level ++ part.indented level ++ ",\n" ++ stacked level rest

end

/-- The outline in one of the two layouts. -/
def render (o : Outline) (pretty : Bool) : String :=
  if pretty then o.indented 0 else o.compact

end Outline

end Wiring.Text
