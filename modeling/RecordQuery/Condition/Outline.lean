import RecordQuery.Condition

/-!
# Outlines

A condition as an indented outline, one line for each group, call and constant. Every line ends with
a newline and every level is indented by two spaces.
-/

namespace RecordQuery

/-- One line of an outline. -/
structure OutlineLine where
  level : Nat
  text : String
deriving DecidableEq, Repr

/-- A line with its indentation and its newline. -/
def OutlineLine.render (l : OutlineLine) : String :=
  String.ofList (List.replicate (2 * l.level) ' ') ++ l.text ++ "\n"

/-- A labelled group of lines, one for each entry. -/
def outlineGroup (level : Nat) (label : String) (entries : List String) : List OutlineLine :=
  ⟨level, label ++ " ("⟩ :: entries.map (⟨level + 1, ·⟩) ++ [⟨level, ")"⟩]

namespace Test

variable {α : Type}

/-- The label of a comparison. -/
def compareLabel (r : Relation) : String :=
  "Compare(" ++ r.symbol ++ ")"

/-- The label of a membership test. -/
def memberLabel (negated : Bool) : String :=
  if negated then "NOT In" else "In"

/-- The lines of a test. -/
def outline (level : Nat) : Test α → List OutlineLine
  | call c => [⟨level, (if c.negated then "NOT " else "") ++ c.display⟩]
  | compare c r target => outlineGroup level (compareLabel r) [c.display, target.display]
  | compareCalls left r right => outlineGroup level (compareLabel r) [left.display, right.display]
  | member c choices negated =>
    outlineGroup level (memberLabel negated) (c.display :: choices.toList.map Literal.display)
  | memberCall left right negated =>
    outlineGroup level (memberLabel negated) [left.display, right.display]

end Test

namespace Condition

variable {α : Type}

mutual

/-- The lines of a condition. -/
def outline (level : Nat) : Condition α → List OutlineLine
  | .all fs => ⟨level, "AND ("⟩ :: outlineAll (level + 1) fs ++ [⟨level, ")"⟩]
  | .any fs => ⟨level, "OR ("⟩ :: outlineAll (level + 1) fs ++ [⟨level, ")"⟩]
  | .not f => ⟨level, "NOT ("⟩ :: outline (level + 1) f ++ [⟨level, ")"⟩]
  | .test t => t.outline level

/-- The lines of some conditions. -/
def outlineAll (level : Nat) : List (Condition α) → List OutlineLine
  | [] => []
  | f :: fs => outline level f ++ outlineAll level fs

end

/-- The outline of a condition as a text, its first line indented to the given level. -/
def dump (c : Condition α) (level : Nat) : String :=
  String.join ((c.outline level).map OutlineLine.render)

end Condition

end RecordQuery
