import RecordQuery.Condition
import RecordQuery.Text.Structure

/-!
# The structure of a condition

A condition on a single line, with the kind of every node and the name of every part.
-/

namespace RecordQuery

/-- The name of a relation. -/
def Relation.structureName : Relation → String
  | .equal => "Eq"
  | .unequal => "Ne"
  | .less => "Lt"
  | .atMost => "Le"
  | .greater => "Gt"
  | .atLeast => "Ge"

/-- A call's argument, marked with its type. -/
def Literal.structureText : Literal → String
  | .integer n => "Int(" ++ toString n.toInt ++ ")"
  | .text s => "Str(" ++ Text.quote s ++ ")"

/-- A call with its name, argument and flag. -/
def Call.structureText {α : Type} (c : Call α) : String :=
  Text.record "Call"
    [("name", Text.quote c.name), ("arg", c.argument.structureText), ("negated", Text.truth c.negated)]

/-- A test with its parts. -/
def Test.structureText {α : Type} : Test α → String
  | .call c => "Call(" ++ c.structureText ++ ")"
  | .compare c r target =>
    let kind := match target.type with
      | .integer => "CompareInt("
      | .text => "CompareStr("
    kind ++ Text.record "Compare"
      [("call", c.structureText), ("op", r.structureName), ("target", target.display)] ++ ")"
  | .compareCalls left r right =>
    "CompareCalls(" ++ Text.record "CompareWithCall"
      [("left", left.structureText), ("op", r.structureName), ("right", right.structureText)] ++ ")"
  | .member c choices negated =>
    let kind := match choices with
      | .integers _ => "InInts("
      | .texts _ => "InStrs("
    kind ++ Text.record "Membership"
      [("call", c.structureText),
       ("choices", Text.bracketed (choices.toList.map Literal.display)),
       ("negated", Text.truth negated)] ++ ")"
  | .memberCall left right negated =>
    "InCall(" ++ Text.record "InWithCall"
      [("left", left.structureText), ("right", right.structureText),
       ("negated", Text.truth negated)] ++ ")"

namespace Condition

variable {α : Type}

mutual

/-- A condition with its parts, on one line. -/
def structureText : Condition α → String
  | .all fs => "And(" ++ Text.bracketed (structureTexts fs) ++ ")"
  | .any fs => "Or(" ++ Text.bracketed (structureTexts fs) ++ ")"
  | .not f => "Not(" ++ structureText f ++ ")"
  | .test t => t.structureText

/-- Some conditions with their parts. -/
def structureTexts : List (Condition α) → List String
  | [] => []
  | f :: fs => structureText f :: structureTexts fs

end

end Condition

end RecordQuery
