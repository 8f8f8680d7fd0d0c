import RecordQuery.Reader

/-!
# Derivations

The grammar of queries as a relation between tokens and the condition that they write down, one rule
for each production. A derivation says nothing about how a query is read: `Derives` is what the
reader is compared with, and its last index is the syntax tree of a query, with its negations, with
groups and lists of one element, and with the offset of its name in every call.
-/

namespace RecordQuery.Grammar

/-- `literal ::= integer | text`. An integer has to be in the range of 64 bits. -/
inductive IsLiteral (t : Token) : Literal → Prop
  | integer {n : Int} (kind : t.kind = .integer)
      (value : Literal.decodeWhole t.text.toList = some n) (least : Int64.minValue.toInt ≤ n)
      (greatest : n ≤ Int64.maxValue.toInt) : IsLiteral t (.integer (Int64.ofInt n))
  | text (kind : t.kind = .text) : IsLiteral t (.text (Literal.decodeText t.text))

/-- `call ::= name "(" literal ")"` -/
inductive IsCall : List Token → Call Nat → Prop
  | mk {name opening argument closing : Token} {l : Literal} (named : name.kind = .name)
      (opened : opening.kind = .openParen) (argued : IsLiteral argument l)
      (closed : closing.kind = .closeParen) :
      IsCall [name, opening, argument, closing]
        { name := name.text, argument := l, accessor := name.offset }

/-- `literal ("," literal)*`. All literals have the type of the first one. -/
inductive IsList : List Token → List Literal → Prop
  | literal {t : Token} {l : Literal} (first : IsLiteral t l) : IsList [t] [l]
  | comma {ts : List Token} {c t : Token} {l m : Literal} {ls : List Literal}
      (list : IsList ts (l :: ls)) (separated : c.kind = .comma) (next : IsLiteral t m)
      (sameType : m.type = l.type) : IsList (ts ++ [c, t]) (l :: ls ++ [m])

/-- `comparison ::= call | call relation literal | call relation call
    | call "in" "(" literal ("," literal)* ")" | call "in" call` -/
inductive IsComparison : List Token → Test Nat → Prop
  | call {ts : List Token} {c : Call Nat} (left : IsCall ts c) : IsComparison ts (.call c)
  | compare {ts : List Token} {c : Call Nat} {o t : Token} {r : Relation} {l : Literal}
      (left : IsCall ts c) (related : o.kind = .relation r) (right : IsLiteral t l) :
      IsComparison (ts ++ [o, t]) (.compare c r l)
  | compareCalls {ts us : List Token} {c d : Call Nat} {o : Token} {r : Relation}
      (left : IsCall ts c) (related : o.kind = .relation r) (right : IsCall us d) :
      IsComparison (ts ++ o :: us) (.compareCalls c r d)
  | member {ts us : List Token} {c : Call Nat} {i opening closing : Token} {choices : Choices}
      (left : IsCall ts c) (within : i.kind = .keyword .within)
      (opened : opening.kind = .openParen) (list : IsList us choices.toList)
      (closed : closing.kind = .closeParen) :
      IsComparison (ts ++ i :: opening :: us ++ [closing]) (.member c choices false)
  | memberCall {ts us : List Token} {c d : Call Nat} {i : Token} (left : IsCall ts c)
      (within : i.kind = .keyword .within) (right : IsCall us d) :
      IsComparison (ts ++ i :: us) (.memberCall c d false)

/-- The phrases that contain phrases of their own kind. -/
inductive Phrase where
  | atom
  | item
  | condition
deriving DecidableEq, Repr

/-- `Derives p n ts w`: the tokens `ts` are a `p` with the syntax tree `w`, and at most `n` groups are
    open at once in them. Neither the parentheses of calls and lists nor negations count.

    `condition ::= item ("or" item)*`, `item ::= atom ("and" atom)*`,
    `atom ::= "(" condition ")" | "not" atom | comparison` -/
inductive Derives : Phrase → Nat → List Token → Written → Prop
  | comparison {n : Nat} {ts : List Token} {t : Test Nat} (test : IsComparison ts t) :
      Derives .atom n ts (.test t)
  | negation {n : Nat} {t : Token} {ts : List Token} {w : Written} (negated : t.kind = .keyword .not)
      (operand : Derives .atom n ts w) : Derives .atom n (t :: ts) (.not w)
  | group {n : Nat} {opening closing : Token} {ts : List Token} {w : Written}
      (opened : opening.kind = .openParen) (inside : Derives .condition n ts w)
      (closed : closing.kind = .closeParen) : Derives .atom (n + 1) (opening :: ts ++ [closing]) w
  | item {n : Nat} {ts : List Token} {w : Written} (first : Derives .atom n ts w) :
      Derives .item n ts (.all [w])
  | and {n : Nat} {ts us : List Token} {t : Token} {ws : List Written} {w : Written}
      (before : Derives .item n ts (.all ws)) (joined : t.kind = .keyword .and)
      (last : Derives .atom n us w) : Derives .item n (ts ++ t :: us) (.all (ws ++ [w]))
  | condition {n : Nat} {ts : List Token} {w : Written} (first : Derives .item n ts w) :
      Derives .condition n ts (.any [w])
  | or {n : Nat} {ts us : List Token} {t : Token} {ws : List Written} {w : Written}
      (before : Derives .condition n ts (.any ws)) (joined : t.kind = .keyword .or)
      (last : Derives .item n us w) : Derives .condition n (ts ++ t :: us) (.any (ws ++ [w]))

/-- A token is a literal of the grammar if and only if the reader takes it for one. -/
theorem isLiteral_iff {t : Token} {l : Literal} : IsLiteral t l ↔ t.literal = .ok l := by
  constructor
  · intro literal
    cases literal with
    | integer kind value least greatest =>
      simp only [Token.literal, kind, Literal.decodeInteger, value, Option.bind_some, Literal.fit,
        least, greatest, and_self, if_true]
    | text kind => simp only [Token.literal, kind]
  · intro read
    unfold Token.literal at read
    split at read
    · next kind =>
      split at read
      · next n decoded =>
        obtain ⟨m, value, fits⟩ := Option.bind_eq_some_iff.mp decoded
        unfold Literal.fit at fits
        split at fits
        · next range =>
          cases fits
          cases read
          exact .integer kind value range.1 range.2
        · cases fits
      · cases read
    · next kind =>
      cases read
      exact .text kind
    · cases read

theorem IsList.exists_cons {ts : List Token} {ls : List Literal} (list : IsList ts ls) :
    ∃ m ms, ls = m :: ms := by
  cases list with
  | @literal t l first => exact ⟨l, [], rfl⟩
  | @comma us c t l m ls list separated next sameType => exact ⟨l, ls ++ [m], rfl⟩

theorem IsLiteral.kind {t : Token} {l : Literal} (literal : IsLiteral t l) :
    t.kind = .integer ∨ t.kind = .text := by
  cases literal with
  | integer kind => exact .inl kind
  | text kind => exact .inr kind

/-- A phrase may be read where more groups can be opened. -/
theorem Derives.mono {p : Phrase} {n m : Nat} {ts : List Token} {w : Written}
    (derived : Derives p n ts w) (room : n ≤ m) : Derives p m ts w := by
  induction derived generalizing m with
  | comparison test => exact .comparison test
  | negation negated _ operand => exact .negation negated (operand room)
  | group opened _ closed inside =>
    obtain ⟨m, rfl⟩ := Nat.exists_eq_add_of_le' room
    exact .group opened (inside (Nat.le_add_left _ m)) closed
  | item _ first => exact .item (first room)
  | and _ joined _ before last => exact .and (before room) joined (last room)
  | condition _ first => exact .condition (first room)
  | or _ joined _ before last => exact .or (before room) joined (last room)

/-- A condition is a list of alternatives. -/
theorem Derives.exists_any {n : Nat} {ts : List Token} {w : Written}
    (derived : Derives .condition n ts w) : ∃ ws, w = .any ws := by
  cases derived with
  | condition _ => exact ⟨_, rfl⟩
  | or _ _ _ => exact ⟨_, rfl⟩

/-- Conditions with an "or" between them are the alternatives of both. -/
theorem Derives.alternatives {n : Nat} {ts us : List Token} {t : Token} {ws vs : List Written}
    (left : Derives .condition n ts (.any ws)) (joined : t.kind = .keyword .or)
    (right : Derives .condition n us (.any vs)) :
    Derives .condition n (ts ++ t :: us) (.any (ws ++ vs)) := by
  generalize whole : Formula.any vs = v at right
  generalize phrase : Phrase.condition = q at right
  induction right generalizing vs with
  | condition first =>
    cases whole
    exact .or left joined first
  | or _ joined' last before =>
    cases whole
    have longer := (before left rfl rfl).or joined' last
    rwa [List.append_assoc, List.cons_append, List.append_assoc] at longer
  | comparison | negation | group | item | and => cases phrase

end RecordQuery.Grammar
