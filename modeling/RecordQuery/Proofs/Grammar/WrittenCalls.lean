import RecordQuery.Proofs.Grammar.Completion
import RecordQuery.Proofs.Grammar.Moves

/-!
# The calls in some tokens

A call is four tokens, and nothing else of a query has a name in it. So the calls of a query can be
picked out of its tokens without reading it: they are those that a reader has collected when it has
taken the tokens (`Reader.Takes.calls`), and those of the tokens' syntax tree
(`Grammar.HasCalls.of_derives`).
-/

namespace RecordQuery

open Grammar

/-- The call with which some tokens begin, if they begin with one. The offset of its name stands in
    the accessor's place. -/
def Call.ofTokens? : List Token → Option (Call Nat)
  | name :: opening :: argument :: closing :: _ =>
    if name.kind = .name ∧ opening.kind = .openParen ∧ closing.kind = .closeParen then
      argument.literal.toOption.map fun l => { name := name.text, argument := l, accessor := name.offset }
    else none
  | _ => none

/-- The calls in some tokens, from left to right. -/
def writtenCalls : List Token → List (Call Nat)
  | [] => []
  | t :: ts => (Call.ofTokens? (t :: ts)).toList ++ writtenCalls ts

variable {ts us : List Token} {t : Token} {c : Call Nat} {cs ds : List (Call Nat)}

theorem Call.ofTokens?_of_isCall (call : IsCall ts c) (us : List Token) :
    ofTokens? (ts ++ us) = some c := by
  cases call with
  | mk named opened argued closed =>
    simp only [List.cons_append, List.nil_append, ofTokens?, named, opened, closed, and_self, if_true,
      isLiteral_iff.mp argued, Except.toOption, Option.map_some]

theorem Call.exists_isCall (found : ofTokens? ts = some c) : ∃ us vs, ts = us ++ vs ∧ IsCall us c := by
  unfold ofTokens? at found
  split at found
  · next name opening argument closing vs =>
    split at found
    · next kinds =>
      obtain ⟨named, opened, closed⟩ := kinds
      cases read : argument.literal with
      | error e =>
        rw [read] at found
        cases found
      | ok l =>
        rw [read] at found
        cases found
        exact ⟨[name, opening, argument, closing], vs, rfl,
          .mk named opened (isLiteral_iff.mpr read) closed⟩
    · cases found
  · cases found

/-- A call begins with its name. -/
theorem Call.ofTokens?_of_kind (notName : t.kind ≠ .name) (ts : List Token) :
    ofTokens? (t :: ts) = none := by
  cases found : ofTokens? (t :: ts) with
  | none => rfl
  | some c =>
    obtain ⟨us, vs, tokens, call⟩ := exists_isCall found
    cases call with
    | mk named =>
      cases tokens
      exact absurd named notName

/-- A call in some tokens stands somewhere in them. -/
theorem exists_of_mem_writtenCalls (member : c ∈ writtenCalls ts) :
    ∃ before us after, ts = before ++ us ++ after ∧ IsCall us c := by
  induction ts with
  | nil => cases member
  | cons t ts ih =>
    rcases List.mem_append.mp member with first | later
    · obtain ⟨us, after, tokens, call⟩ := Call.exists_isCall (Option.mem_toList.mp first)
      exact ⟨[], us, after, tokens, call⟩
    · obtain ⟨before, us, after, rfl, call⟩ := ih later
      exact ⟨t :: before, us, after, rfl, call⟩

namespace Grammar

theorem IsLiteral.not_name {l : Literal} (literal : IsLiteral t l) : t.kind ≠ .name := by
  rcases literal.kind with kind | kind <;> simp [kind]

/-- The calls in `ts` are `cs`, and no tokens after them make any difference to that. -/
def HasCalls (ts : List Token) (cs : List (Call Nat)) : Prop :=
  ∀ us, writtenCalls (ts ++ us) = cs ++ writtenCalls us

namespace HasCalls

theorem nil : HasCalls [] [] :=
  fun _ => rfl

theorem append (first : HasCalls ts cs) (second : HasCalls us ds) : HasCalls (ts ++ us) (cs ++ ds) := by
  intro vs
  rw [List.append_assoc, first, second, List.append_assoc]

/-- A token that is not a name goes before. -/
theorem cons (notName : t.kind ≠ .name) (rest : HasCalls ts cs) : HasCalls (t :: ts) cs := by
  intro us
  rw [List.cons_append, writtenCalls, Call.ofTokens?_of_kind notName, rest]
  rfl

/-- A token that is not a name comes after. -/
theorem snoc (before : HasCalls ts cs) (notName : t.kind ≠ .name) : HasCalls (ts ++ [t]) cs := by
  have longer := before.append (nil.cons notName)
  rwa [List.append_nil] at longer

theorem of_isCall (call : IsCall ts c) : HasCalls ts [c] := by
  intro us
  have first := Call.ofTokens?_of_isCall call us
  cases call with
  | mk named opened argued closed =>
    have others : HasCalls [_, _, _] [] :=
      ((nil.cons (by rw [closed]; decide)).cons argued.not_name).cons (by rw [opened]; decide)
    rw [List.cons_append] at first ⊢
    rw [writtenCalls, first, others]
    rfl

/-- Literals and commas between them have no names. -/
theorem of_isList {ls : List Literal} (list : IsList ts ls) : HasCalls ts [] := by
  induction list with
  | literal first => exact nil.cons first.not_name
  | comma _ separated next _ before =>
    have more : HasCalls [_, _] [] := (nil.cons next.not_name).cons (by rw [separated]; decide)
    exact before.append more

theorem of_isComparison {u : Test Nat} (test : IsComparison ts u) : HasCalls ts u.calls := by
  cases test with
  | call left => exact of_isCall left
  | compare left related right =>
    have others : HasCalls [_, _] [] := (nil.cons right.not_name).cons (by rw [related]; simp)
    exact (of_isCall left).append others
  | compareCalls left related right =>
    exact (of_isCall left).append ((of_isCall right).cons (by rw [related]; simp))
  | member left within opened list closed =>
    have others := ((of_isList list).cons (by rw [opened]; decide)).cons (by rw [within]; decide)
    exact ((of_isCall left).append others).snoc (by rw [closed]; decide)
  | memberCall left within right =>
    exact (of_isCall left).append ((of_isCall right).cons (by rw [within]; decide))

/-- The calls of a phrase are those of its syntax tree. -/
theorem of_derives {p : Phrase} {n : Nat} {w : Written} (derived : Derives p n ts w) :
    HasCalls ts (Condition.calls w) := by
  induction derived with
  | comparison test =>
    rw [Condition.calls_test]
    exact of_isComparison test
  | negation negated _ operand => exact operand.cons (by rw [negated]; decide)
  | group opened _ closed inside =>
    exact (inside.cons (by rw [opened]; decide)).snoc (by rw [closed]; decide)
  | item _ first => rwa [Condition.calls_all_singleton]
  | and _ joined _ before last =>
    rw [Condition.calls_all_append]
    exact before.append (last.cons (by rw [joined]; decide))
  | condition _ first => rwa [Condition.calls_any_singleton]
  | or _ joined _ before last =>
    rw [Condition.calls_any_append]
    exact before.append (last.cons (by rw [joined]; decide))

theorem writtenCalls_eq (calls : HasCalls ts cs) : writtenCalls ts = cs := by
  have whole := calls []
  rwa [List.append_nil, writtenCalls, List.append_nil] at whole

end HasCalls

end Grammar

/-- The tokens of a call that has been read in part; none where a reader is outside a call. -/
def Awaiting.CallTokens : Awaiting → List Token → Prop
  | callOpening _ name offset, ts =>
    ∃ n : Token, n.kind = .name ∧ n.text = name ∧ n.offset = offset ∧ ts = [n]
  | callArgument _ name offset, ts =>
    ∃ n o : Token, n.kind = .name ∧ n.text = name ∧ n.offset = offset ∧ o.kind = .openParen ∧
      ts = [n, o]
  | callClosing _ name offset l, ts =>
    ∃ n o a : Token, n.kind = .name ∧ n.text = name ∧ n.offset = offset ∧ o.kind = .openParen ∧
      IsLiteral a l ∧ ts = [n, o, a]
  | _, ts => ts = []

/-- A call that has been read in part is no call yet. -/
theorem Awaiting.CallTokens.writtenCalls_eq {a : Awaiting} (part : a.CallTokens ts) :
    writtenCalls ts = [] := by
  cases a with
  | callOpening =>
    obtain ⟨n, _, _, _, rfl⟩ := part
    rfl
  | callArgument =>
    obtain ⟨n, o, _, _, _, _, rfl⟩ := part
    rfl
  | callClosing =>
    obtain ⟨n, o, a, _, _, _, _, _, rfl⟩ := part
    rfl
  | operand | afterCall | comparand | collection | choice | afterChoice | connective =>
    cases part
    rfl

namespace Reader

variable {r q s : Reader}

/-- No call has been read in part. -/
def OutsideCall (r : Reader) : Prop :=
  ∀ ts, r.awaiting.CallTokens ts → ts = []

theorem outsideCall_of_role {role : CallRole} (starts : r.awaiting.callRole? = some role) :
    r.OutsideCall := by
  unfold OutsideCall
  generalize r.awaiting = a at starts
  cases a with
  | operand | comparand | collection => exact fun _ none => none
  | callOpening | callArgument | callClosing | afterCall | choice | afterChoice | connective =>
    cases starts

theorem Rests.outsideCall (rests : r.Rests q) : r.OutsideCall := by
  unfold OutsideCall
  cases rests with
  | connective await | bareCall await =>
    rw [await]
    exact fun _ none => none

theorem Rests.calls (rests : r.Rests q) : q.calls = r.calls := by
  cases rests <;> rfl

/-- A reader has collected the calls in the tokens `ts`; the last tokens may be a part of a call. -/
def Collects (r : Reader) (ts : List Token) : Prop :=
  ∃ us vs, ts = us ++ vs ∧ HasCalls us r.calls.reverse ∧ r.awaiting.CallTokens vs

/-- Outside calls there are no tokens of a part. -/
theorem Collects.hasCalls (collects : r.Collects ts) (outside : r.OutsideCall) :
    HasCalls ts r.calls.reverse := by
  obtain ⟨us, vs, rfl, calls, part⟩ := collects
  rwa [outside vs part, List.append_nil]

/-- A token between two calls. -/
theorem Collects.between (collects : r.Collects ts) (outside : r.OutsideCall)
    (notName : t.kind ≠ .name) (same : s.calls = r.calls) (still : s.awaiting.CallTokens []) :
    s.Collects (ts ++ [t]) := by
  have calls := (collects.hasCalls outside).snoc notName
  rw [← same] at calls
  exact ⟨ts ++ [t], [], (List.append_nil _).symm, calls, still⟩

theorem collects_step (collects : r.Collects ts) (step : r.step t = .ok s) :
    s.Collects (ts ++ [t]) := by
  have outside : ∀ {a : Awaiting}, r.awaiting = a → (∀ ts, a.CallTokens ts → ts = []) →
      r.OutsideCall := by
    intro a await none
    rwa [OutsideCall, await]
  -- inside a call a token goes on with the part that has been read, outside it leaves the calls alone
  cases moves_of_step step with
  | negation await negated =>
    exact collects.between (outside await fun _ => id) (by rw [negated]; decide) rfl rfl
  | groupOpening await opened =>
    exact collects.between (outside await fun _ => id) (by rw [opened]; decide) rfl rfl
  | callName starts named =>
    have calls := collects.hasCalls (outsideCall_of_role starts)
    exact ⟨ts, [t], rfl, calls, t, named, rfl, rfl, rfl⟩
  | callOpening await opened =>
    obtain ⟨us, vs, rfl, calls, part⟩ := collects
    rw [await] at part
    obtain ⟨n, named, text, offset, rfl⟩ := part
    exact ⟨us, [n, t], by simp, calls, n, t, named, text, offset, opened, rfl⟩
  | callArgument await argued =>
    obtain ⟨us, vs, rfl, calls, part⟩ := collects
    rw [await] at part
    obtain ⟨n, o, named, text, offset, opened, rfl⟩ := part
    exact ⟨us, [n, o, t], by simp, calls, n, o, t, named, text, offset, opened, argued, rfl⟩
  | @callClosing role name offset l await closed =>
    obtain ⟨us, vs, rfl, calls, part⟩ := collects
    rw [await] at part
    obtain ⟨n, o, a, named, rfl, rfl, opened, argued, rfl⟩ := part
    have more := calls.append (.of_isCall (.mk named opened argued closed))
    have read : (r.callDone role ⟨n.text, l, n.offset, false⟩).calls =
        ⟨n.text, l, n.offset, false⟩ :: r.calls := by
      cases role <;> rfl
    rw [← List.reverse_cons, ← read] at more
    refine ⟨us ++ [n, o, a, t], [], by simp, more, ?_⟩
    cases role <;> rfl
  | relation await related =>
    exact collects.between (outside await fun _ => id) (by rw [related]; simp) rfl rfl
  | within await within =>
    exact collects.between (outside await fun _ => id) (by rw [within]; decide) rfl rfl
  | comparand await right =>
    exact collects.between (outside await fun _ => id) right.not_name rfl rfl
  | listOpening await opened =>
    exact collects.between (outside await fun _ => id) (by rw [opened]; decide) rfl rfl
  | firstChoice await literal =>
    exact collects.between (outside await fun _ => id) literal.not_name rfl rfl
  | nextChoice await literal =>
    exact collects.between (outside await fun _ => id) literal.not_name rfl rfl
  | comma await separated =>
    exact collects.between (outside await fun _ => id) (by rw [separated]; decide) rfl rfl
  | listClosing await closed =>
    exact collects.between (outside await fun _ => id) (by rw [closed]; decide) rfl rfl
  | and rests joined =>
    exact collects.between rests.outsideCall (by rw [joined]; decide) rests.calls rfl
  | or rests joined =>
    exact collects.between rests.outsideCall (by rw [joined]; decide) rests.calls rfl
  | groupClosing rests closed =>
    exact collects.between rests.outsideCall (by rw [closed]; decide) rests.calls rfl

/-- The calls that have been read are those in the tokens that have been taken. -/
theorem Takes.calls (takes : Takes {} ts s) : s.calls.reverse = writtenCalls ts := by
  have start : Collects {} [] := ⟨[], [], rfl, .nil, rfl⟩
  obtain ⟨us, vs, tokens, calls, part⟩ := takes.preserves collects_step start
  rw [List.nil_append] at tokens
  rw [tokens, calls vs, part.writtenCalls_eq, List.append_nil]

end Reader

end RecordQuery
