import Mathlib
import RecordQuery.Proofs.Compile.Faults
import RecordQuery.Proofs.Literal.Numeral

/-!
# Integers out of range

Where a query can go on with a literal, an integer out of the range of 64 bits ends its reading, and is
reported with its text at its offset. An integer in the range is never reported so: `reads_exactly`.
-/

namespace RecordQuery

open Grammar

/-- After the tokens `ts` the grammar wants a literal: one of them goes on with a query that has begun
    with `ts`. -/
def Grammar.WantsLiteral (ts : List Token) : Prop :=
  ∃ t l, IsLiteral t l ∧ Viable (ts ++ [t])

namespace Reader

variable {r s : Reader} {t u : Token} {ts us : List Token}

/-- The first tokens of a query that is read to its end are taken. -/
theorem exists_takes_of_run {length : Nat} {w : Written}
    (complete : r.run length (ts ++ us) = .complete w) :
    ∃ s, Takes r ts s ∧ s.run length us = .complete w := by
  induction ts generalizing r with
  | nil => exact ⟨r, .nil, complete⟩
  | cons t ts ih =>
    rw [List.cons_append, run] at complete
    split at complete
    · next q step =>
      obtain ⟨s, takes, rest⟩ := ih complete
      exact ⟨s, .cons step takes, rest⟩
    · cases complete

/-- A reader that takes a literal looks at any integer as a literal first. -/
theorem exists_step_eq {l : Literal} (literal : IsLiteral u l) (step : r.step u = .ok s)
    (integer : t.kind = .integer) :
    ∃ f : Literal → Except QueryError Reader, r.step t = t.literal >>= f := by
  have other : ∀ k : TokenKind, k ≠ .integer → k ≠ .text → u.kind ≠ k := by
    rintro k notInteger notText rfl
    rcases literal.kind with kind | kind
    · exact notInteger kind
    · exact notText kind
  cases moves_of_step step with
  | callArgument await | firstChoice await | nextChoice await =>
    simp only [Reader.step, await]
    exact ⟨_, rfl⟩
  | comparand await =>
    simp only [Reader.step, await, integer]
    exact ⟨_, rfl⟩
  | negation _ kind | groupOpening _ kind | callName _ kind | callOpening _ kind
  | callClosing _ kind | relation _ kind | within _ kind | listOpening _ kind | comma _ kind
  | listClosing _ kind | and _ kind | or _ kind | groupClosing _ kind =>
    exact absurd kind (other _ (by simp) (by simp))

end Reader

/-- The grammar wants a literal before each literal of a condition. -/
theorem Grammar.wantsLiteral_of_derives {ts before after : List Token} {t : Token} {w : Written}
    {l : Literal} (derived : Derives .condition maxNesting ts w) (tokens : ts = before ++ t :: after)
    (literal : IsLiteral t l) : WantsLiteral before := by
  rw [tokens, ← List.singleton_append, ← List.append_assoc] at derived
  exact ⟨t, l, literal, after, w, derived⟩

/-- Where the grammar wants a literal, an integer out of range stops the reader. -/
theorem Grammar.WantsLiteral.exists_takes {before : List Token} (wants : WantsLiteral before)
    {t : Token} (integer : t.kind = .integer) (outside : Literal.decodeInteger t.text = none) :
    ∃ s, Reader.Takes {} before s ∧ s.step t = .error ⟨t.offset, .integerOutOfRange t.text⟩ := by
  obtain ⟨u, l, literal, us, w, derived⟩ := wants
  have complete := Reader.run_of_derives derived 0
  rw [List.append_assoc] at complete
  obtain ⟨s, takes, rest⟩ := Reader.exists_takes_of_run complete
  refine ⟨s, takes, ?_⟩
  rw [List.singleton_append, Reader.run] at rest
  split at rest
  · next q step =>
    obtain ⟨f, same⟩ := Reader.exists_step_eq literal step integer
    have refused : t.literal = .error ⟨t.offset, .integerOutOfRange t.text⟩ := by
      simp only [Token.literal, integer, outside]
    rw [same, refused]
    rfl
  · cases rest

namespace Registry

variable {α : Type} {registry : Registry α} {query : String} {before after : List Token} {t : Token}
  {m : Numeral}

/-- If the calls before it have accessors, an integer out of range is reported where the grammar wants a
    literal. -/
theorem compile_outOfRange (tokens : tokenize query = before ++ t :: after)
    (integer : t.kind = .integer) (wants : WantsLiteral before)
    (binds : ∀ c ∈ writtenCalls before, registry.Binds c.argument.type c.name)
    (outside : Literal.decodeInteger t.text = none) :
    registry.compile query = .error ⟨t.offset, .integerOutOfRange t.text⟩ := by
  obtain ⟨s, takes, refused⟩ := wants.exists_takes integer outside
  have read := takes.reading refused tokens
  rw [takes.calls] at read
  have bound : ∀ c ∈ (Reading.ofQuery query).calls, registry.Binds c.argument.type c.name := by
    rwa [read]
  have stops := (outcome_of_binds bound).1
  rw [← compile_eq_outcome, read] at stops
  cases compiled : registry.compile query with
  | ok c =>
    rw [compiled] at stops
    cases stops
  | error e =>
    rw [compiled] at stops
    cases stops
    rfl

/-- A numeral that is reported as an integer out of range is one. -/
theorem not_fits_of_compile {offset : Nat}
    (failed : registry.compile query = .error ⟨offset, .integerOutOfRange m.text⟩) : ¬ m.Fits := by
  rcases isTrueOf_of_compile failed with early | ⟨before, t, after, _, _, said⟩
  · cases congrArg QueryError.fault early
  · generalize fault : QueryFault.integerOutOfRange m.text = f at said
    cases said with
    | @integerOutOfRange n integer value outside =>
      injection fault with text
      have same : m.value = n := by
        rw [← text, Numeral.text, String.toList_ofList, m.decodeWhole_eq] at value
        exact Option.some.inj value
      have least : Int64.minValue.toInt = -2 ^ 63 := by decide
      have greatest : Int64.maxValue.toInt = 2 ^ 63 - 1 := by decide
      rw [Numeral.Fits]
      omega
    | misplaced | unboundCall | nestedTooDeep => cases fault

/-- Every numeral that no digit follows is one token, with all of its text. The literal of that text is
    the integer that the numeral denotes, and there is none if and only if it denotes one out of the range
    of 64 bits. Where the grammar wants a literal and the calls before have accessors, compilation fails
    with that text at the token's offset if and only if the numeral is out of range. Each 64-bit integer
    in decimal is a numeral that is read as that integer. -/
theorem reads_exactly :
    (∀ m : Numeral,
      (∀ rest offset, (∀ d ∈ rest.head?, d.isDigit = false) →
        (⟨m.chars ++ rest, offset⟩ : Cursor).next =
          (⟨.integer, m.text, offset⟩, ⟨rest, offset + m.chars.length⟩)) ∧
      (∀ n : Int64, Literal.decodeInteger m.text = some n ↔ n.toInt = m.value) ∧
      ((∃ n, Literal.decodeInteger m.text = some n) ↔ m.Fits) ∧
      ∀ (α : Type) (registry : Registry α) query before offset after,
        tokenize query = before ++ ⟨.integer, m.text, offset⟩ :: after → WantsLiteral before →
        (∀ c ∈ writtenCalls before, registry.Binds c.argument.type c.name) →
        (registry.compile query = .error ⟨offset, .integerOutOfRange m.text⟩ ↔ ¬ m.Fits)) ∧
    ∀ n : Int64, ∃ m : Numeral, m.text = toString n.toInt ∧ m.value = n.toInt ∧
      Literal.decodeInteger m.text = some n := by
  constructor
  · intro m
    refine ⟨fun rest offset ends => m.next_chars ends offset,
      fun n => Literal.decodeInteger_eq_some_iff, ?_, ?_⟩
    · have unfit := Literal.decodeInteger_eq_none_iff (m := m)
      rw [← Option.not_isSome_iff_eq_none, not_iff_not] at unfit
      exact Option.isSome_iff_exists.symm.trans unfit
    · intro α registry query before offset after tokens wants binds
      constructor
      · exact not_fits_of_compile
      · intro outside
        exact compile_outOfRange tokens rfl wants binds (Literal.decodeInteger_eq_none_iff.mpr outside)
  · intro n
    have read : Literal.decodeInteger (Numeral.ofInteger n).text = some n := by
      rw [Numeral.text_ofInteger]
      exact Literal.decodeInteger_written n
    have value := (Literal.decodeInteger_eq_some_iff.mp read).symm
    exact ⟨.ofInteger n, Numeral.text_ofInteger n, value, read⟩

/-- A number over the range, with a zero in front, as the right side of a comparison; and the least integer
    there. -/
theorem reads_exactly_limits :
    let registry : Registry Bool := { textFallback := some true }
    let beyond : Numeral := ⟨false, '0' :: List.replicate 19 '9', by simp, by simp⟩
    (⟨beyond.chars ++ [')'], 9⟩ : Cursor).next = (⟨.integer, beyond.text, 9⟩, ⟨[')'], 29⟩) ∧
      registry.compile "a('x') = 09999999999999999999" =
        .error ⟨9, .integerOutOfRange "09999999999999999999"⟩ ∧
      registry.compile "a('x') = -9223372036854775808" ≠
        .error ⟨9, .integerOutOfRange "-9223372036854775808"⟩ ∧
      Literal.decodeInteger "-9223372036854775808" = some Int64.minValue := by
  intro registry beyond
  have beyondText : beyond.text = "09999999999999999999" := by cbv
  have leastText : (Numeral.ofInteger Int64.minValue).text = "-9223372036854775808" := by
    rw [Numeral.text_ofInteger]
    decide
  let before : List Token :=
    [⟨.name, "a", 0⟩, ⟨.openParen, "(", 1⟩, ⟨.text, "'x'", 2⟩, ⟨.closeParen, ")", 5⟩]
  let relation : Token := ⟨.relation .equal, "=", 7⟩
  have call : IsCall before ⟨"a", .text "x", 0, false⟩ :=
    .mk rfl rfl (isLiteral_iff.mpr (by cbv)) rfl
  have wants : WantsLiteral (before ++ [relation]) := by
    have literal : IsLiteral ⟨.text, "'y'", 9⟩ (.text "y") := isLiteral_iff.mpr (by cbv)
    exact wantsLiteral_of_derives (.condition (.item (.comparison (.compare call rfl literal)))) rfl
      literal
  have binds : ∀ c ∈ writtenCalls (before ++ [relation]),
      registry.Binds c.argument.type c.name := by
    have calls : writtenCalls (before ++ [relation]) = [⟨"a", .text "x", 0, false⟩] := by cbv
    rw [calls]
    rintro c (_ | ⟨_, ⟨⟩⟩)
    exact .inr rfl
  obtain ⟨lexed, _, _, overstepped⟩ := reads_exactly.1 beyond
  obtain ⟨_, _, inRange, kept⟩ := reads_exactly.1 (.ofInteger Int64.minValue)
  obtain ⟨m, same, _, read⟩ := reads_exactly.2 Int64.minValue
  rw [same, ← Numeral.text_ofInteger] at read
  refine ⟨lexed [')'] 9 (by rintro _ ⟨⟩; decide), ?_, ?_, ?_⟩
  · rw [← beyondText]
    refine (overstepped Bool registry _ _ 9 [] ?_ wants binds).mpr ?_
    · cbv
    · rintro ⟨_, atMost⟩
      revert atMost
      decide
  · rw [← leastText]
    refine (not_congr (kept Bool registry _ _ 9 [] ?_ wants binds)).mpr ?_
    · cbv
    · exact not_not_intro (inRange.mp ⟨_, read⟩)
  · rwa [← leastText]

end Registry

end RecordQuery
