import Mathlib
import RecordQuery.Proofs.Compile.Resolution
import RecordQuery.Proofs.Grammar.OpenGroups

/-!
# Errors tell what is wrong

An error names the place of a token, and what it says is true of the token and of what stands around it:
`compile_fault`. Only the end of a query is no token; there is nothing to say about it but where it is.
-/

namespace RecordQuery

open Grammar

/-- What a fault says about the token `t` of a query, with the tokens before it and after it. -/
inductive QueryFault.IsTrueOf {α : Type} (registry : Registry α) (before : List Token) (t : Token)
    (after : List Token) : QueryFault → Prop
  | misplaced (inside : t.kind ≠ .finish) (closed : t.kind ≠ .unclosedText) :
      IsTrueOf registry before t after (.misplaced t.kind)
  | integerOutOfRange {n : Int} (integer : t.kind = .integer)
      (value : Literal.decodeWhole t.text.toList = some n)
      (outside : n < Int64.minValue.toInt ∨ Int64.maxValue.toInt < n) :
      IsTrueOf registry before t after (.integerOutOfRange t.text)
  | unboundCall {opening argument closing : Token} {rest : List Token} {l : Literal}
      (tokens : after = opening :: argument :: closing :: rest) (named : t.kind = .name)
      (opened : opening.kind = .openParen) (argued : IsLiteral argument l)
      (closed : closing.kind = .closeParen) (unregistered : t.text ∉ (registry.methods l.type).names)
      (noFallback : registry.fallback l.type = none) :
      IsTrueOf registry before t after
        (.unboundCall t.text l.type (registry.suggest l.type t.text))
  | nestedTooDeep (opened : t.kind = .openParen) (inside : Opens 64 before) :
      IsTrueOf registry before t after (.nestedTooDeep 64)

namespace Registry

variable {α : Type} {registry : Registry α} {query : String} {before after : List Token} {t : Token}
  {e : QueryError}

/-- What is said of a token that a reader refuses. -/
theorem isTrueOf_of_step {s : Reader} (tokens : tokenize query = before ++ t :: after)
    (takes : Reader.Takes {} before s) (refused : s.step t = .error e) :
    e = ⟨query.length, .endsTooEarly⟩ ∨
      t.offset = e.offset ∧ e.fault.IsTrueOf registry before t after := by
  have member : t ∈ tokenize query := by simp [tokens]
  cases Reader.refusal_of_step refused with
  | unexpected =>
    rcases QueryError.unexpected_cases member with early | ⟨misplaced, inside, closed⟩
    · exact .inl early
    · rw [misplaced]
      exact .inr ⟨rfl, .misplaced inside closed⟩
  | outOfRange integer value =>
    have whole := (scans_tokenize query).isWhole t member
    have numeral : IsNumeral t.text := Word.isNumeral_of_isWhole whole integer
    obtain ⟨n, number⟩ := numeral.exists_value
    refine .inr ⟨rfl, .integerOutOfRange integer number ?_⟩
    rw [Literal.decodeInteger, number, Option.bind_some, Literal.fit] at value
    split at value
    · cases value
    · next outside => omega
  | tooDeep await opened full =>
    have limit : s.outer.length = 64 := Nat.le_antisymm takes.length_outer_le full
    have inside := takes.opens await
    rw [limit] at inside
    exact .inr ⟨rfl, .nestedTooDeep opened inside⟩

/-- What is said of a call without an accessor. -/
theorem isTrueOf_of_not_binds {taken rest : List Token} {c : Call Nat}
    (tokens : tokenize query = taken ++ rest) (written : c ∈ writtenCalls taken)
    (unbound : ¬ registry.Binds c.argument.type c.name) :
    ∃ before t after, tokenize query = before ++ t :: after ∧ t.offset = c.accessor ∧
      (registry.unboundError c).fault.IsTrueOf registry before t after := by
  obtain ⟨before, us, after, rfl, call⟩ := exists_of_mem_writtenCalls written
  cases call with
  | @mk name opening argument closing l named opened argued closed =>
    rw [Binds, not_or, Option.not_isSome_iff_eq_none] at unbound
    refine ⟨before, name, opening :: argument :: closing :: (after ++ rest), ?_, rfl, ?_⟩
    · rw [tokens]
      simp only [List.append_assoc, List.cons_append, List.nil_append]
    · exact .unboundCall rfl named opened argued closed unbound.1 unbound.2

/-- What is said of a query that is not compiled. -/
theorem isTrueOf_of_compile (failed : registry.compile query = .error e) :
    e = ⟨query.length, .endsTooEarly⟩ ∨
      ∃ before t after, tokenize query = before ++ t :: after ∧ t.offset = e.offset ∧
        e.fault.IsTrueOf registry before t after := by
  have ends := ends_of_compile failed
  generalize read : Reading.ofQuery query = reading at ends
  cases ends with
  | stopped =>
    rcases Reader.takes_of_run read with ⟨before, t, after, s, tokens, takes, refused, _⟩ |
      ⟨s, takes, finished, _⟩
    · rcases isTrueOf_of_step tokens takes refused with early | ⟨here, holds⟩
      · exact .inl early
      · exact .inr ⟨before, t, after, tokens, here, holds⟩
    · exact .inl (Reader.eq_of_finish finished)
  | @unbound _ earlier later c order bound unbound =>
    obtain ⟨taken, syntactic, calls⟩ := Reading.exists_syntacticOutcome query
    obtain ⟨rest, tokens⟩ := syntactic.exists_rest
    have written : c ∈ writtenCalls taken := by simp [← calls, read, order]
    exact .inr (isTrueOf_of_not_binds tokens written unbound)

/-- An error of a query says that it ends too early, at its end, or stands at a token inside the query
    and says something true about it: that it is of a kind that can be read; that it is an integer with
    the given text, out of the range of 64 bits; that it is the given name of a call with an argument of
    the given type, for which no accessor is registered and no fallback is set; or that it is a
    parenthesis where an atom may stand and 64 groups are open. -/
theorem compile_fault (registry : Registry α) (query : String) (e : QueryError)
    (failed : registry.compile query = .error e) :
    e = ⟨query.length, .endsTooEarly⟩ ∨
      ∃ before t after, tokenize query = before ++ t :: after ∧ t.offset = e.offset ∧
        e.offset < query.length ∧ e.fault.IsTrueOf registry before t after := by
  rcases isTrueOf_of_compile failed with early | ⟨before, t, after, tokens, here, holds⟩
  · exact .inl early
  · have inside : t.offset < query.length := by
      apply Token.offset_lt_length
      simp [tokens]
    rw [here] at inside
    exact .inr ⟨before, t, after, tokens, here, inside, holds⟩

/-- A call without an accessor before a number out of range, and a group inside 64 others. -/
theorem compile_fault_nested :
    let registry : Registry Bool := { integerFallback := some true }
    let unbound := "a(1) and bc('x') = 9223372036854775808"
    let nested := String.ofList (List.replicate 65 '(')
    registry.compile unbound = .error ⟨9, .unboundCall "bc" .text none⟩ ∧
      (∃ before t after, tokenize unbound = before ++ t :: after ∧ t.offset = 9 ∧
        9 < unbound.length ∧
        QueryFault.IsTrueOf registry before t after (.unboundCall "bc" .text none)) ∧
      registry.compile nested = .error ⟨64, .nestedTooDeep 64⟩ ∧
      ∃ before t after, tokenize nested = before ++ t :: after ∧ t.offset = 64 ∧
        64 < nested.length ∧ QueryFault.IsTrueOf registry before t after (.nestedTooDeep 64) := by
  intro registry unbound nested
  have missing : registry.compile unbound = .error ⟨9, .unboundCall "bc" .text none⟩ := by cbv
  have deep : registry.compile nested = .error ⟨64, .nestedTooDeep 64⟩ := by cbv
  refine ⟨missing, ?_, deep, ?_⟩
  · rcases registry.compile_fault unbound _ missing with early | said
    · cases congrArg QueryError.fault early
    · exact said
  · rcases registry.compile_fault nested _ deep with early | said
    · cases congrArg QueryError.fault early
    · exact said

end Registry

end RecordQuery
