import Mathlib
import RecordQuery.Proofs.Compile.Acceptance
import RecordQuery.Proofs.Compile.CallOrder
import RecordQuery.Proofs.Grammar.Completion
import RecordQuery.Proofs.Grammar.Refusal

/-!
# Where a query goes wrong

A misplaced token is reported at the first place where the query can no longer become one of the
grammar, whatever comes after it, and the end of a query is reported only if more words could make it
one: `Registry.reports_first_error`.
-/

namespace RecordQuery

open Grammar

/-- The faults of calls without an accessor. -/
def QueryFault.IsUnbound (fault : QueryFault) : Prop :=
  ∃ name argument suggestion, fault = .unboundCall name argument suggestion

namespace Registry

variable {α : Type}

/-- A query fails with the error that ended its reading, or for a call without an accessor. -/
theorem exists_stopped_of_compile {registry : Registry α} {query : String} {e : QueryError}
    (failed : registry.compile query = .error e) :
    e.fault.IsUnbound ∨ ∃ calls, Reading.ofQuery query = .stopped calls e := by
  have ends := ends_of_compile failed
  generalize Reading.ofQuery query = reading at ends ⊢
  cases ends with
  | stopped => exact .inr ⟨_, rfl⟩
  | unbound => exact .inl ⟨_, _, _, rfl⟩

/-- Queries with one reading are compiled to the same. -/
theorem compile_eq_of_reading (registry : Registry α) {query other : String}
    (same : Reading.ofQuery other = Reading.ofQuery query) :
    registry.compile other = registry.compile query := by
  rw [compile_eq_outcome, compile_eq_outcome, same]

/-- If a token is reported as misplaced, the tokens before it are the beginning of a query of the
    grammar and those up to it of none, and whatever follows it, the same error is reported. If the
    query is reported to end too early, then it ends in an unclosed text and the tokens before that
    are the beginning of a query, or some words after it make it a query of the grammar. -/
theorem reports_first_error (registry : Registry α) (query : String) (e : QueryError)
    (failed : registry.compile query = .error e) :
    (∀ kind, e.fault = .misplaced kind →
      ∃ before t after, tokenize query = before ++ t :: after ∧ t.kind = kind ∧
        t.offset = e.offset ∧ Completable before ∧ ¬ Viable (before ++ [t]) ∧
        ∀ other us, tokenize other = before ++ t :: us → registry.compile other = .error e) ∧
    (e.fault = .endsTooEarly →
      (∃ before t, tokenize query = before ++ [t] ∧ t.kind = .unclosedText ∧ Completable before) ∨
      ∃ more us w, tokenize (query ++ more) = tokenize query ++ us ∧
        Derives .condition maxNesting (tokenize (query ++ more)) w) := by
  rcases exists_stopped_of_compile failed with ⟨name, argument, suggestion, unbound⟩ | ⟨calls, read⟩
  · rw [unbound]
    constructor
    · rintro kind ⟨⟩
    · rintro ⟨⟩
  rcases Reader.takes_of_run read with ⟨before, t, after, s, tokens, takes, refused, rfl⟩ |
    ⟨s, takes, finished, rfl⟩
  · constructor
    · intro kind misplaced
      obtain ⟨sameKind, sameOffset⟩ := Reader.misplaced_of_step refused misplaced
      refine ⟨before, t, after, tokens, sameKind, sameOffset, takes.completable,
        takes.not_viable refused, fun other us others => ?_⟩
      rw [registry.compile_eq_of_reading ((takes.reading refused others).trans read.symm), failed]
    · intro early
      have scans := scans_tokenize query
      rw [tokens] at scans
      have notEnd := scans.kind_ne_finish t (List.mem_append_right before List.mem_cons_self)
      have unclosed := (Reader.endsTooEarly_of_step refused early).resolve_left notEnd
      cases scans.eq_nil_of_unclosed unclosed
      exact .inl ⟨before, t, tokens, unclosed, takes.completable⟩
  · have early := Reader.eq_of_finish finished
    subst early
    refine ⟨by rintro kind ⟨⟩, fun _ => .inr ?_⟩
    obtain ⟨us, tokens, words⟩ := tokenize_append_spell takes.closed s.isLexeme_of_mem_completion
    obtain ⟨w, derived⟩ := takes.derives words
    rw [← tokens] at derived
    exact ⟨_, us, w, tokens, derived⟩

/-- Two comparisons need a connective between them, and a relation needs a right side. -/
theorem reports_missing_word :
    let registry : Registry Bool := { textFallback := some true }
    let query := "rec('ID') = 1 rec('ID') = 2"
    let opened := "rec('ID') ="
    registry.compile query = .error ⟨14, .misplaced .name⟩ ∧
      (∃ before t after, tokenize query = before ++ t :: after ∧ t.kind = .name ∧ t.offset = 14 ∧
        Completable before ∧ ¬ Viable (before ++ [t]) ∧
        ∀ other us, tokenize other = before ++ t :: us →
          registry.compile other = .error ⟨14, .misplaced .name⟩) ∧
      registry.compile opened = .error ⟨11, .endsTooEarly⟩ ∧
      ((∃ before t, tokenize opened = before ++ [t] ∧ t.kind = .unclosedText ∧ Completable before) ∨
        ∃ more us w, tokenize (opened ++ more) = tokenize opened ++ us ∧
          Derives .condition maxNesting (tokenize (opened ++ more)) w) := by
  intro registry query opened
  have misplaced : registry.compile query = .error ⟨14, .misplaced .name⟩ := by cbv
  have early : registry.compile opened = .error ⟨11, .endsTooEarly⟩ := by cbv
  exact ⟨misplaced, (registry.reports_first_error query _ misplaced).1 .name rfl, early,
    (registry.reports_first_error opened _ early).2 rfl⟩

end Registry

end RecordQuery
