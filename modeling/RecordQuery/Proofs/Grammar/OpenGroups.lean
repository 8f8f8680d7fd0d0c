import RecordQuery.Proofs.Grammar.Completion

/-!
# How many groups are open

Where an atom may stand, it takes as many closing parentheses to come to the end of a query as groups
are open. So the number of open groups is a matter of the grammar, and a reader has it in the height of
its stack: `Reader.Takes.opens`.
-/

namespace RecordQuery

open Grammar

/-- An atom may stand after the tokens `ts`, and `n` groups are open there: with an atom and closing
    parentheses after them they are a condition if and only if the parentheses are `n`. -/
def Grammar.Opens (n : Nat) (ts : List Token) : Prop :=
  ∀ us w, Derives .atom 0 us w → ∀ closings : List Token,
    (∀ t ∈ closings, t.kind = .closeParen) →
      ((∃ v, Derives .condition maxNesting (ts ++ us ++ closings) v) ↔ closings.length = n)

/-- No more groups are open at once than may be. -/
theorem coversOuter.length_le {outer : List Level} {ts : List Token} (covers : coversOuter outer ts) :
    outer.length ≤ maxNesting := by
  cases outer with
  | nil => exact Nat.zero_le maxNesting
  | cons l outer =>
    obtain ⟨_, _, _, _, _, _, _, free⟩ := covers
    exact free

namespace Reader

variable {r s : Reader} {ts closings : List Token}

theorem Takes.length_outer_le (takes : Takes {} ts s) : s.outer.length ≤ maxNesting := by
  cases takes.covers covers_empty with
  | comparing outer => exact outer.length_le
  | connecting _ outer => exact outer.length_le

/-- After an atom a reader has to close its groups, and nothing else. -/
theorem exists_complete_iff (await : r.awaiting = .connective)
    (closed : ∀ t ∈ closings, t.kind = .closeParen) (length : Nat) :
    (∃ w, r.run length closings = .complete w) ↔ closings.length = r.outer.length := by
  induction closings generalizing r with
  | nil =>
    rw [run, finish, await]
    cases nested : r.outer with
    | nil => simp
    | cons l outer => simp
  | cons t closings ih =>
    obtain ⟨first, others⟩ := List.forall_mem_cons.mp closed
    rw [run, step, await]
    simp only [connect, first]
    cases nested : r.outer with
    | nil => simp
    | cons l outer =>
      rw [List.length_cons, List.length_cons, Nat.add_right_cancel_iff]
      exact ih (r := { r with level := l, outer := outer }.atomDone r.level.condition) rfl others

/-- A reader that waits for an atom has as many levels on its stack as groups are open. -/
theorem Takes.opens (takes : Takes {} ts s) (await : s.awaiting = .operand) :
    Opens s.outer.length ts := by
  intro us w atom closings closed
  have derives_iff : ∀ all, (∃ v, Derives .condition maxNesting all v) ↔
      ∃ v, ({} : Reader).run 0 all = .complete v := by
    intro all
    constructor
    · rintro ⟨v, derived⟩
      exact ⟨v, run_of_derives derived 0⟩
    · rintro ⟨v, complete⟩
      exact ⟨v, derives_of_run covers_empty complete⟩
  -- after the atom the reader is where it was, and only the parentheses are left to read
  obtain ⟨l, _, reads⟩ := reads_of_derives atom s await takes.length_outer_le 0 closings
    (endsComparison_of_closed closed)
  rw [derives_iff, List.append_assoc, takes.run, reads]
  exact exists_complete_iff rfl closed 0

end Reader

end RecordQuery
