import RecordQuery.Proofs.Compile.Resolution
import RecordQuery.Proofs.Token.Coverage

/-!
# The calls before an error

A reading that ends with an error has read the calls of the query that stand before the error, and no
others: `Reading.exists_later_calls`. So these calls can be told from the tokens of the query and the
offset of the error.
-/

namespace RecordQuery

open Grammar

variable {ts before : List Token} {t : Token} {query : String}

/-- The calls in some tokens begin at some of the tokens, in the same order. -/
theorem writtenCalls_sublist (ts : List Token) :
    ((writtenCalls ts).map Call.accessor).Sublist (ts.map Token.offset) := by
  induction ts with
  | nil => exact .slnil
  | cons t ts ih =>
    rw [writtenCalls]
    cases found : Call.ofTokens? (t :: ts) with
    | none => exact ih.cons _
    | some c =>
      obtain ⟨us, vs, tokens, call⟩ := Call.exists_isCall found
      cases call
      cases tokens
      exact ih.cons_cons _

/-- The calls of a query are in the order of their offsets. -/
theorem writtenCalls_increase (query : String) :
    (writtenCalls (tokenize query)).Pairwise fun c d => c.accessor < d.accessor := by
  have offsets : ((tokenize query).map Token.offset).Pairwise (· < ·) :=
    List.pairwise_map.mpr (scans_tokenize query).offsets_increase
  exact List.pairwise_map.mp (offsets.sublist (writtenCalls_sublist _))

/-- What holds of the offsets of some tokens holds of those of the calls in them. -/
theorem forall_mem_writtenCalls {P : Nat → Prop} (offsets : ∀ t ∈ ts, P t.offset) :
    ∀ c ∈ writtenCalls ts, P c.accessor := by
  intro c member
  obtain ⟨t, inside, offset⟩ :=
    List.mem_map.mp ((writtenCalls_sublist ts).subset (List.mem_map_of_mem member))
  exact offset ▸ offsets t inside

theorem writtenCalls_cons_of_not_isCall (noCall : ∀ us vs c, t :: ts = us ++ vs → ¬ IsCall us c) :
    writtenCalls (t :: ts) = writtenCalls ts := by
  rw [writtenCalls]
  cases found : Call.ofTokens? (t :: ts) with
  | none => rfl
  | some c =>
    obtain ⟨us, vs, tokens, call⟩ := Call.exists_isCall found
    exact absurd call (noCall us vs c tokens)

theorem writtenCalls_cons_of_kind (notName : t.kind ≠ .name) (ts : List Token) :
    writtenCalls (t :: ts) = writtenCalls ts := by
  rw [writtenCalls, Call.ofTokens?_of_kind notName]
  rfl

namespace Reader

variable {r s : Reader} {e : QueryError} {vs : List Token}

/-- What has been read of a call does not become one with a token that is refused there. -/
theorem writtenCalls_of_refused (part : r.awaiting.CallTokens vs) (refused : r.step t = .error e)
    (after : List Token) : writtenCalls (vs ++ t :: after) = writtenCalls (t :: after) := by
  cases await : r.awaiting with
  | callOpening role name offset =>
    rw [await] at part
    obtain ⟨n, _, _, _, rfl⟩ := part
    refine writtenCalls_cons_of_not_isCall fun us vs c tokens call => ?_
    cases call with
    | mk _ opened _ _ =>
      cases tokens
      simp only [step, await, opened] at refused
      cases refused
  | callArgument role name offset =>
    rw [await] at part
    obtain ⟨n, o, _, _, _, opened, rfl⟩ := part
    refine (writtenCalls_cons_of_not_isCall fun us vs c tokens call => ?_).trans
      (writtenCalls_cons_of_kind (by rw [opened]; decide) _)
    cases call with
    | mk _ _ argued _ =>
      cases tokens
      simp only [step, await, isLiteral_iff.mp argued] at refused
      cases refused
  | callClosing role name offset l =>
    rw [await] at part
    obtain ⟨n, o, a, _, _, _, opened, argued, rfl⟩ := part
    refine (writtenCalls_cons_of_not_isCall fun us vs c tokens call => ?_).trans
      ((writtenCalls_cons_of_kind (by rw [opened]; decide) _).trans
        (writtenCalls_cons_of_kind argued.not_name _))
    cases call with
    | mk _ _ _ closed =>
      cases tokens
      simp only [step, await, closed] at refused
      cases refused
  | operand | afterCall | comparand | collection | choice | afterChoice | connective =>
    rw [await] at part
    cases part
    rfl

/-- The calls of a query are those that have been read when a token is refused, and then those from
    that token on. -/
theorem Takes.calls_of_refused (takes : Takes {} before s) (refused : s.step t = .error e)
    (after : List Token) :
    writtenCalls (before ++ t :: after) = s.calls.reverse ++ writtenCalls (t :: after) := by
  have start : Collects {} [] := ⟨[], [], rfl, .nil, rfl⟩
  obtain ⟨us, vs, tokens, calls, part⟩ := takes.preserves collects_step start
  rw [List.nil_append] at tokens
  rw [tokens, List.append_assoc, calls, writtenCalls_of_refused part refused]

end Reader

namespace Reading

variable {calls : List (Call Nat)} {e : QueryError} {w : Written}

theorem writtenCalls_of_complete (read : ofQuery query = .complete w) :
    writtenCalls (tokenize query) = Condition.calls w :=
  (HasCalls.of_derives ((ofQuery_eq_complete_iff query w).mp read)).writtenCalls_eq

/-- When a reading ends with an error, the calls that have been read are those of the query that begin
    before the error. -/
theorem exists_later_calls (read : ofQuery query = .stopped calls e) :
    ∃ later, writtenCalls (tokenize query) = calls ++ later ∧
      (∀ c ∈ calls, c.accessor < e.offset) ∧ ∀ c ∈ later, e.offset ≤ c.accessor := by
  have scans := scans_tokenize query
  rcases Reader.takes_of_run read with ⟨before, t, after, s, tokens, takes, refused, rfl⟩ |
    ⟨s, takes, finished, rfl⟩
  · refine ⟨writtenCalls (t :: after), by rw [tokens, takes.calls_of_refused refused], ?_⟩
    rw [takes.calls]
    obtain ⟨_, increase, apart⟩ := List.pairwise_append.mp (tokens ▸ scans.offsets_increase)
    rcases (Reader.place_of_step tokens refused).2 with here | rfl
    · rw [here]
      constructor
      · exact forall_mem_writtenCalls (P := (· < t.offset)) fun u earlier =>
          apart u earlier t List.mem_cons_self
      · refine forall_mem_writtenCalls (P := (t.offset ≤ ·)) (List.forall_mem_cons.mpr ⟨?_, ?_⟩)
        · exact Nat.le_refl _
        · exact fun u later => Nat.le_of_lt (List.rel_of_pairwise_cons increase later)
    · -- the refused token is an unclosed text, which is the last token of the query
      rw [tokens] at scans
      have unclosed := (Reader.endsTooEarly_of_step refused rfl).resolve_left
        (scans.kind_ne_finish t (List.mem_append_right before List.mem_cons_self))
      cases scans.eq_nil_of_unclosed unclosed
      constructor
      · exact forall_mem_writtenCalls (P := (· < query.length)) fun u earlier =>
          Token.offset_lt_length (tokens ▸ List.mem_append_left [t] earlier)
      · rw [writtenCalls_cons_of_kind (by rw [unclosed]; decide)]
        exact List.forall_mem_nil _
  · have early := Reader.eq_of_finish finished
    subst early
    rw [takes.calls]
    exact ⟨[], (List.append_nil _).symm, forall_mem_writtenCalls (P := (· < query.length))
      fun u inside => Token.offset_lt_length inside, List.forall_mem_nil _⟩

/-- The calls that have been read are the first ones of the query. -/
theorem exists_calls_append (query : String) :
    ∃ later, writtenCalls (tokenize query) = (ofQuery query).calls ++ later := by
  cases read : ofQuery query with
  | complete w => exact ⟨[], (writtenCalls_of_complete read).trans (List.append_nil _).symm⟩
  | stopped calls e =>
    obtain ⟨later, written, _⟩ := exists_later_calls read
    exact ⟨later, written⟩

end Reading

end RecordQuery
