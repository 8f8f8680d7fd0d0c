import RecordQuery.Proofs.Token.Word

/-!
# The tokens of a query cover it

Cutting a query into tokens loses nothing but blanks: each token stands in the query at its offset, no
two of them overlap, and what is outside them is blank. Asking for one token after another gives these
tokens and from then on the end of the query, again and again: `tokenize_lossless`.
-/

namespace RecordQuery

namespace Cursor

/-- The place after some more tokens have been read. -/
def advance (p : Cursor) : Nat → Cursor
  | 0 => p
  | k + 1 => p.next.2.advance k

/-- The offset of the end of the query. -/
def endOffset (p : Cursor) : Nat :=
  p.offset + p.rest.length

/-- What is read next: the end of the query, or a token with a part of the text. -/
theorem next_cases (p : Cursor) :
    p.next = (⟨.finish, "", p.endOffset⟩, ⟨[], p.endOffset⟩) ∨
      p.next.1.kind ≠ .finish ∧ p.next.2.endOffset = p.endOffset := by
  obtain ⟨text, n⟩ := p
  obtain ⟨gap, rest, rfl, blanks, ends⟩ := exists_gap text
  rw [next_skip blanks]
  cases rest with
  | nil =>
    left
    rw [endOffset, List.append_nil]
    rfl
  | cons c cs =>
    right
    rw [next_cons (ends c rfl)]
    have whole := congrArg List.length (Lexeme.text_append_rest_first c cs)
    refine ⟨(Lexeme.kind_first c cs).1, ?_⟩
    simp only [endOffset, List.length_append] at whole ⊢
    omega

/-- Reading one token after another gives the tokens of the text, and then its end for ever. -/
theorem next_advance (p : Cursor) (k : Nat) :
    (p.advance k).next.1 = p.tokens[k]?.getD ⟨.finish, "", p.endOffset⟩ := by
  induction k generalizing p with
  | zero =>
    rw [advance]
    cases read : p.next with
    | mk t q =>
      rw [tokens_of_next read]
      rcases p.next_cases with last | ⟨kind, _⟩
      · cases read.symm.trans last
        rfl
      · rw [read] at kind
        rw [if_neg kind]
        rfl
  | succ k ih =>
    rw [advance, ih]
    cases read : p.next with
    | mk t q =>
      rw [tokens_of_next read]
      rcases p.next_cases with last | ⟨kind, same⟩
      · cases read.symm.trans last
        rw [tokens_nil]
        rfl
      · rw [read] at kind same
        rw [if_neg kind, same, List.getElem?_cons_succ]

namespace Scans

variable {n : Nat} {cs : List Char} {ts : List Token}

theorem length_le (scans : Scans n cs ts) : ts.length ≤ cs.length := by
  induction scans with
  | nil => exact Nat.le_refl 0
  | blank _ _ ih => exact Nat.le_succ_of_le ih
  | @token n c cs tail rest k ts _ taken _ ih =>
    have shorter := Lexeme.rest_length_first c cs
    rw [taken] at shorter
    rw [List.length_cons]
    exact Nat.succ_le_of_lt (Nat.lt_of_le_of_lt ih shorter)

/-- Each token stands in the text at its offset. -/
theorem exists_parts (scans : Scans n cs ts) : ∀ t ∈ ts, ∃ before after,
    cs = before ++ (t.text.toList ++ after) ∧ t.offset = n + before.length := by
  induction scans with
  | nil => exact List.forall_mem_nil _
  | @blank n c cs ts _ _ ih =>
    intro t member
    obtain ⟨before, after, rfl, offset⟩ := ih t member
    refine ⟨c :: before, after, rfl, ?_⟩
    rw [offset, List.length_cons]
    omega
  | @token n c cs tail rest k ts _ taken _ ih =>
    have whole := Lexeme.text_append_rest_first c cs
    rw [taken] at whole
    refine List.forall_mem_cons.mpr ⟨⟨[], rest, ?_, rfl⟩, fun t member => ?_⟩
    · rw [String.toList_ofList, ← whole]
      rfl
    · obtain ⟨before, after, rfl, offset⟩ := ih t member
      refine ⟨c :: tail ++ before, after, ?_, ?_⟩
      · rw [← whole, List.append_assoc]
      · rw [offset, List.length_append, Nat.add_assoc]

/-- Each token ends before the next ones begin. -/
theorem ordered (scans : Scans n cs ts) :
    ts.Pairwise fun t u => t.offset + t.text.length ≤ u.offset := by
  induction scans with
  | nil => exact .nil
  | blank _ _ ih => exact ih
  | @token n c cs tail rest k ts _ _ others ih =>
    refine .cons (fun u member => ?_) ih
    obtain ⟨before, _, _, offset⟩ := others.exists_parts u member
    rw [offset, String.length_ofList]
    exact Nat.le_add_right _ _

/-- Each token begins before the next ones do. -/
theorem offsets_increase (scans : Scans n cs ts) : ts.Pairwise fun t u => t.offset < u.offset := by
  induction scans with
  | nil => exact .nil
  | blank _ _ ih => exact ih
  | @token n c cs tail rest k ts _ _ others ih =>
    refine .cons (fun u member => ?_) ih
    obtain ⟨before, _, _, offset⟩ := others.exists_parts u member
    show n < u.offset
    rw [offset, List.length_cons]
    omega

/-- What is outside the tokens is blank. -/
theorem isBlank_of_outside (scans : Scans n cs ts) : ∀ (i : Nat) (d : Char), cs[i]? = some d →
    (∀ t ∈ ts, ¬ (t.offset ≤ n + i ∧ n + i < t.offset + t.text.length)) → Text.isBlank d = true := by
  induction scans with
  | nil =>
    intro i d there
    cases there
  | @blank n c cs ts blank _ ih =>
    intro i d there outside
    cases i with
    | zero =>
      cases there
      exact blank
    | succ i =>
      rw [List.getElem?_cons_succ] at there
      apply ih i d there
      intro t member
      rw [Nat.add_assoc, Nat.add_comm 1]
      exact outside t member
  | @token n c cs tail rest k ts _ taken _ ih =>
    intro i d there outside
    have whole := Lexeme.text_append_rest_first c cs
    rw [taken] at whole
    obtain ⟨notHere, notLater⟩ := List.forall_mem_cons.mp outside
    rw [String.length_ofList] at notHere
    have notHere : ¬ (n ≤ n + i ∧ n + i < n + (c :: tail).length) := notHere
    have after : (c :: tail).length ≤ i := by omega
    rw [← whole, List.getElem?_append_right after] at there
    apply ih _ d there
    intro t member
    have same : n + (c :: tail).length + (i - (c :: tail).length) = n + i := by omega
    rw [same]
    exact notLater t member

/-- The text is its tokens with blanks before each of them and after the last one. -/
theorem exists_gaps (scans : Scans n cs ts) : ∃ gaps last, gaps.length = ts.length ∧
    (∀ gap ∈ last :: gaps, ∀ c ∈ gap, Text.isBlank c = true) ∧
    cs = (List.zipWith (fun gap t => gap ++ t.text.toList) gaps ts).flatten ++ last := by
  induction scans with
  | nil => exact ⟨[], [], rfl, by simp, rfl⟩
  | @blank n c cs ts blank _ ih =>
    obtain ⟨gaps, last, same, blanks, whole⟩ := ih
    -- the blank belongs to the first gap, which is the last one if there is no token
    cases gaps with
    | nil =>
      refine ⟨[], c :: last, same, ?_, ?_⟩
      · simpa [blank] using blanks
      · rw [whole]
        rfl
    | cons gap gaps =>
      cases ts with
      | nil => cases same
      | cons t ts =>
        refine ⟨(c :: gap) :: gaps, last, same, ?_, ?_⟩
        · simpa [blank] using blanks
        · rw [whole]
          rfl
  | @token n c cs tail rest k ts _ taken _ ih =>
    obtain ⟨gaps, last, same, blanks, whole⟩ := ih
    have all := Lexeme.text_append_rest_first c cs
    rw [taken] at all
    refine ⟨[] :: gaps, last, congrArg (· + 1) same, ?_, ?_⟩
    · simpa using blanks
    · rw [← all, whole, List.zipWith_cons_cons, List.flatten_cons, String.toList_ofList,
        List.append_assoc]
      rfl

end Scans

end Cursor

/-- Cutting a query into tokens comes to an end and loses nothing:
    - there are at most as many tokens as the query has characters;
    - each token has a text, which stands in the query at the token's offset;
    - tokens are in the order of their offsets and do not overlap;
    - what is outside the tokens is blank, so that the texts of the tokens with blanks before each of
      them and after the last one make up the query;
    - an unclosed text is the last token;
    - the tokens are what is read one after another from the start of the query, and whatever is read
      after them is the end of the query. -/
theorem tokenize_lossless (query : String) :
    (tokenize query).length ≤ query.length ∧
    (∀ t ∈ tokenize query, t.kind ≠ .finish ∧ t.text ≠ "" ∧
      t.offset + t.text.length ≤ query.length ∧
      (query.toList.drop t.offset).take t.text.length = t.text.toList) ∧
    (tokenize query).Pairwise (fun t u => t.offset < u.offset ∧
      t.offset + t.text.length ≤ u.offset) ∧
    (∀ i c, query.toList[i]? = some c →
      (∀ t ∈ tokenize query, ¬ (t.offset ≤ i ∧ i < t.offset + t.text.length)) →
      Text.isBlank c = true) ∧
    (∃ gaps last, gaps.length = (tokenize query).length ∧
      (∀ gap ∈ last :: gaps, ∀ c ∈ gap, Text.isBlank c = true) ∧
      query.toList =
        (List.zipWith (fun gap t => gap ++ t.text.toList) gaps (tokenize query)).flatten ++ last) ∧
    (∀ before t after, tokenize query = before ++ t :: after → t.kind = .unclosedText →
      after = []) ∧
    ∀ k, ((Cursor.ofQuery query).advance k).next.1 =
      (tokenize query)[k]?.getD ⟨.finish, "", query.length⟩ := by
  have scans := scans_tokenize query
  have hasText : ∀ t ∈ tokenize query, 0 < t.text.length := by
    intro t member
    obtain ⟨c, tail, text, _⟩ := scans.isWhole t member
    have length := congrArg List.length text
    rw [String.length_toList] at length
    show 0 < t.word.text.length
    rw [length]
    exact Nat.succ_pos _
  refine ⟨?_, ?_, ?_, ?_, scans.exists_gaps, ?_, ?_⟩
  · rw [← String.length_toList]
    exact scans.length_le
  · intro t member
    obtain ⟨before, after, whole, offset⟩ := scans.exists_parts t member
    rw [Nat.zero_add] at offset
    refine ⟨scans.kind_ne_finish t member, ?_, ?_, ?_⟩
    · intro empty
      have some := hasText t member
      rw [empty] at some
      cases some
    · have length := congrArg List.length whole
      simp only [List.length_append, String.length_toList] at length
      omega
    · rw [whole, offset, List.drop_left, ← String.length_toList, List.take_left]
  · refine scans.ordered.imp_of_mem fun member _ ends => ⟨?_, ends⟩
    have some := hasText _ member
    omega
  · intro i c there outside
    apply scans.isBlank_of_outside i c there
    rw [Nat.zero_add]
    exact outside
  · intro before t after whole unclosed
    rw [whole] at scans
    exact scans.eq_nil_of_unclosed unclosed
  · intro k
    have last : (Cursor.ofQuery query).endOffset = query.length := by
      rw [Cursor.endOffset, Cursor.ofQuery, Nat.zero_add, String.length_toList]
    rw [Cursor.next_advance, last]
    rfl

end RecordQuery
