import Mathlib
import RecordQuery.Proofs.Condition.Bare
import RecordQuery.Proofs.Condition.Rendering
import RecordQuery.Proofs.Text.Quoted

/-!
# Calls and constants on display

What a dump shows of a test line by line. A constant begins with a digit, a sign or a double quote, and a
call with its name, so that they are told from each other and each from others of its kind
(`OutlineEntry.display_inj`).
-/

namespace RecordQuery

namespace Literal

/-- The characters of an integer. -/
theorem isDigit_or_sign {n : Int} {c : Char} (member : c ∈ (toString n).toList) :
    c.isDigit = true ∨ c = '-' := by
  have digits (m : Nat) (inside : c ∈ Nat.toDigits 10 m) : c.isDigit = true :=
    Nat.isDigit_of_mem_toDigits (by decide) (by decide) inside
  rw [toList_toString_int] at member
  split at member
  · exact .inl (digits _ member)
  · rcases List.mem_cons.mp member with sign | member
    · exact .inr sign
    · exact .inl (digits _ member)

theorem toList_display_ne_nil (l : Literal) : l.display.toList ≠ [] := by
  cases l with
  | integer n =>
    intro none
    have whole := decodeWhole_toString n.toInt
    rw [show (toString n.toInt).toList = [] from none] at whole
    cases whole
  | text s => simp [display, Text.quote]

/-- A constant does not begin as a name or with a blank. -/
theorem not_isNameStart_of_head? {l : Literal} {c : Char} (head : l.display.toList.head? = some c) :
    isNameStart c = false ∧ c ≠ ' ' := by
  cases l with
  | integer n =>
    rcases isDigit_or_sign (List.mem_of_mem_head? head) with digit | rfl
    · refine ⟨not_isNameStart_of_isDigit digit, ?_⟩
      rintro rfl
      cases digit
    · decide
  | text s =>
    simp only [display, Text.quote, String.toList_ofList, List.cons_append, List.head?_cons,
      Option.some.injEq] at head
    subst head
    decide

/-- A constant stays on one line. -/
theorem notMem_display (l : Literal) : '\n' ∉ l.display.toList := by
  cases l with
  | integer n =>
    intro member
    rcases isDigit_or_sign member with digit | sign
    · cases digit
    · cases sign
  | text s => exact Text.notMem_quote s

/-- Constants that are displayed in the same way are the same. -/
theorem display_injective : Function.Injective display := by
  have quoted (n : Int64) (s : String) : display (.integer n) ≠ display (.text s) := by
    intro same
    have inside : '"' ∈ (toString n.toInt).toList := by
      rw [show toString n.toInt = Text.quote s from same]
      simp [Text.quote]
    rcases isDigit_or_sign inside with digit | sign
    · cases digit
    · cases sign
  intro l m same
  cases l with
  | integer n =>
    cases m with
    | integer k =>
      have whole := decodeWhole_toString n.toInt
      rw [show toString n.toInt = toString k.toInt from same, decodeWhole_toString k.toInt] at whole
      rw [Int64.toInt_inj.mp (Option.some.inj whole)]
    | text s => exact absurd same (quoted n s)
  | text s =>
    cases m with
    | integer n => exact absurd same.symm (quoted n s)
    | text t => rw [Text.quote_injective same]

end Literal

theorem IsName.isNamePart_of_mem {s : String} (named : IsName s) {c : Char} (member : c ∈ s.toList) :
    isNamePart c = true := by
  obtain ⟨d, ds, chars, start, parts⟩ := named.shape
  rw [chars] at member
  rcases List.mem_cons.mp member with rfl | member
  · exact Bool.or_eq_true_iff.mpr (.inl start)
  · exact parts c member

namespace Call

variable {α β : Type}

theorem toList_display (c : Call α) :
    c.display.toList = c.name.toList ++ '(' :: (c.argument.display.toList ++ [')']) := by
  simp [display]

/-- A call as a test of its own. -/
def line (c : Call α) : String :=
  (if c.negated then "NOT " else "") ++ c.display

/-- What stands before the parenthesis in the line of a call. -/
def lineStart (c : Call α) : List Char :=
  (if c.negated then ['N', 'O', 'T', ' '] else []) ++ c.name.toList

theorem toList_line (c : Call α) :
    c.line.toList = c.lineStart ++ '(' :: (c.argument.display.toList ++ [')']) := by
  rw [line, lineStart, String.toList_append, toList_display, List.append_assoc]
  split <;> rfl

theorem mem_lineStart {c : Call α} (named : IsName c.name) {d : Char} (member : d ∈ c.lineStart) :
    isNamePart d = true ∨ d = ' ' := by
  rcases List.mem_append.mp member with mark | name
  · split at mark
    · simp only [List.mem_cons, List.not_mem_nil, or_false] at mark
      rcases mark with rfl | rfl | rfl | rfl <;> decide
    · cases mark
  · exact .inl (named.isNamePart_of_mem name)

/-- Only the line of an inverted call has a blank in front of the parenthesis. -/
theorem blank_mem_lineStart_iff {c : Call α} (named : IsName c.name) :
    ' ' ∈ c.lineStart ↔ c.negated = true := by
  constructor
  · intro member
    rcases List.mem_append.mp member with mark | name
    · split at mark
      · assumption
      · cases mark
    · exact absurd (named.isNamePart_of_mem name) (by decide)
  · intro negated
    rw [lineStart, if_pos negated]
    exact List.mem_append_left _ (by decide)

/-- A call is told by its line. -/
theorem bare_eq_of_line {c : Call α} {d : Call β} (named : IsName c.name) (named' : IsName d.name)
    (same : c.line = d.line) : c.bare = d.bare := by
  have noParen {γ : Type} {e : Call γ} (named : IsName e.name) : '(' ∉ e.lineStart := by
    intro member
    rcases mem_lineStart named member with part | blank
    · revert part
      decide
    · cases blank
  have chars := congrArg String.toList same
  rw [toList_line, toList_line] at chars
  obtain ⟨start, rest⟩ := Text.append_cons_inj (noParen named) (noParen named') chars
  have argument := Literal.display_injective (String.toList_inj.mp (List.append_cancel_right rest))
  have negated : c.negated = d.negated := by
    rw [Bool.eq_iff_iff, ← blank_mem_lineStart_iff named, ← blank_mem_lineStart_iff named', start]
  have name : c.name = d.name := by
    rw [lineStart, lineStart, negated] at start
    exact String.toList_inj.mp (List.append_cancel_left start)
  obtain ⟨_, _, _, _⟩ := c
  obtain ⟨_, _, _, _⟩ := d
  cases name
  cases argument
  cases negated
  rfl

/-- The line of a call begins with a letter. -/
theorem isNameStart_of_head?_line {c : Call α} (named : IsName c.name) {d : Char}
    (head : c.line.toList.head? = some d) : isNameStart d = true := by
  rw [toList_line, lineStart] at head
  split at head
  · cases head
    decide
  · obtain ⟨e, es, chars, start, _⟩ := named.shape
    rw [chars] at head
    cases head
    exact start

/-- The line of a call is one line. -/
theorem notMem_line {c : Call α} (named : IsName c.name) : '\n' ∉ c.line.toList := by
  have start : '\n' ∉ c.lineStart := by
    intro member
    rcases mem_lineStart named member with part | blank
    · revert part
      decide
    · cases blank
  simp [toList_line, start, c.argument.notMem_display]

theorem display_eq_line {c : Call α} (asserted : c.negated = false) : c.display = c.line := by
  simp [line, asserted]

end Call

/-- What a line inside the outline of a test shows. -/
inductive OutlineEntry where
  | call (c : Call Unit)
  | literal (l : Literal)
deriving DecidableEq, Repr

namespace OutlineEntry

/-- An entry as it is shown. -/
def display : OutlineEntry → String
  | call c => c.display
  | literal l => l.display

/-- The entries of a test in normal form. -/
def IsPlain : OutlineEntry → Prop
  | call c => c.IsPlain
  | literal _ => True

/-- An entry is told by how it is shown. -/
theorem display_inj {e f : OutlineEntry} (plain : e.IsPlain) (plain' : f.IsPlain)
    (same : e.display = f.display) : e = f := by
  have differ {c : Call Unit} (plain : c.IsPlain) (l : Literal) : c.display ≠ l.display := by
    intro same
    obtain ⟨d, ds, chars⟩ := List.exists_cons_of_ne_nil l.toList_display_ne_nil
    have head : l.display.toList.head? = some d := by rw [chars, List.head?_cons]
    have literal := (Literal.not_isNameStart_of_head? head).1
    rw [← same, Call.display_eq_line plain.asserted] at head
    rw [Call.isNameStart_of_head?_line plain.named head] at literal
    cases literal
  cases e with
  | call c =>
    cases f with
    | call d =>
      rw [display, display, Call.display_eq_line plain.asserted,
        Call.display_eq_line plain'.asserted] at same
      exact congrArg call (Call.bare_eq_of_line plain.named plain'.named same)
    | literal m => exact absurd same (differ plain m)
  | literal l =>
    cases f with
    | call d => exact absurd same.symm (differ plain' l)
    | literal m => rw [Literal.display_injective same]

theorem map_display_inj {es fs : List OutlineEntry} (plain : ∀ e ∈ es, e.IsPlain)
    (plain' : ∀ f ∈ fs, f.IsPlain) (same : es.map display = fs.map display) : es = fs := by
  induction es generalizing fs with
  | nil =>
    rw [List.map_nil, eq_comm, List.map_eq_nil_iff] at same
    exact same.symm
  | cons e es ih =>
    cases fs with
    | nil => cases same
    | cons f fs =>
      obtain ⟨first, others⟩ := List.cons.inj same
      obtain ⟨plain, plains⟩ := List.forall_mem_cons.mp plain
      obtain ⟨plain', plains'⟩ := List.forall_mem_cons.mp plain'
      rw [display_inj plain plain' first, ih plains plains' others]

end OutlineEntry

end RecordQuery
