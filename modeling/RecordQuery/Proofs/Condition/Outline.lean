import Mathlib
import RecordQuery.Condition.Outline
import RecordQuery.Proofs.Condition.Display

/-!
# Outlines tell conditions apart

The lines of an outline are recovered from its text (`lines_injective`): each ends at its newline, and
begins where its indentation ends. From the lines a condition in normal form is recovered but for its
accessors (`Condition.outline_append_inj`): the first line tells what kind of condition it is, lines of a
deeper level belong to it, and the next one of its own level closes it.
-/

namespace RecordQuery

namespace OutlineLine

/-- A text that begins where the indentation of its line ends, and ends where the line does. -/
structure IsPlain (text : String) : Prop where
  unbroken : '\n' ∉ text.toList
  flush : text.toList.head? ≠ some ' '

theorem toList_render_append (l : OutlineLine) (x : List Char) : l.render.toList ++ x =
    (List.replicate (2 * l.level) ' ' ++ l.text.toList) ++ '\n' :: x := by
  simp [render]

/-- Blanks and what follows them are told apart if what follows does not begin with one. -/
theorem replicate_append_inj {m n : Nat} {xs ys : List Char} (flush : xs.head? ≠ some ' ')
    (flush' : ys.head? ≠ some ' ')
    (same : List.replicate m ' ' ++ xs = List.replicate n ' ' ++ ys) : m = n ∧ xs = ys := by
  induction m generalizing n with
  | zero =>
    cases n with
    | zero => exact ⟨rfl, same⟩
    | succ n =>
      rw [List.replicate_zero, List.nil_append] at same
      exact absurd (same ▸ rfl) flush
  | succ m ih =>
    cases n with
    | zero =>
      rw [List.replicate_zero, List.nil_append] at same
      exact absurd (same ▸ rfl) flush'
    | succ n =>
      obtain ⟨rfl, rest⟩ := ih (List.cons.inj same).2
      exact ⟨rfl, rest⟩

/-- A line and what follows it are told by their text. -/
theorem render_append_inj {k l : OutlineLine} {x y : List Char} (plain : IsPlain k.text)
    (plain' : IsPlain l.text) (same : k.render.toList ++ x = l.render.toList ++ y) : k = l ∧ x = y := by
  have unbroken {l : OutlineLine} (plain : IsPlain l.text) :
      '\n' ∉ List.replicate (2 * l.level) ' ' ++ l.text.toList := by
    simp [plain.unbroken]
  rw [toList_render_append, toList_render_append] at same
  obtain ⟨line, rest⟩ := Text.append_cons_inj (unbroken plain) (unbroken plain') same
  obtain ⟨level, text⟩ := replicate_append_inj plain.flush plain'.flush line
  obtain ⟨_, _⟩ := k
  obtain ⟨_, _⟩ := l
  cases String.toList_inj.mp text
  cases Nat.eq_of_mul_eq_mul_left (by decide) level
  exact ⟨rfl, rest⟩

/-- Lines are told by the text that they make. -/
theorem lines_injective {ks ls : List OutlineLine} (plain : ∀ k ∈ ks, IsPlain k.text)
    (plain' : ∀ l ∈ ls, IsPlain l.text)
    (same : String.join (ks.map render) = String.join (ls.map render)) : ks = ls := by
  replace same := congrArg String.toList same
  rw [String.toList_join, String.toList_join] at same
  induction ks generalizing ls with
  | nil =>
    cases ls with
    | nil => rfl
    | cons l ls => simp [render] at same
  | cons k ks ih =>
    cases ls with
    | nil => simp [render] at same
    | cons l ls =>
      obtain ⟨plain, plains⟩ := List.forall_mem_cons.mp plain
      obtain ⟨plain', plains'⟩ := List.forall_mem_cons.mp plain'
      obtain ⟨rfl, rest⟩ := render_append_inj plain plain' same
      rw [ih plains plains' rest]

end OutlineLine

/-- The groups of an outline. -/
inductive OutlineLabel where
  | all
  | any
  | compare (r : Relation)
  | member (negated : Bool)
deriving DecidableEq, Repr

namespace OutlineLabel

/-- The first line of a group. -/
def text : OutlineLabel → String
  | all => "AND ("
  | any => "OR ("
  | compare r => Test.compareLabel r ++ " ("
  | member negated => Test.memberLabel negated ++ " ("

/-- Every group. -/
def every : List OutlineLabel :=
  [all, any, member false, member true] ++ Relation.all.map compare

theorem mem_every (l : OutlineLabel) : l ∈ every := by
  rcases l with _ | _ | r | negated
  · decide
  · decide
  · cases r <;> decide
  · cases negated <;> decide

theorem text_injective : Function.Injective text := by
  have differ : ∀ k ∈ every, ∀ l ∈ every, k.text = l.text → k = l := by decide
  intro k l
  exact differ k k.mem_every l l.mem_every

/-- The first line of a group is not that of a call. -/
theorem text_ne_line {α : Type} (l : OutlineLabel) (c : Call α) : l.text ≠ c.line := by
  have opens : ∀ l ∈ every, l.text.toList.getLast? = some '(' := by decide
  intro same
  have last := opens l l.mem_every
  rw [same, Call.toList_line, ← List.cons_append, ← List.append_assoc, List.getLast?_concat] at last
  cases last

theorem isPlain_text (l : OutlineLabel) : OutlineLine.IsPlain l.text := by
  have unbroken : ∀ l ∈ every, '\n' ∉ l.text.toList := by decide
  have flush : ∀ l ∈ every, l.text.toList.head? ≠ some ' ' := by decide
  exact ⟨unbroken l l.mem_every, flush l l.mem_every⟩

end OutlineLabel

theorem OutlineLine.isPlain_closing : IsPlain ")" :=
  ⟨by decide, by decide⟩

theorem Call.isPlain_line {α : Type} {c : Call α} (named : IsName c.name) :
    OutlineLine.IsPlain c.line := by
  refine ⟨notMem_line named, fun head => ?_⟩
  exact absurd (isNameStart_of_head?_line named head) (by decide)

theorem OutlineEntry.isPlain_display {e : OutlineEntry} (plain : e.IsPlain) :
    OutlineLine.IsPlain e.display := by
  cases e with
  | call c =>
    rw [display, Call.display_eq_line plain.asserted]
    exact Call.isPlain_line plain.named
  | literal l =>
    exact ⟨l.notMem_display, fun head => (Literal.not_isNameStart_of_head? head).2 rfl⟩

/-- Lists of constants are told by their constants, if there are any. -/
theorem Choices.eq_of_ne_nil {choices choices' : Choices} (some : choices.toList ≠ [])
    (same : choices.toList = choices'.toList) : choices = choices' := by
  obtain ⟨l, ls, list⟩ := List.exists_cons_of_ne_nil some
  have first : l ∈ choices.toList := by simp [list]
  have type := type_of_mem_toList first
  rw [type_of_mem_toList (same ▸ first)] at type
  exact eq_of_toList_eq type.symm same

namespace Test

variable {α β : Type} {t : Test α} {u : Test β} {label : OutlineLabel} {entries : List OutlineEntry}

/-- The group that is the outline of a test, and what stands in it. A call by itself has none. -/
def group? : Test α → Option (OutlineLabel × List OutlineEntry)
  | call _ => none
  | compare c r target => some (.compare r, [.call c.bare, .literal target])
  | compareCalls left r right => some (.compare r, [.call left.bare, .call right.bare])
  | member c choices negated =>
    some (.member negated, .call c.bare :: choices.toList.map .literal)
  | memberCall left right negated => some (.member negated, [.call left.bare, .call right.bare])

theorem outline_of_group? (group : t.group? = some (label, entries)) (level : Nat) :
    t.outline level = ⟨level, label.text⟩ :: entries.map (⟨level + 1, ·.display⟩) ++ [⟨level, ")"⟩] := by
  cases t with
  | call c => cases group
  | compare c r target | compareCalls left r right | memberCall left right negated =>
    cases group
    rfl
  | member c choices negated =>
    cases group
    simp only [outline, outlineGroup, List.map_cons, List.map_map]
    rfl

/-- The entries of a test in normal form. -/
theorem IsNormal.isPlain_of_mem (normal : t.IsNormal) (group : t.group? = some (label, entries)) :
    ∀ e ∈ entries, e.IsPlain := by
  have bare {c : Call α} (plain : c.IsPlain) : (OutlineEntry.call c.bare).IsPlain :=
    ⟨plain.named, plain.asserted⟩
  cases t with
  | call c => cases group
  | compare c r target =>
    cases group
    exact List.forall_mem_cons.mpr ⟨bare normal, List.forall_mem_singleton.mpr trivial⟩
  | compareCalls left r right | memberCall left right negated =>
    cases group
    exact List.forall_mem_cons.mpr ⟨bare normal.1, List.forall_mem_singleton.mpr (bare normal.2)⟩
  | member c choices negated =>
    cases group
    refine List.forall_mem_cons.mpr ⟨bare normal.1, ?_⟩
    rintro e member
    obtain ⟨l, _, rfl⟩ := List.mem_map.mp member
    trivial

/-- A test in normal form is told by its group. -/
theorem bare_eq_of_group? (normal : t.IsNormal) (grouped : t.group? ≠ none)
    (same : t.group? = u.group?) : t.bare = u.bare := by
  cases t with
  | call c => exact absurd rfl grouped
  | compare c r target | compareCalls left r right => cases u <;> simp_all [group?, bare]
  | memberCall left right negated =>
    cases u with
    | member d choices negated' =>
      simp only [group?, Option.some.injEq, Prod.mk.injEq, List.cons.injEq] at same
      have constant : OutlineEntry.call right.bare ∈ choices.toList.map .literal := by simp [← same.2.2]
      obtain ⟨_, _, ⟨⟩⟩ := List.mem_map.mp constant
    | _ => simp_all [group?, bare]
  | member c choices negated =>
    cases u with
    | member d choices' negated' =>
      simp only [group?, Option.some.injEq, Prod.mk.injEq, OutlineLabel.member.injEq, List.cons.injEq,
        OutlineEntry.call.injEq] at same
      obtain ⟨rfl, call, list⟩ := same
      have constants := List.map_injective_iff.mpr (fun _ _ => OutlineEntry.literal.inj) list
      have some : choices.toList ≠ [] := List.ne_nil_of_length_pos (Nat.lt_of_lt_of_le Nat.two_pos normal.2)
      rw [bare, bare, call, Choices.eq_of_ne_nil some constants]
    | _ => simp_all [group?]

/-- The lines inside a group are of a deeper level than the one that closes it. -/
theorem closing_notMem (level : Nat) (entries : List OutlineEntry) :
    (⟨level, ")"⟩ : OutlineLine) ∉ entries.map fun e => ⟨level + 1, e.display⟩ := by
  intro member
  obtain ⟨e, _, same⟩ := List.mem_map.mp member
  exact Nat.succ_ne_self level (congrArg OutlineLine.level same)

/-- A call as a test of its own, or a group. -/
theorem group?_cases (t : Test α) :
    (∃ c, t = call c) ∨ ∃ label entries, t.group? = some (label, entries) := by
  cases t with
  | call c => exact .inl ⟨c, rfl⟩
  | _ => exact .inr ⟨_, _, rfl⟩

/-- A test in normal form and what follows it are told by the lines. -/
theorem outline_append_inj (normal : t.IsNormal) (normal' : u.IsNormal) {level : Nat}
    {rest rest' : List OutlineLine} (same : t.outline level ++ rest = u.outline level ++ rest') :
    t.bare = u.bare ∧ rest = rest' := by
  rcases t.group?_cases with ⟨c, rfl⟩ | ⟨label, entries, group⟩
  · rcases u.group?_cases with ⟨d, rfl⟩ | ⟨label', entries', group'⟩
    · obtain ⟨line, rest⟩ := List.cons.inj same
      have call := Call.bare_eq_of_line normal normal' (congrArg OutlineLine.text line)
      exact ⟨congrArg Test.call call, rest⟩
    · rw [outline_of_group? group'] at same
      have line := congrArg OutlineLine.text (List.cons.inj same).1
      exact absurd line.symm (label'.text_ne_line c)
  · rw [outline_of_group? group] at same
    rcases u.group?_cases with ⟨d, rfl⟩ | ⟨label', entries', group'⟩
    · have line := congrArg OutlineLine.text (List.cons.inj same).1
      exact absurd line (label.text_ne_line d)
    · rw [outline_of_group? group'] at same
      obtain ⟨line, inside⟩ := List.cons.inj same
      cases OutlineLabel.text_injective (congrArg OutlineLine.text line)
      simp only [List.append_eq, List.append_assoc, List.singleton_append] at inside
      obtain ⟨lines, rest⟩ := Text.append_cons_inj (closing_notMem level entries)
        (closing_notMem level entries') inside
      have displays := congrArg (List.map OutlineLine.text) lines
      rw [List.map_map, List.map_map] at displays
      cases OutlineEntry.map_display_inj (normal.isPlain_of_mem group) (normal'.isPlain_of_mem group')
        displays
      exact ⟨bare_eq_of_group? normal (by simp [group]) (group.trans group'.symm), rest⟩

/-- The outline of a test does not depend on its accessors. -/
theorem outline_bare (t : Test α) (level : Nat) : t.bare.outline level = t.outline level := by
  cases t <;> rfl

theorem IsNormal.isPlain_outline (normal : t.IsNormal) (level : Nat) :
    ∀ l ∈ t.outline level, OutlineLine.IsPlain l.text := by
  rcases t.group?_cases with ⟨c, rfl⟩ | ⟨label, entries, group⟩
  · exact List.forall_mem_singleton.mpr (Call.isPlain_line normal)
  · rw [outline_of_group? group]
    refine List.forall_mem_append.mpr ⟨List.forall_mem_cons.mpr ⟨label.isPlain_text, ?_⟩,
      List.forall_mem_singleton.mpr OutlineLine.isPlain_closing⟩
    rintro l member
    obtain ⟨e, inside, rfl⟩ := List.mem_map.mp member
    exact OutlineEntry.isPlain_display (normal.isPlain_of_mem group e inside)

end Test

namespace Condition

variable {α β : Type}

/-- The group that the first line of a condition in normal form opens. -/
def label? : Condition α → Option OutlineLabel
  | .all _ => some .all
  | .any _ => some .any
  | .not _ => none
  | .test t => t.group?.map Prod.fst

/-- An outline begins with a line of its own level. -/
theorem exists_outline_eq_cons (f : Condition α) (level : Nat) :
    ∃ text lines, f.outline level = ⟨level, text⟩ :: lines := by
  cases f with
  | all fs | any fs | not f => exact ⟨_, _, rfl⟩
  | test t => cases t <;> exact ⟨_, _, rfl⟩

/-- The first line of a condition in normal form opens a group or shows a call. -/
theorem outline_cases {f : Condition α} (normal : f.IsNormal) :
    (∃ label, f.label? = some label ∧
      ∀ level, ∃ lines, f.outline level = ⟨level, label.text⟩ :: lines) ∨
    ∃ c : Call α, f.label? = none ∧ ∀ level, f.outline level = [⟨level, c.line⟩] := by
  cases normal with
  | all => exact .inl ⟨.all, rfl, fun level => ⟨_, rfl⟩⟩
  | any => exact .inl ⟨.any, rfl, fun level => ⟨_, rfl⟩⟩
  | @test t normal =>
    rcases t.group?_cases with ⟨c, rfl⟩ | ⟨label, entries, group⟩
    · exact .inr ⟨c, rfl, fun level => rfl⟩
    · refine .inl ⟨label, by rw [label?, group]; rfl, fun level => ?_⟩
      exact ⟨_, Test.outline_of_group? group level⟩

/-- The first line tells which group it opens, if it opens one. -/
theorem label?_eq {f : Condition α} {g : Condition β} (normal : f.IsNormal) (normal' : g.IsNormal)
    {level : Nat} {rest rest' : List OutlineLine}
    (same : f.outline level ++ rest = g.outline level ++ rest') : f.label? = g.label? := by
  rcases outline_cases normal with ⟨label, labelled, outline⟩ | ⟨c, labelled, outline⟩
  · obtain ⟨lines, outline⟩ := outline level
    rcases outline_cases normal' with ⟨label', labelled', outline'⟩ | ⟨d, labelled', outline'⟩
    · obtain ⟨lines', outline'⟩ := outline' level
      rw [outline, outline'] at same
      have text := congrArg OutlineLine.text (List.cons.inj same).1
      rw [labelled, labelled', OutlineLabel.text_injective text]
    · rw [outline, outline'] at same
      exact absurd (congrArg OutlineLine.text (List.cons.inj same).1) (label.text_ne_line d)
  · rcases outline_cases normal' with ⟨label', labelled', outline'⟩ | ⟨d, labelled', outline'⟩
    · obtain ⟨lines', outline'⟩ := outline' level
      rw [outline, outline'] at same
      exact absurd (congrArg OutlineLine.text (List.cons.inj same).1).symm (label'.text_ne_line c)
    · rw [labelled, labelled']

/-- The operands of a group and what follows it are told by the lines, if each of them is. -/
theorem outlineAll_append_inj {fs : List (Condition α)} {gs : List (Condition β)} {level : Nat}
    {rest rest' : List OutlineLine}
    (each : ∀ f ∈ fs, ∀ g : Condition β, g.IsNormal → ∀ rest rest',
      f.outline (level + 1) ++ rest = g.outline (level + 1) ++ rest' → f.bare = g.bare ∧ rest = rest')
    (normal : ∀ g ∈ gs, g.IsNormal)
    (same : outlineAll (level + 1) fs ++ [⟨level, ")"⟩] ++ rest =
      outlineAll (level + 1) gs ++ [⟨level, ")"⟩] ++ rest') :
    Formula.mapAll Test.bare fs = Formula.mapAll Test.bare gs ∧ rest = rest' := by
  -- the first operand begins one level deeper than the line that closes the group
  have notClosing {γ : Type} (f : Condition γ) (x y : List OutlineLine) :
      f.outline (level + 1) ++ x ≠ ⟨level, ")"⟩ :: y := by
    obtain ⟨text, lines, outline⟩ := f.exists_outline_eq_cons (level + 1)
    rw [outline]
    intro same
    exact Nat.succ_ne_self level (congrArg OutlineLine.level (List.cons.inj same).1)
  induction fs generalizing gs with
  | nil =>
    cases gs with
    | nil => exact ⟨rfl, (List.cons.inj same).2⟩
    | cons g gs =>
      simp only [outlineAll, List.nil_append, List.append_assoc] at same
      exact absurd same.symm (notClosing g _ _)
  | cons f fs ih =>
    obtain ⟨first, others⟩ := List.forall_mem_cons.mp each
    cases gs with
    | nil =>
      simp only [outlineAll, List.nil_append, List.append_assoc] at same
      exact absurd same (notClosing f _ _)
    | cons g gs =>
      obtain ⟨normalFirst, normalOthers⟩ := List.forall_mem_cons.mp normal
      simp only [outlineAll, List.append_assoc] at same
      obtain ⟨bareFirst, same⟩ := first g normalFirst _ _ same
      have bare : Formula.map Test.bare f = Formula.map Test.bare g := bareFirst
      rw [← List.append_assoc, ← List.append_assoc] at same
      obtain ⟨bares, rest⟩ := ih others normalOthers same
      exact ⟨by rw [Formula.mapAll, Formula.mapAll, bare, bares], rest⟩

/-- A condition in normal form and what follows it are told by the lines. -/
theorem outline_append_inj {f : Condition α} {g : Condition β} (normal : f.IsNormal)
    (normal' : g.IsNormal) {level : Nat} {rest rest' : List OutlineLine}
    (same : f.outline level ++ rest = g.outline level ++ rest') :
    f.bare = g.bare ∧ rest = rest' := by
  induction normal generalizing g level rest rest' with
  | @all fs many normals each =>
    have labels := label?_eq (.all many normals) normal' same
    cases normal' with
    | any => cases labels
    | @test u => cases u <;> cases labels
    | @all gs _ normal' =>
      obtain ⟨bares, rest⟩ := outlineAll_append_inj
        (fun f member g normal' rest rest' => each f member normal') normal' (List.cons.inj same).2
      exact ⟨congrArg Formula.all bares, rest⟩
  | @any fs many normals each =>
    have labels := label?_eq (.any many normals) normal' same
    cases normal' with
    | all => cases labels
    | @test u => cases u <;> cases labels
    | @any gs _ normal' =>
      obtain ⟨bares, rest⟩ := outlineAll_append_inj
        (fun f member g normal' rest rest' => each f member normal') normal' (List.cons.inj same).2
      exact ⟨congrArg Formula.any bares, rest⟩
  | @test t normal =>
    have labels := label?_eq (.test normal) normal' same
    cases normal' with
    | all | any => cases t <;> cases labels
    | @test u normal' =>
      obtain ⟨bare, rest⟩ := Test.outline_append_inj normal normal' same
      exact ⟨congrArg Formula.test bare, rest⟩

mutual

/-- The outline of a condition does not depend on its accessors. -/
theorem outline_map_bare (level : Nat) :
    ∀ f : Condition α, outline level (Formula.map Test.bare f) = outline level f
  | .all fs => by rw [Formula.map, outline, outline, outlineAll_mapAll_bare (level + 1) fs]
  | .any fs => by rw [Formula.map, outline, outline, outlineAll_mapAll_bare (level + 1) fs]
  | .not f => by rw [Formula.map, outline, outline, outline_map_bare (level + 1) f]
  | .test t => t.outline_bare level

theorem outlineAll_mapAll_bare (level : Nat) :
    ∀ fs : List (Condition α), outlineAll level (Formula.mapAll Test.bare fs) = outlineAll level fs
  | [] => rfl
  | f :: fs => by
    rw [Formula.mapAll, outlineAll, outlineAll, outline_map_bare level f,
      outlineAll_mapAll_bare level fs]

end

theorem outlineAll_eq_flatMap (level : Nat) (fs : List (Condition α)) :
    outlineAll level fs = fs.flatMap (outline level) := by
  induction fs with
  | nil => rfl
  | cons f fs ih => rw [outlineAll, ih, List.flatMap_cons]

/-- The lines of a group, if those of its operands are plain. -/
theorem isPlain_group {level : Nat} {fs : List (Condition α)} (label : OutlineLabel)
    (each : ∀ f ∈ fs, ∀ l ∈ outline (level + 1) f, OutlineLine.IsPlain l.text) :
    ∀ l ∈ (⟨level, label.text⟩ : OutlineLine) :: outlineAll (level + 1) fs ++ [⟨level, ")"⟩],
      OutlineLine.IsPlain l.text := by
  refine List.forall_mem_append.mpr ⟨List.forall_mem_cons.mpr ⟨label.isPlain_text, ?_⟩,
    List.forall_mem_singleton.mpr OutlineLine.isPlain_closing⟩
  rw [outlineAll_eq_flatMap]
  intro l member
  obtain ⟨f, operand, line⟩ := List.mem_flatMap.mp member
  exact each f operand l line

theorem IsNormal.isPlain_outline {f : Condition α} (normal : f.IsNormal) (level : Nat) :
    ∀ l ∈ f.outline level, OutlineLine.IsPlain l.text := by
  induction normal generalizing level with
  | all _ _ each => exact isPlain_group .all fun f member => each f member (level + 1)
  | any _ _ each => exact isPlain_group .any fun f member => each f member (level + 1)
  | test normal => exact normal.isPlain_outline level

/-- A condition in normal form is told by its dump, but for its accessors. -/
theorem dump_eq_iff {f : Condition α} {g : Condition β} (normal : f.IsNormal) (normal' : g.IsNormal)
    (level : Nat) : f.dump level = g.dump level ↔ f.bare = g.bare := by
  constructor
  · intro same
    have lines := OutlineLine.lines_injective (normal.isPlain_outline level)
      (normal'.isPlain_outline level) same
    have whole : f.outline level ++ [] = g.outline level ++ [] := congrArg (· ++ []) lines
    exact (outline_append_inj normal normal' whole).1
  · intro same
    have lines : f.outline level = g.outline level := by
      rw [← outline_map_bare level f, ← outline_map_bare level g]
      exact congrArg (outline level) same
    rw [dump, dump, lines]

end Condition

end RecordQuery
