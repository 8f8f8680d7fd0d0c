import Mathlib
import RecordQuery.Proofs.Compile.Meaning
import RecordQuery.Proofs.Evaluation.Steady
import RecordQuery.Proofs.Evaluation.TwoCalls

/-!
# Tests against several constants

A comparison with a constant looks at one answer of its call, and so does a membership (`view_compare`,
`view_member`). A steady call answers the same each time, so that a group of comparisons with one constant
after another shows nothing else than a single look does: `view_groupHolds`.
-/

namespace RecordQuery

open Formula Evaluation

variable {α ρ σ ε β : Type}

/-- What an evaluation shows apart from its host: the answer or the error, and the context. -/
def Evaluation.view (e : Evaluation ρ σ ε β) (s : EvalState ρ σ) :
    Except (EvalFault ε) β × Context ρ :=
  match e s with
  | .ok b s' => (.ok b, s'.context)
  | .error fault s' => (.error fault, s'.context)

namespace Evaluation

variable {γ : Type} {e : Evaluation ρ σ ε β} {s : EvalState ρ σ} {context : Context ρ}

theorem view_bind_of_error {fault : EvalFault ε} (first : e.view s = (.error fault, context))
    (next : β → Evaluation ρ σ ε γ) : (e >>= next).view s = (.error fault, context) := by
  unfold view at first ⊢
  simp only [Bind.bind, EStateM.bind]
  cases run : e s with
  | ok b s' =>
    rw [run] at first
    cases first
  | error fault' s' =>
    rw [run] at first
    cases first
    rfl

theorem view_bind_of_ok {b : β} (first : e.view s = (.ok b, context))
    (next : β → Evaluation ρ σ ε γ) :
    ∃ s', s'.context = context ∧ (e >>= next).view s = (next b).view s' := by
  unfold view at first ⊢
  simp only [Bind.bind, EStateM.bind]
  cases run : e s with
  | ok b' s' =>
    rw [run] at first
    cases first
    exact ⟨s', rfl, rfl⟩
  | error fault' s' =>
    rw [run] at first
    cases first

end Evaluation

/-- An atom by itself is tried as it is. -/
theorem Condition.isTrue_atom (host : Host α ρ σ ε) (f : Condition α) :
    isTrue host (.any [.all [f]]) = f.isTrue host :=
  (groupHolds_singleton (Test.check host) false _).trans (groupHolds_singleton (Test.check host) true f)

/-- The literal of a type that a value is. -/
def Value.literal? : LiteralType → Value → Option Literal
  | .integer, .integer n => some (.integer n)
  | .text, .text s => some (.text s)
  | _, _ => none

/-- What a look at the answer of a call shows, if the answer has to be a literal of some type and decides
    the test then. -/
def look (type : LiteralType) (decides : Literal → Bool) (context : Context ρ) :
    Except ε Value → Except (EvalFault ε) Bool × Context ρ
  | .error failure => (.error (.host failure), context)
  | .ok v =>
    match v.literal? type with
    | some a => (.ok (decides a), { context with last := some v })
    | none => (.error (.typeMismatch (.type type.single) v.type), { context with last := some v })

/-- A look fails whatever would be decided, or finds a literal. To look once more shows the same. -/
theorem look_cases (type : LiteralType) (context : Context ρ) (answer : Except ε Value) :
    ∃ kept : Context ρ, kept.record = context.record ∧
      (∀ decides, look type decides kept answer = look type decides context answer) ∧
      ((∃ fault, ∀ decides, look type decides context answer = (.error fault, kept)) ∨
        ∃ a, ∀ decides, look type decides context answer = (.ok (decides a), kept)) := by
  cases answer with
  | error failure => exact ⟨context, rfl, fun _ => rfl, .inl ⟨_, fun _ => rfl⟩⟩
  | ok v =>
    refine ⟨{ context with last := some v }, rfl, fun _ => rfl, ?_⟩
    simp only [look]
    cases v.literal? type with
    | some a => exact .inr ⟨a, fun _ => rfl⟩
    | none => exact .inl ⟨_, fun _ => rfl⟩

section Look

variable {host : Host α ρ σ ε} {c : Call α} {record : ρ} {answer : Except ε Value} {s : EvalState ρ σ}

/-- The call's accessor gives this answer on a record, in every state of the host. -/
def Call.Answers (host : Host α ρ σ ε) (record : ρ) (c : Call α) (answer : Except ε Value) : Prop :=
  ∀ state, (host.run c.accessor c.name c.argument record state).1 = answer

/-- A steady call gives one answer. -/
theorem Call.Steady.answers (steady : c.Steady host record) (state : σ) :
    c.Answers host record (host.run c.accessor c.name c.argument record state).1 :=
  fun state' => steady state' state

theorem view_look (answers : c.Answers host record answer) (here : s.context.record = record)
    (type : LiteralType) (decides : Literal → Bool) :
    (do
      let v ← c.eval host
      return decides (← asType type v) : Evaluation ρ σ ε Bool).view s =
        look type decides s.context answer := by
  subst here
  simp only [view, Call.eval, Bind.bind, EStateM.bind, Call.invoke_eq, answers s.host]
  cases answer with
  | error failure => rfl
  | ok v => cases type <;> cases v <;> rfl

theorem view_compare (answers : c.Answers host record answer) (here : s.context.record = record)
    (r : Relation) (target : Literal) : ((Test.compare c r target).check host).view s =
      look target.type (r.between · target) s.context answer :=
  view_look answers here target.type _

theorem view_member (answers : c.Answers host record answer) (here : s.context.record = record)
    (choices : Choices) (negated : Bool) : ((Test.member c choices negated).check host).view s =
      look choices.type (choices.contains · != negated) s.context answer :=
  view_look answers here choices.type _

/-- A group of tests, each of which looks at the answer of one call, shows one look. -/
theorem view_groupHolds {type : LiteralType} {check : Test α → Evaluation ρ σ ε Bool}
    {f : Literal → Formula (Test α)} {decides : Literal → Literal → Bool} (every : Bool)
    {ls : List Literal} (some : ls ≠ [])
    (looks : ∀ l ∈ ls, ∀ s, s.context.record = record →
      (holds check (f l)).view s = look type (decides l) s.context answer)
    (here : s.context.record = record) :
    (groupHolds check every (ls.map f)).view s =
      look type (fun a => if every then ls.all (decides · a) else ls.any (decides · a))
        s.context answer := by
  induction ls generalizing s with
  | nil => exact absurd rfl some
  | cons l ls ih =>
    have first := looks l List.mem_cons_self s here
    cases ls with
    | nil =>
      rw [List.map_singleton, groupHolds_singleton, first]
      simp only [List.all_cons, List.all_nil, Bool.and_true, List.any_cons, List.any_nil, Bool.or_false,
        ite_self]
    | cons m ls =>
      rw [List.map_cons, groupHolds_cons]
      obtain ⟨kept, sameRecord, again, ⟨fault, fails⟩ | ⟨a, decided⟩⟩ :=
        look_cases type s.context answer
      · rw [fails] at first ⊢
        exact view_bind_of_error first _
      · rw [decided] at first ⊢
        obtain ⟨s', rfl, rest⟩ := view_bind_of_ok first fun b =>
          if b = every then groupHolds check every ((m :: ls).map f) else pure b
        rw [rest]
        by_cases undecided : decides l a = every
        · have others := ih (List.cons_ne_nil m ls)
            (fun l' member => looks l' (List.mem_cons_of_mem l member)) (sameRecord.trans here)
          rw [if_pos undecided, others, again, decided]
          cases every <;> simp [undecided]
        · have group : (if every then (l :: m :: ls).all (decides · a)
              else (l :: m :: ls).any (decides · a)) = decides l a := by
            cases every <;> simp_all
          rw [if_neg undecided, group]
          rfl

/-- Comparisons with some constants, one after another, show what the membership in them does. -/
theorem view_enumeration {f : Literal → Condition α} {choices : Choices} (negated : Bool)
    (links : ∀ l, holds (Test.check host) (f l) =
      (Test.compare c (if negated then .unequal else .equal) l).check host)
    (some : choices.toList ≠ []) (answers : c.Answers host record answer)
    (here : s.context.record = record) :
    (groupHolds (Test.check host) negated (choices.toList.map f)).view s =
      ((Test.member c choices negated).check host).view s := by
  have looks : ∀ l ∈ choices.toList, ∀ s : EvalState ρ σ, s.context.record = record →
      (holds (Test.check host) (f l)).view s =
        look choices.type (fun a => (a == l) != negated) s.context answer := by
    intro l member s here
    have decides : (fun a => (if negated then Relation.unequal else .equal).between a l) =
        fun a => (a == l) != negated := by
      funext a
      have equal : Relation.equal.between a l = (a == l) := Literal.isEq_order a l
      cases negated with
      | true => rw [Bool.bne_true, ← equal, ← Relation.between_reverse, if_pos rfl, Relation.reverse]
      | false => rw [Bool.bne_false, ← equal, if_neg Bool.false_ne_true]
    rw [links, view_compare answers here, decides, Choices.type_of_mem_toList member]
  rw [view_groupHolds negated some looks here, view_member answers here]
  refine congrArg (look choices.type · s.context answer) (funext fun a => ?_)
  cases negated with
  | true =>
    simp only [if_true, Bool.bne_true, Choices.contains, ← List.all_bne]
    rfl
  | false => simp only [Bool.false_eq_true, if_false, Bool.bne_false, List.any_beq, Choices.contains]

/-- Only the members of a list matter to a membership in it. -/
theorem Test.check_member_congr {choices choices' : Choices} (some : choices.toList ≠ [])
    (members : ∀ l, l ∈ choices.toList ↔ l ∈ choices'.toList) (host : Host α ρ σ ε) (c : Call α)
    (negated : Bool) :
    (member c choices negated).check host = (member c choices' negated).check host := by
  obtain ⟨l, ls, list⟩ := List.exists_cons_of_ne_nil some
  have first : l ∈ choices.toList := by simp [list]
  have type : choices.type = choices'.type :=
    (Choices.type_of_mem_toList first).symm.trans (Choices.type_of_mem_toList ((members l).mp first))
  have contains : choices.contains = choices'.contains := by
    funext m
    rw [Bool.eq_iff_iff, Choices.contains, Choices.contains, List.contains_iff_mem,
      List.contains_iff_mem, members]
  rw [check, check, type, contains]

end Look

end RecordQuery
