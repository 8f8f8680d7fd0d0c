import RecordQuery.Proofs.Evaluation.Observation
import RecordQuery.Proofs.Evaluation.Reached
import RecordQuery.Proofs.Evaluation.Sequencing

/-!
# The latest answer

What an evaluation keeps of the answers of accessors: the one that was given last, unless an accessor
fails. Then no answer given to that accessor's test is kept, and the latest one is that before the test.
Each test by itself obeys this (`Test.leaves_check`), and an evaluation ends where the last test ends that
it comes to: `Condition.isTrue_keeps_last`.
-/

namespace RecordQuery

open Formula

variable {α ρ σ ε β γ : Type}

/-- One use of an accessor and what came of it. -/
structure Reply (α ε : Type) where
  invocation : Invocation α
  answer : Except ε Value

/-- A host that also keeps the list of its replies, the latest last. -/
def Host.transcribing (h : Host α ρ σ ε) : Host α ρ (σ × List (Reply α ε)) ε where
  run accessor name argument record := fun (state, replies) =>
    let (answer, state) := h.run accessor name argument record state
    (answer, state, replies ++ [⟨⟨accessor, name, argument⟩, answer⟩])

/-- The state of an evaluation whose replies are listed. -/
abbrev TranscribedState (α ρ σ ε : Type) := EvalState ρ (σ × List (Reply α ε))

/-- The result without the list of replies. -/
def withoutReplies :
    EStateM.Result (EvalFault ε) (TranscribedState α ρ σ ε) β →
      EStateM.Result (EvalFault ε) (EvalState ρ σ) β
  | .ok b s => .ok b ⟨s.context, s.host.1⟩
  | .error fault s => .error fault ⟨s.context, s.host.1⟩

namespace Evaluation

/-- The list of replies makes no difference to anything else. -/
def Untold (e : Evaluation ρ (σ × List (Reply α ε)) ε β) (e' : Evaluation ρ σ ε β) : Prop :=
  ∀ s, e' ⟨s.context, s.host.1⟩ = withoutReplies (e s)

theorem Untold.bind {e : Evaluation ρ (σ × List (Reply α ε)) ε β} {e' : Evaluation ρ σ ε β}
    {f : β → Evaluation ρ (σ × List (Reply α ε)) ε γ} {f' : β → Evaluation ρ σ ε γ}
    (first : Untold e e') (next : ∀ b, Untold (f b) (f' b)) : Untold (e >>= f) (e' >>= f') := by
  intro s
  simp only [Bind.bind, EStateM.bind, first s]
  cases e s with
  | ok b s => exact next b s
  | error fault s => rfl

theorem parallel_untold : Parallel (ρ := ρ) (ε := ε) (σ := σ × List (Reply α ε)) (κ := σ)
    fun _ => Untold where
  pure _ _ := rfl
  throw _ _ := rfl
  keepAnswer _ _ := rfl
  bind := Untold.bind

/-- The computation leaves the state alone, and fails for a type if at all. -/
def Quiet (e : Evaluation ρ σ ε β) : Prop :=
  ∀ s, (∃ b, e s = .ok b s) ∨ ∃ needed found, e s = .error (.typeMismatch needed found) s

theorem quiet_pure (b : β) : Quiet (pure b : Evaluation ρ σ ε β) :=
  fun _ => .inl ⟨b, rfl⟩

theorem quiet_mismatch (needed : Needed) (found : ValueType) :
    Quiet (throw (.typeMismatch needed found) : Evaluation ρ σ ε β) :=
  fun _ => .inr ⟨needed, found, rfl⟩

theorem Quiet.bind {e : Evaluation ρ σ ε β} {f : β → Evaluation ρ σ ε γ} (first : Quiet e)
    (next : ∀ b, Quiet (f b)) : Quiet (e >>= f) := by
  intro s
  simp only [Bind.bind, EStateM.bind]
  rcases first s with ⟨b, answered⟩ | ⟨needed, found, mismatch⟩
  · rw [answered]
    exact next b s
  · rw [mismatch]
    exact .inr ⟨needed, found, rfl⟩

theorem quiet_asType (needed : LiteralType) (v : Value) :
    Quiet (asType needed v : Evaluation ρ σ ε Literal) := by
  unfold asType
  split
  · exact quiet_pure _
  · exact quiet_pure _
  · exact quiet_mismatch _ _
  · exact quiet_mismatch _ _

end Evaluation

open Evaluation

/-- In the state `s` the latest answer is that of the last invocation, which is one of the call. -/
def Call.IsKeptIn (c : Call α) (s : TranscribedState α ρ σ ε) : Prop :=
  ∃ before v, s.host.2 = before ++ [⟨c.invocation, .ok v⟩] ∧ s.context.last = some v

/-- What a test whose last call is `c` leaves behind: the answer of that call, or the context as it was if
    an accessor failed. -/
inductive Call.Leaves (c : Call α) (context : Context ρ) :
    EStateM.Result (EvalFault ε) (TranscribedState α ρ σ ε) Bool → Prop
  | ok (b : Bool) {s : TranscribedState α ρ σ ε} (kept : c.IsKeptIn s) : Leaves c context (.ok b s)
  | mismatch (needed : Needed) (found : ValueType) {s : TranscribedState α ρ σ ε}
      (kept : c.IsKeptIn s) : Leaves c context (.error (.typeMismatch needed found) s)
  | failed (failure : ε) {s : TranscribedState α ρ σ ε} (unchanged : s.context = context) :
      Leaves c context (.error (.host failure) s)

/-- Looking at the answer that is kept takes nothing back. -/
theorem Evaluation.Quiet.leaves {e : Evaluation ρ (σ × List (Reply α ε)) ε Bool} {c : Call α}
    {s : TranscribedState α ρ σ ε} (quiet : Quiet e) (kept : c.IsKeptIn s) (context : Context ρ) :
    c.Leaves context (e s) := by
  rcases quiet s with ⟨b, answered⟩ | ⟨needed, found, mismatch⟩
  · rw [answered]
    exact .ok b kept
  · rw [mismatch]
    exact .mismatch needed found kept

namespace Call

variable (host : Host α ρ σ ε) (c : Call α) (s : TranscribedState α ρ σ ε)

theorem invoke_transcribing : c.invoke host.transcribing s =
    match host.run c.accessor c.name c.argument s.context.record s.host.1 with
    | (.ok v, state) => .ok v { s with host := (state, s.host.2 ++ [⟨c.invocation, .ok v⟩]) }
    | (.error failure, state) =>
      .error (.host failure)
        { s with host := (state, s.host.2 ++ [⟨c.invocation, .error failure⟩]) } := by
  have transcribed : host.transcribing.run c.accessor c.name c.argument s.context.record s.host =
      ((host.run c.accessor c.name c.argument s.context.record s.host.1).1,
        (host.run c.accessor c.name c.argument s.context.record s.host.1).2,
        s.host.2 ++
          [⟨c.invocation, (host.run c.accessor c.name c.argument s.context.record s.host.1).1⟩]) := rfl
  rw [invoke, transcribed]
  rcases host.run c.accessor c.name c.argument s.context.record s.host.1 with ⟨failure | v, state⟩
  · rfl
  · rfl

theorem untold_invoke : Untold (c.invoke host.transcribing) (c.invoke host) := by
  intro s
  rw [invoke_transcribing, invoke]
  rcases host.run c.accessor c.name c.argument s.context.record s.host.1 with ⟨failure | v, state⟩
  · rfl
  · rfl

theorem leaves_eval {rest : Value → Evaluation ρ (σ × List (Reply α ε)) ε Bool}
    (quiet : ∀ v, Quiet (rest v)) : c.Leaves s.context ((c.eval host.transcribing >>= rest) s) := by
  simp only [eval, Bind.bind, EStateM.bind, invoke_transcribing]
  rcases host.run c.accessor c.name c.argument s.context.record s.host.1 with ⟨failure | v, state⟩
  · exact .failed failure rfl
  · have kept : c.IsKeptIn (⟨⟨s.context.record, some v⟩,
        (state, s.host.2 ++ [⟨c.invocation, .ok v⟩])⟩ : TranscribedState α ρ σ ε) :=
      ⟨s.host.2, v, rfl, rfl⟩
    exact (quiet v).leaves kept s.context

end Call

namespace Test

variable (host : Host α ρ σ ε) (s : TranscribedState α ρ σ ε)

/-- A test of two calls does not keep the answer of the left one, whether or not the right one fails. -/
theorem leaves_two (left right : Call α)
    {rest : Value → Value → Evaluation ρ (σ × List (Reply α ε)) ε Bool}
    (quiet : ∀ v w, Quiet (rest v w)) : right.Leaves s.context
      ((left.invoke host.transcribing >>= fun v => right.eval host.transcribing >>= rest v) s) := by
  simp only [Bind.bind, EStateM.bind, left.invoke_transcribing]
  rcases host.run left.accessor left.name left.argument s.context.record s.host.1 with
    ⟨failure | v, state⟩
  · exact .failed failure rfl
  · exact right.leaves_eval host ⟨s.context, (state, s.host.2 ++ [⟨left.invocation, .ok v⟩])⟩ (quiet v)

/-- What a test leaves behind. -/
theorem leaves_check (x : Test α) :
    ∃ c, x.calls.getLast? = some c ∧ c.Leaves s.context (x.check host.transcribing s) := by
  cases x with
  | call c => exact ⟨c, rfl, c.leaves_eval host s fun v => quiet_pure _⟩
  | compare c r target | member c choices negated =>
    exact ⟨c, rfl, c.leaves_eval host s fun v => (quiet_asType _ v).bind fun _ => quiet_pure _⟩
  | compareCalls left r right =>
    refine ⟨right, rfl, leaves_two host s left right fun v w => ?_⟩
    cases v with
    | integer m => exact (quiet_asType _ w).bind fun _ => quiet_pure _
    | text t => exact (quiet_asType _ w).bind fun _ => quiet_pure _
    | _ => exact quiet_mismatch _ _
  | memberCall left right negated =>
    refine ⟨right, rfl, leaves_two host s left right fun v w => ?_⟩
    cases v <;> cases w <;> first | exact quiet_pure _ | exact quiet_mismatch _ _

end Test

namespace Condition

/-- The latest answer in a state that an evaluation from `start` comes to is that of the last invocation,
    which is one of the last call of a test; if there was none, nothing has changed. -/
inductive Keeps (host : Host α ρ σ ε) (c : Condition α) (start : TranscribedState α ρ σ ε) :
    TranscribedState α ρ σ ε → Prop
  | unmoved : Keeps host c start start
  | answer {x : Test α} {d : Call α} {entry s : TranscribedState α ρ σ ε}
      (reached : c.Reaches (Test.check host.transcribing) start x entry)
      (call : x.calls.getLast? = some d) (kept : d.IsKeptIn s) : Keeps host c start s

variable {host : Host α ρ σ ε} {c : Condition α} {start entry s : TranscribedState α ρ σ ε} {x : Test α}

theorem Keeps.of_ok {b : Bool} (reached : c.Reaches (Test.check host.transcribing) start x entry)
    (trial : x.check host.transcribing entry = .ok b s) : Keeps host c start s := by
  obtain ⟨d, call, leaves⟩ := x.leaves_check host entry
  rw [trial] at leaves
  cases leaves with
  | ok _ kept => exact .answer reached call kept

theorem Keeps.of_mismatch {needed : Needed} {found : ValueType}
    (reached : c.Reaches (Test.check host.transcribing) start x entry)
    (trial : x.check host.transcribing entry = .error (.typeMismatch needed found) s) :
    Keeps host c start s := by
  obtain ⟨d, call, leaves⟩ := x.leaves_check host entry
  rw [trial] at leaves
  cases leaves with
  | mismatch _ _ kept => exact .answer reached call kept

/-- Before each test the latest answer is that of the last invocation. -/
theorem Keeps.of_reaches (reached : c.Reaches (Test.check host.transcribing) start x entry) :
    Keeps host c start entry := by
  rcases reached.entry_cases with rfl | ⟨u, earlier, b, before, trial⟩
  · exact .unmoved
  · exact .of_ok before trial

/-- The latest answer after an evaluation, whose replies are listed here.
    - The list makes no difference to the evaluation.
    - If the evaluation answers or fails for a type, the latest answer is that of the last invocation,
      which is the right one of a test with two; without invocations it is the one at the beginning.
    - The evaluation fails for its host if and only if it comes to a test that does.
    - Then the latest answer is the one before that test, whatever was invoked for it. -/
theorem isTrue_keeps_last (host : Host α ρ σ ε) (c : Condition α) (context : Context ρ) (state : σ) :
    let start : TranscribedState α ρ σ ε := ⟨context, (state, [])⟩
    let check := Test.check host.transcribing
    let run := c.isTrue host.transcribing start
    c.isTrue host ⟨context, state⟩ = withoutReplies run ∧
      (∀ b s, run = .ok b s → Keeps host c start s) ∧
      (∀ needed found s, run = .error (.typeMismatch needed found) s → Keeps host c start s) ∧
      (∀ failure s, run = .error (.host failure) s ↔
        ∃ x entry, c.Reaches check start x entry ∧ check x entry = .error (.host failure) s) ∧
      ∀ x entry failure s, c.Reaches check start x entry → check x entry = .error (.host failure) s →
        s.context = entry.context ∧ Keeps host c start entry := by
  intro start check run
  have concludes : Concludes check (c.Reaches check start) start run := concludes_holds check c start
  refine ⟨parallel_untold.isTrue host.transcribing host (Call.untold_invoke host) c start,
    fun b s answered => ?_, fun needed found s mismatch => ?_, fun failure s => holds_eq_error_iff,
    fun x entry failure s reached failed => ⟨?_, .of_reaches reached⟩⟩
  · rw [answered] at concludes
    cases concludes with
    | unmoved => exact .unmoved
    | answered reached trial => exact .of_ok reached trial
  · rw [mismatch] at concludes
    cases concludes with
    | failed reached trial => exact .of_mismatch reached trial
  · obtain ⟨d, _, leaves⟩ := x.leaves_check host entry
    rw [show x.check host.transcribing entry = .error (.host failure) s from failed] at leaves
    cases leaves with
    | failed _ unchanged => exact unchanged

/-- The second test fails at its right call. Its left call was answered, but the answer of the first test
    stays the latest one. -/
theorem isTrue_keeps_last_before_failure :
    let host : Host (Except String Value) Unit Nat String := ⟨fun answer _ _ _ n => (answer, n + 1)⟩
    let c : Condition (Except String Value) := .all [
      .test (.call ⟨"a", .integer 1, .ok (.integer 7), false⟩),
      .test (.compareCalls ⟨"b", .integer 2, .ok (.integer 8), false⟩ .less
        ⟨"d", .integer 3, .error "unavailable", false⟩)]
    let start : TranscribedState (Except String Value) Unit Nat String := ⟨⟨(), none⟩, (0, [])⟩
    ∃ s x entry, c.isTrue host.transcribing start = .error (.host "unavailable") s ∧
      c.Reaches (Test.check host.transcribing) start x entry ∧
      x.check host.transcribing entry = .error (.host "unavailable") s ∧
      s.context = entry.context ∧ Keeps host c start entry ∧
      s.context.last = some (.integer 7) ∧ s.host.2.length = 3 := by
  intro host c start
  obtain ⟨_, _, _, failed, unchanged⟩ := isTrue_keeps_last host c ⟨(), none⟩ 0
  obtain ⟨x, entry, reached, trial⟩ := (failed "unavailable" _).mp rfl
  obtain ⟨same, keeps⟩ := unchanged x entry "unavailable" _ reached trial
  exact ⟨_, x, entry, rfl, reached, trial, same, keeps, rfl, rfl⟩

end Condition

end RecordQuery
