import RecordQuery.Proofs.Evaluation.Observation
import RecordQuery.Proofs.Evaluation.Sequencing

/-!
# Searching records one by one

A search goes through its records in one context, which is turned to one record after another. No
evaluation looks at the latest answer in its context, nor at what was invoked before
(`Condition.oblivious_isTrue`), so that a search finds what one finds by evaluating the condition on each
record in a context of its own: `Condition.filter_runs`. Accessors may keep a state; then it matters that
the records are taken in order and that none is looked at after one whose evaluation fails.
-/

namespace RecordQuery

variable {α ρ σ ε β γ : Type}

namespace Evaluation

/-- `Later made s t`: the state `s` is the state `t`, but for the latest answer and for the invocations
    `made`, which come before those of `t`. -/
structure Later (made : List (Invocation α)) (s t : EvalState ρ (σ × List (Invocation α))) :
    Prop where
  record : s.context.record = t.context.record
  host : s.host.1 = t.host.1
  invocations : s.host.2 = made ++ t.host.2

/-- The same result or error, in states that are alike but for earlier invocations. -/
inductive SameResult (made : List (Invocation α)) :
    EStateM.Result (EvalFault ε) (EvalState ρ (σ × List (Invocation α))) β →
    EStateM.Result (EvalFault ε) (EvalState ρ (σ × List (Invocation α))) β → Prop
  | ok (b : β) {s t : EvalState ρ (σ × List (Invocation α))} (later : Later made s t) :
      SameResult made (.ok b s) (.ok b t)
  | error (fault : EvalFault ε) {s t : EvalState ρ (σ × List (Invocation α))}
      (later : Later made s t) : SameResult made (.error fault s) (.error fault t)

/-- The computation does the same after other invocations and whatever the latest answer is. -/
def Oblivious (made : List (Invocation α)) (e : Evaluation ρ (σ × List (Invocation α)) ε β) : Prop :=
  ∀ s t, Later made s t → SameResult made (e s) (e t)

variable {made : List (Invocation α)}

theorem Oblivious.bind {e : Evaluation ρ (σ × List (Invocation α)) ε β}
    {f : β → Evaluation ρ (σ × List (Invocation α)) ε γ} (first : Oblivious made e)
    (next : ∀ b, Oblivious made (f b)) : Oblivious made (e >>= f) := by
  intro s t later
  have same := first s t later
  simp only [Bind.bind, EStateM.bind]
  generalize e s = one at same
  generalize e t = other at same
  cases same with
  | ok b later => exact next b _ _ later
  | error fault later => exact .error fault later

/-- A computation is oblivious if its parts are. -/
theorem compositional_oblivious (made : List (Invocation α)) :
    Compositional (ρ := ρ) (σ := σ × List (Invocation α)) (ε := ε) fun _ => Oblivious made where
  pure b := by
    intro s t later
    exact .ok b later
  throw fault := by
    intro s t later
    exact .error fault later
  keepAnswer v := by
    intro s t later
    exact .ok () ⟨later.record, later.host, later.invocations⟩
  bind := Oblivious.bind

theorem oblivious_setRecord (record : ρ) :
    Oblivious made (setRecord record : Evaluation ρ (σ × List (Invocation α)) ε Unit) := by
  intro s t later
  exact .ok () ⟨rfl, later.host, later.invocations⟩

end Evaluation

open Evaluation

variable {made : List (Invocation α)} (host : Host α ρ σ ε)

theorem Call.oblivious_invoke (c : Call α) : Oblivious made (c.invoke host.recording) := by
  intro s t later
  rw [invoke_recording, invoke_recording, later.record, later.host, later.invocations,
    List.append_assoc]
  rcases host.run c.accessor c.name c.argument t.context.record t.host.1 with ⟨failure | v, state⟩
  · exact .error _ ⟨later.record, rfl, rfl⟩
  · exact .ok v ⟨later.record, rfl, rfl⟩

namespace Condition

/-- An evaluation does not depend on the latest answer, nor on what was invoked before. -/
theorem oblivious_isTrue (c : Condition α) : Oblivious made (c.isTrue host.recording) :=
  (compositional_oblivious made).isTrue (Call.oblivious_invoke host) c

theorem oblivious_keepFrom (c : Condition α) (records : List ρ) :
    Oblivious made (c.keepFrom host.recording records) := by
  have compositional := compositional_oblivious (ρ := ρ) (σ := σ) (ε := ε) made
  induction records with
  | nil => exact compositional.pure []
  | cons record records ih =>
    refine (oblivious_setRecord record).bind fun _ => (c.oblivious_isTrue host).bind fun b => ?_
    cases b with
    | true => exact ih.bind fun kept => compositional.pure _
    | false => exact ih

/-- Before a search the context does not matter. -/
theorem within_keepFrom (host : Host α ρ σ ε) (c : Condition α) (records : List ρ)
    (context : Context ρ) : (c.keepFrom host records).within context = c.filter host records := by
  cases records with
  | nil => rfl
  | cons record records => rfl

end Condition

/-- All that can be seen of a computation that has its context to itself. -/
structure Account (α σ ε β : Type) where
  /-- The result, or the error that ended the computation. -/
  outcome : Except (EvalFault ε) β
  /-- The accessors that were run, with their names and arguments, in order. -/
  invocations : List (Invocation α)
  host : σ

namespace Account

/-- The account of a computation that lists its invocations, from a state of the host. -/
def of (e : EStateM (EvalFault ε) (σ × List (Invocation α)) β) (state : σ) : Account α σ ε β :=
  match e (state, []) with
  | .ok b s => ⟨.ok b, s.2, s.1⟩
  | .error fault s => ⟨.error fault, s.2, s.1⟩

/-- The account that an evaluation leaves. -/
def ofResult :
    EStateM.Result (EvalFault ε) (EvalState ρ (σ × List (Invocation α))) β → Account α σ ε β
  | .ok b s => ⟨.ok b, s.host.2, s.host.1⟩
  | .error fault s => ⟨.error fault, s.host.2, s.host.1⟩

theorem of_within (e : Evaluation ρ (σ × List (Invocation α)) ε β) (context : Context ρ) (state : σ) :
    of (e.within context) state = ofResult (e ⟨context, (state, [])⟩) := by
  unfold of within ofResult
  cases e ⟨context, (state, [])⟩ <;> rfl

/-- Earlier invocations are all by which the accounts of the same result differ. -/
theorem ofResult_of_sameResult
    {one other : EStateM.Result (EvalFault ε) (EvalState ρ (σ × List (Invocation α))) β}
    (same : SameResult made one other) :
    ofResult one =
      ⟨(ofResult other).outcome, made ++ (ofResult other).invocations, (ofResult other).host⟩ := by
  cases same with
  | ok b later => rw [ofResult, ofResult, later.invocations, later.host]
  | error fault later => rw [ofResult, ofResult, later.invocations, later.host]

theorem ofResult_map (f : β → γ) (e : Evaluation ρ (σ × List (Invocation α)) ε β)
    (s : EvalState ρ (σ × List (Invocation α))) :
    ofResult ((f <$> e) s) =
      ⟨(ofResult (e s)).outcome.map f, (ofResult (e s)).invocations, (ofResult (e s)).host⟩ := by
  simp only [Functor.map, EStateM.map]
  cases e s <;> rfl

end Account

namespace Condition

/-- The evaluations of a condition on one record after another, each in a context of its own and from the
    state in which the one before it left the host. None comes after one that fails. -/
def runs (host : Host α ρ σ ε) (c : Condition α) : List ρ → σ → List (ρ × Account α σ ε Bool)
  | [], _ => []
  | record :: records, state =>
    let run := Account.of (c.isMetBy host.recording record) state
    match run.outcome with
    | .ok _ => (record, run) :: runs host c records run.host
    | .error _ => [(record, run)]

/-- `Sums records state runs search`: the search of the records, from a state of the host, shows what the
    evaluations `runs` show. -/
structure Sums (records : List ρ) (state : σ) (runs : List (ρ × Account α σ ε Bool))
    (search : Account α σ ε (List ρ)) : Prop where
  /-- The evaluations are on the records in their order, from the first one on. -/
  inOrder : runs.map Prod.fst <+: records
  /-- The accessors that the search invokes are those that the evaluations invoke, in turn. -/
  invocations : search.invocations = runs.flatMap (·.2.invocations)
  /-- The host is left as the last evaluation leaves it. -/
  host : search.host = (runs.getLast?.map (·.2.host)).getD state
  /-- If no evaluation fails there is one for each record, and those records are found whose evaluation
      answers `true`. -/
  found : (∀ run ∈ runs, ∃ b, run.2.outcome = .ok b) → runs.map Prod.fst = records ∧
    search.outcome = .ok ((runs.filter fun run => run.2.outcome.toOption == some true).map Prod.fst)
  /-- An evaluation that fails is the last one, and the search fails with its error. -/
  failed : ∀ run ∈ runs, ∀ fault, run.2.outcome = .error fault →
    runs.getLast? = some run ∧ search.outcome = .error fault

/-- A search evaluates the condition on the first record and then goes on with the others. -/
theorem keepFrom_cons (host : Host α ρ σ ε) (c : Condition α) (record : ρ) (records : List ρ)
    (s : EvalState ρ σ) : c.keepFrom host (record :: records) s =
      (c.isTrue host >>= fun b =>
        (fun kept => if b then record :: kept else kept) <$> c.keepFrom host records)
        ⟨⟨record, none⟩, s.host⟩ := by
  have goesOn : ∀ b : Bool, (if b then return record :: (← c.keepFrom host records)
      else c.keepFrom host records : Evaluation ρ σ ε (List ρ)) =
      (fun kept => if b then record :: kept else kept) <$> c.keepFrom host records := by
    intro b
    cases b with
    | true => exact bind_pure_comp _ _
    | false => exact (id_map _).symm
  simp only [← goesOn]
  rfl

variable {host} {c : Condition α} {record : ρ} {records : List ρ} {state : σ}

/-- The evaluations end with one that fails. -/
theorem runs_of_error {fault : EvalFault ε} {run : Account α σ ε Bool}
    (made : Account.of (c.isMetBy host.recording record) state = run)
    (failed : run.outcome = .error fault) :
    c.runs host (record :: records) state = [(record, run)] := by
  subst made
  simp only [runs, failed]

/-- The evaluations go on after one that does not fail. -/
theorem runs_of_ok {b : Bool} {run : Account α σ ε Bool}
    (made : Account.of (c.isMetBy host.recording record) state = run)
    (answered : run.outcome = .ok b) :
    c.runs host (record :: records) state = (record, run) :: c.runs host records run.host := by
  subst made
  simp only [runs, answered]

/-- A search ends with the first evaluation that fails. -/
theorem account_filter_of_error {fault : EvalFault ε} {run : Account α σ ε Bool}
    (made : Account.of (c.isMetBy host.recording record) state = run)
    (failed : run.outcome = .error fault) :
    Account.of (c.filter host.recording (record :: records)) state =
      ⟨.error fault, run.invocations, run.host⟩ := by
  rw [isMetBy, Account.of_within] at made
  rw [← within_keepFrom _ _ _ ⟨record, none⟩, Account.of_within, keepFrom_cons]
  simp only [Bind.bind, EStateM.bind]
  generalize c.isTrue host.recording ⟨⟨record, none⟩, (state, [])⟩ = result at made
  subst made
  cases result with
  | ok b s => cases failed
  | error fault' s =>
    cases failed
    rfl

/-- After an evaluation that does not fail a search goes on with the other records. -/
theorem account_filter_of_ok {b : Bool} {run : Account α σ ε Bool}
    (made : Account.of (c.isMetBy host.recording record) state = run)
    (answered : run.outcome = .ok b) :
    Account.of (c.filter host.recording (record :: records)) state =
      let others := Account.of (c.filter host.recording records) run.host
      ⟨others.outcome.map fun kept => if b then record :: kept else kept,
        run.invocations ++ others.invocations, others.host⟩ := by
  rw [isMetBy, Account.of_within] at made
  rw [← within_keepFrom _ _ _ ⟨record, none⟩, Account.of_within, keepFrom_cons]
  simp only [Bind.bind, EStateM.bind]
  generalize c.isTrue host.recording ⟨⟨record, none⟩, (state, [])⟩ = result at made
  subst made
  cases result with
  | ok b' s =>
    cases answered
    -- the other records are searched from where this evaluation ended
    have later : Later s.host.2 s ⟨s.context, (s.host.1, [])⟩ :=
      ⟨rfl, rfl, (List.append_nil _).symm⟩
    have same := Account.ofResult_of_sameResult (oblivious_keepFrom host c records s _ later)
    rw [← within_keepFrom _ _ _ s.context, Account.of_within]
    show Account.ofResult (((fun kept => if b then record :: kept else kept) <$>
      c.keepFrom host.recording records) s) = _
    rw [Account.ofResult_map, same]
    rfl
  | error fault s => cases answered

/-- Nothing is found where there is nothing to search. -/
theorem Sums.nil (state : σ) : Sums (α := α) (ε := ε) ([] : List ρ) state [] ⟨.ok [], [], state⟩ := by
  refine ⟨List.nil_prefix, rfl, rfl, fun _ => ⟨rfl, rfl⟩, ?_⟩
  rintro run ⟨⟩

/-- An evaluation that fails is all of the search. -/
theorem Sums.error {fault : EvalFault ε} {run : Account α σ ε Bool}
    (failed : run.outcome = .error fault) :
    Sums (record :: records) state [(record, run)] ⟨.error fault, run.invocations, run.host⟩ := by
  refine ⟨⟨records, rfl⟩, ?_, rfl, ?_, ?_⟩
  · simp
  · intro answers
    obtain ⟨b, answered⟩ := answers _ List.mem_cons_self
    rw [failed] at answered
    cases answered
  · intro other member fault' wrong
    rw [List.mem_singleton.mp member] at wrong ⊢
    rw [failed] at wrong
    cases wrong
    exact ⟨rfl, rfl⟩

/-- An evaluation that does not fail comes before those of the other records. -/
theorem Sums.cons {b : Bool} {run : Account α σ ε Bool} (answered : run.outcome = .ok b)
    {runs : List (ρ × Account α σ ε Bool)} {others : Account α σ ε (List ρ)}
    (sums : Sums records run.host runs others) :
    Sums (record :: records) state ((record, run) :: runs)
      ⟨others.outcome.map fun kept => if b then record :: kept else kept,
        run.invocations ++ others.invocations, others.host⟩ := by
  refine ⟨?_, ?_, ?_, ?_, ?_⟩
  · exact List.cons_prefix_cons.mpr ⟨rfl, sums.inOrder⟩
  · rw [sums.invocations, List.flatMap_cons]
  · rw [sums.host, List.getLast?_cons]
    cases runs.getLast? <;> rfl
  · intro answers
    obtain ⟨all, found⟩ := sums.found (List.forall_mem_cons.mp answers).2
    constructor
    · rw [List.map_cons, all]
    · rw [found, List.filter_cons, answered]
      cases b <;> rfl
  · intro other member fault wrong
    rcases List.mem_cons.mp member with rfl | member
    · rw [answered] at wrong
      cases wrong
    · obtain ⟨last, failed⟩ := sums.failed other member fault wrong
      constructor
      · rw [List.getLast?_cons, last, Option.getD_some]
      · rw [failed]
        rfl

/-- A search is the evaluations of its records, one after another. -/
theorem sums_filter (host : Host α ρ σ ε) (c : Condition α) (records : List ρ) (state : σ) :
    Sums records state (c.runs host records state)
      (Account.of (c.filter host.recording records) state) := by
  induction records generalizing state with
  | nil => exact .nil state
  | cons record records ih =>
    generalize made : Account.of (c.isMetBy host.recording record) state = run
    cases outcome : run.outcome with
    | error fault =>
      rw [runs_of_error made outcome, account_filter_of_error made outcome]
      exact .error outcome
    | ok b =>
      rw [runs_of_ok made outcome, account_filter_of_ok made outcome]
      exact .cons outcome (ih run.host)

/-- A search of records finds what evaluating the condition on one record after another finds, each in a
    context of its own: the records whose evaluation answers `true`, or the first error. It invokes what
    they invoke. The latest answer in a context does not matter to what an evaluation answers and
    invokes. -/
theorem filter_runs (host : Host α ρ σ ε) (c : Condition α) :
    (∀ (records : List ρ) (state : σ), Sums records state (c.runs host records state)
      (Account.of (c.filter host.recording records) state)) ∧
    ∀ (record : ρ) (last last' : Option Value) (state : σ),
      let one := c.observe host ⟨record, last⟩ state
      let other := c.observe host ⟨record, last'⟩ state
      one.outcome = other.outcome ∧ one.invocations = other.invocations ∧ one.host = other.host := by
  refine ⟨sums_filter host c, ?_⟩
  intro record last last' state
  have later : Later [] (⟨⟨record, last⟩, (state, [])⟩ : EvalState ρ (σ × List (Invocation α)))
      ⟨⟨record, last'⟩, (state, [])⟩ := ⟨rfl, rfl, rfl⟩
  have same := c.oblivious_isTrue host _ _ later
  simp only [observe, Observation.of]
  generalize c.isTrue host.recording ⟨⟨record, last⟩, (state, [])⟩ = one at same
  generalize c.isTrue host.recording ⟨⟨record, last'⟩, (state, [])⟩ = other at same
  cases same with
  | ok b later => exact ⟨rfl, later.invocations, later.host⟩
  | error fault later => exact ⟨rfl, later.invocations, later.host⟩

end Condition

end RecordQuery
