import RecordQuery.Proofs.Evaluation.Holds

/-!
# The tests that a trial comes to

A trial of a formula with computations that may fail tries some of its tests, each in the state in which
the one before it ended: `Reaches`. The last of them is where the trial ends, in success or in failure
(`concludes_holds`), and what leads up to any of them is a series of such trials that succeed
(`Reaches.entry_cases`).
-/

namespace RecordQuery.Formula

variable {τ ε σ : Type} {check : τ → EStateM ε σ Bool}

/-- Trying a formula from a state comes to one of its tests in the state `entry`: the operands before it
    in its groups leave them undecided. -/
inductive Reaches (check : τ → EStateM ε σ Bool) : Formula τ → σ → τ → σ → Prop
  | test (t : τ) (s : σ) : Reaches check (.test t) s t s
  | not {f : Formula τ} {s entry : σ} {t : τ} (inside : Reaches check f s t entry) :
      Reaches check (.not f) s t entry
  | all {before after : List (Formula τ)} {f : Formula τ} {s middle entry : σ} {t : τ}
      (undecided : allHold check before s = .ok true middle) (inside : Reaches check f middle t entry) :
      Reaches check (.all (before ++ f :: after)) s t entry
  | any {before after : List (Formula τ)} {f : Formula τ} {s middle entry : σ} {t : τ}
      (undecided : anyHolds check before s = .ok false middle)
      (inside : Reaches check f middle t entry) : Reaches check (.any (before ++ f :: after)) s t entry

/-- Trying a group comes to a test of one of its operands. -/
inductive GroupReaches (check : τ → EStateM ε σ Bool) (every : Bool) :
    List (Formula τ) → σ → τ → σ → Prop
  | mk {before after : List (Formula τ)} {f : Formula τ} {s middle entry : σ} {t : τ}
      (undecided : groupHolds check every before s = .ok every middle)
      (inside : Reaches check f middle t entry) :
      GroupReaches check every (before ++ f :: after) s t entry

/-- The result of a trial from `s` comes from the last test that was reached: its failure, or an answer in
    the state in which it ended. If none was reached, the state is the one at the beginning. -/
inductive Concludes (check : τ → EStateM ε σ Bool) (reached : τ → σ → Prop) (s : σ) :
    EStateM.Result ε σ Bool → Prop
  | unmoved (b : Bool) : Concludes check reached s (.ok b s)
  | answered {t : τ} {entry s' : σ} {b' : Bool} (inside : reached t entry)
      (trial : check t entry = .ok b' s') (b : Bool) : Concludes check reached s (.ok b s')
  | failed {t : τ} {entry s' : σ} {e : ε} (inside : reached t entry)
      (trial : check t entry = .error e s') : Concludes check reached s (.error e s')

namespace Concludes

variable {reached reached' : τ → σ → Prop} {s middle : σ} {b : Bool} {r : EStateM.Result ε σ Bool}

/-- A trial after one that gave an answer concludes both of them. -/
theorem after (rest : Concludes check reached middle r)
    (first : Concludes check reached s (.ok b middle)) : Concludes check reached s r := by
  cases rest with
  | unmoved b' =>
    cases first with
    | unmoved => exact .unmoved b'
    | answered inside trial => exact .answered inside trial b'
  | answered inside trial b' => exact .answered inside trial b'
  | failed inside trial => exact .failed inside trial

theorem mono (h : Concludes check reached s r) (sub : ∀ t entry, reached t entry → reached' t entry) :
    Concludes check reached' s r := by
  cases h with
  | unmoved b => exact .unmoved b
  | answered inside trial b => exact .answered (sub _ _ inside) trial b
  | failed inside trial => exact .failed (sub _ _ inside) trial

end Concludes

section Group

variable {every b : Bool} {f : Formula τ} {fs gs : List (Formula τ)} {s s' entry : σ} {t : τ} {e : ε}

theorem holds_not (check : τ → EStateM ε σ Bool) (f : Formula τ) :
    holds check (not f) = holds check f >>= fun b => pure !b := by
  rw [holds]

theorem groupHolds_cons_of_ok (answered : holds check f s = .ok b s') :
    groupHolds check every (f :: fs) s =
      if b = every then groupHolds check every fs s' else .ok b s' := by
  rw [groupHolds_cons]
  simp only [Bind.bind, EStateM.bind, answered]
  split <;> rfl

theorem groupHolds_cons_of_error (failed : holds check f s = .error e s') :
    groupHolds check every (f :: fs) s = .error e s' := by
  rw [groupHolds_cons]
  simp only [Bind.bind, EStateM.bind, failed]

namespace GroupReaches

theorem first (every : Bool) (fs : List (Formula τ)) (inside : Reaches check f s t entry) :
    GroupReaches check every (f :: fs) s t entry := by
  have undecided : groupHolds check every [] s = .ok every s := by
    rw [groupHolds_nil]
    rfl
  exact .mk undecided inside

theorem later (undecided : holds check f s = .ok every s')
    (rest : GroupReaches check every fs s' t entry) :
    GroupReaches check every (f :: fs) s t entry := by
  cases rest with
  | @mk before _ _ _ middle _ _ others inside =>
    have both : groupHolds check every (f :: before) s = .ok every middle := by
      rw [groupHolds_cons_of_ok undecided, if_pos rfl, others]
    exact .mk both inside

theorem all (h : GroupReaches check true fs s t entry) : Reaches check (.all fs) s t entry := by
  cases h with
  | mk undecided inside => exact .all undecided inside

theorem any (h : GroupReaches check false fs s t entry) : Reaches check (.any fs) s t entry := by
  cases h with
  | mk undecided inside => exact .any undecided inside

theorem append (h : GroupReaches check every fs s t entry) (gs : List (Formula τ)) :
    GroupReaches check every (fs ++ gs) s t entry := by
  cases h with
  | mk undecided inside =>
    rw [List.append_assoc, List.cons_append]
    exact .mk undecided inside

end GroupReaches

end Group

mutual

/-- A trial of a formula ends where the last test that it comes to does. -/
theorem concludes_holds (check : τ → EStateM ε σ Bool) : ∀ (f : Formula τ) (s : σ),
    Concludes check (Reaches check f s) s (holds check f s)
  | all fs, s => (concludes_groupHolds check true fs s).mono fun _ _ => GroupReaches.all
  | any fs, s => (concludes_groupHolds check false fs s).mono fun _ _ => GroupReaches.any
  | not f, s => by
    have operand := (concludes_holds check f s).mono fun _ _ => Reaches.not
    simp only [holds_not, Bind.bind, EStateM.bind]
    generalize holds check f s = result at operand ⊢
    cases operand with
    | unmoved b => exact .unmoved !b
    | answered inside trial b => exact .answered inside trial !b
    | failed inside trial => exact .failed inside trial
  | test t, s => by
    rw [holds]
    cases trial : check t s with
    | ok b s' => exact .answered (.test t s) trial b
    | error e s' => exact .failed (.test t s) trial

theorem concludes_groupHolds (check : τ → EStateM ε σ Bool) (every : Bool) :
    ∀ (fs : List (Formula τ)) (s : σ),
      Concludes check (GroupReaches check every fs s) s (groupHolds check every fs s)
  | [], s => by
    rw [groupHolds_nil]
    exact .unmoved every
  | f :: fs, s => by
    have first := (concludes_holds check f s).mono fun _ _ => GroupReaches.first every fs
    cases trial : holds check f s with
    | ok b middle =>
      rw [trial] at first
      rw [groupHolds_cons_of_ok trial]
      by_cases undecided : b = every
      · -- the others are tried in the state in which this operand ended
        subst undecided
        rw [if_pos rfl]
        have others := (concludes_groupHolds check b fs middle).mono fun _ _ => GroupReaches.later trial
        exact others.after first
      · rw [if_neg undecided]
        exact first
    | error e middle =>
      rw [trial] at first
      rw [groupHolds_cons_of_error trial]
      exact first

end

section Entry

variable {f : Formula τ} {before : List (Formula τ)} {s s' middle entry : σ} {t : τ} {e : ε}

/-- The operands of a group before the one of a test end where their last test does. -/
theorem GroupReaches.entry_cases (every : Bool)
    (undecided : groupHolds check every before s = .ok every middle)
    (cases : entry = middle ∨
      ∃ u earlier b, Reaches check f middle u earlier ∧ check u earlier = .ok b entry)
    (after : List (Formula τ)) :
    entry = s ∨ ∃ u earlier b, GroupReaches check every (before ++ f :: after) s u earlier ∧
      check u earlier = .ok b entry := by
  rcases cases with rfl | ⟨u, earlier, b, inside, trial⟩
  · have ends := concludes_groupHolds check every before s
    rw [undecided] at ends
    cases ends with
    | unmoved => exact .inl rfl
    | answered inside trial => exact .inr ⟨_, _, _, inside.append (f :: after), trial⟩
  · exact .inr ⟨u, earlier, b, .mk undecided inside, trial⟩

theorem groupHolds_of_error (every : Bool)
    (undecided : groupHolds check every before s = .ok every middle)
    (failed : holds check f middle = .error e s') (after : List (Formula τ)) :
    groupHolds check every (before ++ f :: after) s = .error e s' := by
  rw [groupHolds_append]
  simp only [Bind.bind, EStateM.bind, undecided, if_true]
  exact groupHolds_cons_of_error failed

namespace Reaches

/-- A test is reached in the state at the beginning, or in the one in which a trial of an earlier test
    ended with an answer. -/
theorem entry_cases (reaches : Reaches check f s t entry) :
    entry = s ∨ ∃ u earlier b, Reaches check f s u earlier ∧ check u earlier = .ok b entry := by
  induction reaches with
  | test => exact .inl rfl
  | not _ ih =>
    exact ih.imp_right fun ⟨u, earlier, b, inside, trial⟩ => ⟨u, earlier, b, .not inside, trial⟩
  | @all before after f s middle entry t undecided _ ih =>
    exact (GroupReaches.entry_cases true undecided ih after).imp_right
      fun ⟨u, earlier, b, inside, trial⟩ => ⟨u, earlier, b, inside.all, trial⟩
  | @any before after f s middle entry t undecided _ ih =>
    exact (GroupReaches.entry_cases false undecided ih after).imp_right
      fun ⟨u, earlier, b, inside, trial⟩ => ⟨u, earlier, b, inside.any, trial⟩

/-- A test that is reached and fails ends the trial. -/
theorem holds_of_error (reaches : Reaches check f s t entry) (failed : check t entry = .error e s') :
    holds check f s = .error e s' := by
  induction reaches with
  | test => exact failed
  | not _ ih => simp only [holds_not, Bind.bind, EStateM.bind, ih failed]
  | @all before after f s middle entry t undecided _ ih =>
    exact groupHolds_of_error true undecided (ih failed) after
  | @any before after f s middle entry t undecided _ ih =>
    exact groupHolds_of_error false undecided (ih failed) after

end Reaches

end Entry

/-- A trial fails if and only if a test fails that it comes to. -/
theorem holds_eq_error_iff {f : Formula τ} {s s' : σ} {e : ε} :
    holds check f s = .error e s' ↔
      ∃ t entry, Reaches check f s t entry ∧ check t entry = .error e s' := by
  constructor
  · intro failed
    have ends := concludes_holds check f s
    rw [failed] at ends
    cases ends with
    | failed inside trial => exact ⟨_, _, inside, trial⟩
  · rintro ⟨t, entry, reaches, failed⟩
    exact reaches.holds_of_error failed

end RecordQuery.Formula
