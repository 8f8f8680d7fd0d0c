import Mathlib.Logic.Function.Basic
import RecordQuery.Proofs.Evaluation.Holds
import RecordQuery.Proofs.Evaluation.TruthValue

/-!
# Which tests are tried

An evaluation of a formula is a series of trials of its tests. A test is tried exactly if no test before
it has failed and its truth value can still matter: `Full.exists_accounts`. Whether it can matter is a
question about the formula's truth value alone, not about how the formula is evaluated.
-/

namespace RecordQuery.Formula

variable {τ ε σ : Type}

/-- One trial of a test. -/
structure Trial (ε σ : Type) where
  /-- The number of the test. -/
  place : Nat
  before : σ
  outcome : Except ε Bool
  after : σ

namespace Trial

/-- The trial is a run of a computation. -/
def IsOf (t : Trial ε σ) (x : EStateM ε σ Bool) : Prop :=
  match t.outcome with
  | .ok b => x t.before = .ok b t.after
  | .error e => x t.before = .error e t.after

/-- The trial did not fail. -/
def Answers (t : Trial ε σ) : Prop :=
  ∃ b, t.outcome = .ok b

/-- Each trial starts in the state in which the one before it ended. -/
def Threads : σ → List (Trial ε σ) → σ → Prop
  | s, [], last => s = last
  | s, t :: trials, last => t.before = s ∧ Threads t.after trials last

/-- The trials of the tests before a number. -/
def earlier (trials : List (Trial ε σ)) (i : Nat) : List (Trial ε σ) :=
  trials.filter (·.place < i)

/-- An assignment gives the tests that were tried the values that they had. -/
def Agrees (a : Nat → Bool) (trials : List (Trial ε σ)) : Prop :=
  ∀ t ∈ trials, ∀ b, t.outcome = .ok b → a t.place = b

/-- After some trials, the value of a test can still matter to a truth value: for some values of the
    other tests, the one comes out differently if the other does. -/
def Matters (v : (Nat → Bool) → Bool) (trials : List (Trial ε σ)) (i : Nat) : Prop :=
  ∃ a, Agrees a trials ∧ v (Function.update a i true) ≠ v (Function.update a i false)

theorem Threads.append {s middle last : σ} {trials more : List (Trial ε σ)}
    (first : Threads s trials middle) (second : Threads middle more last) :
    Threads s (trials ++ more) last := by
  induction trials generalizing s with
  | nil =>
    obtain rfl : s = middle := first
    exact second
  | cons t trials ih => exact ⟨first.1, ih first.2⟩

theorem earlier_append (trials more : List (Trial ε σ)) (i : Nat) :
    earlier (trials ++ more) i = earlier trials i ++ earlier more i :=
  List.filter_append ..

theorem earlier_eq_self {trials : List (Trial ε σ)} {i : Nat} (inside : ∀ t ∈ trials, t.place < i) :
    earlier trials i = trials :=
  List.filter_eq_self.mpr fun t member => decide_eq_true (inside t member)

theorem earlier_eq_nil {trials : List (Trial ε σ)} {i : Nat} (beyond : ∀ t ∈ trials, i ≤ t.place) :
    earlier trials i = [] :=
  List.filter_eq_nil_iff.mpr fun t member => by simpa using beyond t member

theorem mem_of_mem_earlier {trials : List (Trial ε σ)} {i : Nat} {t : Trial ε σ}
    (member : t ∈ earlier trials i) : t ∈ trials :=
  (List.mem_filter.mp member).1

theorem agrees_append {a : Nat → Bool} {trials more : List (Trial ε σ)} :
    Agrees a (trials ++ more) ↔ Agrees a trials ∧ Agrees a more := by
  unfold Agrees
  rw [List.forall_mem_append]

/-- Giving a test another value does not touch the values of other tests. -/
theorem Agrees.update {a : Nat → Bool} {trials : List (Trial ε σ)} {i : Nat} (agrees : Agrees a trials)
    (apart : ∀ t ∈ trials, t.place ≠ i) (b : Bool) : Agrees (Function.update a i b) trials := by
  intro t member c answer
  rw [Function.update_of_ne (apart t member)]
  exact agrees t member c answer

/-- Trials of different tests leave an assignment that agrees with all of them. -/
theorem exists_agrees {trials : List (Trial ε σ)} (ordered : trials.Pairwise (·.place < ·.place)) :
    ∃ a, Agrees a trials := by
  induction trials with
  | nil => exact ⟨fun _ => true, nofun⟩
  | cons t trials ih =>
    obtain ⟨later, ordered⟩ := List.pairwise_cons.mp ordered
    obtain ⟨a, agrees⟩ := ih ordered
    have apart : ∀ u ∈ trials, u.place ≠ t.place := fun u member => Nat.ne_of_gt (later u member)
    rcases outcome : t.outcome with e | b
    · refine ⟨a, fun u member c answer => ?_⟩
      rcases List.mem_cons.mp member with rfl | member
      · rw [outcome] at answer
        cases answer
      · exact agrees u member c answer
    · refine ⟨Function.update a t.place b, fun u member c answer => ?_⟩
      rcases List.mem_cons.mp member with rfl | member
      · rw [outcome] at answer
        rw [Function.update_self, Except.ok.inj answer]
      · exact agrees.update apart b u member c answer

end Trial

open Trial

section Relevance

variable {k n m i : Nat} {v w : (Nat → Bool) → Bool} {every : Bool} {trials more : List (Trial ε σ)}

theorem update_splice_below (below : i < m) (a b : Nat → Bool) (c : Bool) :
    Function.update (splice m a b) i c = splice m (Function.update a i c) b := by
  funext j
  by_cases here : j = i
  · subst here
    rw [Function.update_self, splice_below below, Function.update_self]
  · rw [Function.update_of_ne here, splice, splice, Function.update_of_ne here]

theorem update_splice_above (above : m ≤ i) (a b : Nat → Bool) (c : Bool) :
    Function.update (splice m a b) i c = splice m a (Function.update b i c) := by
  funext j
  by_cases here : j = i
  · subst here
    rw [Function.update_self, splice_above above, Function.update_self]
  · rw [Function.update_of_ne here, splice, splice, Function.update_of_ne here]

/-- The value of a test elsewhere is never looked at. -/
theorem Contingent.update (h : Contingent k n v) (outside : i < k ∨ k + n ≤ i) (a : Nat → Bool)
    (b : Bool) : v (Function.update a i b) = v a :=
  h.depends _ _ fun j above below => Function.update_of_ne (by omega) b a

/-- A test of the first part matters to both parts as it matters to the first one: for some values of the
    second part's tests, that part does not decide. -/
theorem matters_first (first : Contingent k n v) (second : Contingent (k + n) m w) (below : i < k + n)
    (inside : ∀ t ∈ trials, t.place < k + n) :
    Matters (inTurn every v w) trials i ↔ Matters v trials i := by
  constructor
  · rintro ⟨a, agrees, differ⟩
    refine ⟨a, agrees, fun same => differ ?_⟩
    rw [inTurn, inTurn, same, second.update (.inl below), second.update (.inl below)]
  · rintro ⟨a, agrees, differ⟩
    obtain ⟨b, undecided⟩ := second.attains every
    have whole : ∀ c, inTurn every v w (Function.update (splice (k + n) a b) i c) =
        v (Function.update a i c) := by
      intro c
      rw [update_splice_below below, inTurn, first.splice_left, second.splice_right, undecided]
      by_cases goes : v (Function.update a i c) = every
      · rw [if_pos goes, goes]
      · rw [if_neg goes]
    refine ⟨splice (k + n) a b, fun t member c answer => ?_, ?_⟩
    · rw [splice_below (inside t member)]
      exact agrees t member c answer
    · rw [whole, whole]
      exact differ

/-- A test of the second part matters to both parts as it matters to the second one, if the first part
    does not decide. -/
theorem matters_second (first : Contingent k n v) (second : Contingent (k + n) m w)
    (above : k + n ≤ i) (ordered : trials.Pairwise (·.place < ·.place))
    (inside : ∀ t ∈ trials, t.place < k + n) (beyond : ∀ t ∈ more, k + n ≤ t.place)
    (goes : ∀ a, Agrees a trials → v a = every) :
    Matters (inTurn every v w) (trials ++ more) i ↔ Matters w more i := by
  constructor
  · rintro ⟨a, agrees, differ⟩
    obtain ⟨here, there⟩ := agrees_append.mp agrees
    refine ⟨a, there, fun same => differ ?_⟩
    rw [inTurn, inTurn, first.update (.inr above), first.update (.inr above), goes a here, same]
  · rintro ⟨a, agrees, differ⟩
    obtain ⟨b, before⟩ := exists_agrees ordered
    have whole : ∀ c, inTurn every v w (Function.update (splice (k + n) b a) i c) =
        w (Function.update a i c) := by
      intro c
      rw [update_splice_above above, inTurn, first.splice_left, second.splice_right,
        if_pos (goes b before)]
    refine ⟨splice (k + n) b a, agrees_append.mpr ⟨fun t member c answer => ?_,
      fun t member c answer => ?_⟩, ?_⟩
    · rw [splice_below (inside t member)]
      exact before t member c answer
    · rw [splice_above (beyond t member)]
      exact agrees t member c answer
    · rw [whole, whole]
      exact differ

/-- After the first part has decided, no test of the second one matters. -/
theorem not_matters_second (first : Contingent k n v) (above : k + n ≤ i) {b : Bool}
    (decided : ∀ a, Agrees a trials → v a = b) (stops : b ≠ every) :
    ¬ Matters (inTurn every v w) trials i := by
  rintro ⟨a, agrees, differ⟩
  apply differ
  rw [inTurn, inTurn, first.update (.inr above), first.update (.inr above), decided a agrees,
    if_neg stops, if_neg stops]

end Relevance

/-- Some trials account for a run of a computation with the truth value `v`, the tests of which are `ts`
    with numbers from `k` on: they are what the run consists of, and the tests that were tried are those
    that were needed. -/
structure Accounts (check : τ → EStateM ε σ Bool) (k : Nat) (ts : List τ) (v : (Nat → Bool) → Bool)
    (s : σ) (r : EStateM.Result ε σ Bool) (trials : List (Trial ε σ)) (last : σ) : Prop where
  threads : Threads s trials last
  made : ∀ t ∈ trials, ∃ x, (x, t.place) ∈ ts.zipIdx k ∧ t.IsOf (check x)
  ordered : trials.Pairwise (·.place < ·.place)
  needed : ∀ i, k ≤ i → i < k + ts.length →
    ((∃ t ∈ trials, t.place = i) ↔
      (∀ t ∈ earlier trials i, t.Answers) ∧ Matters v (earlier trials i) i)
  failed : ∀ t ∈ trials, ∀ e, t.outcome = .error e → r = .error e last
  answered : (∀ t ∈ trials, t.Answers) → ∃ b, r = .ok b last ∧ ∀ a, Agrees a trials → v a = b

namespace Accounts

variable {check : τ → EStateM ε σ Bool} {k : Nat} {ts us : List τ} {v w : (Nat → Bool) → Bool}
  {s middle last : σ} {r q : EStateM.Result ε σ Bool} {trials more : List (Trial ε σ)}

/-- The tests that were tried have their numbers. -/
theorem inside (h : Accounts check k ts v s r trials last) :
    ∀ t ∈ trials, k ≤ t.place ∧ t.place < k + ts.length := by
  intro t member
  obtain ⟨x, numbered, _⟩ := h.made t member
  exact ⟨List.le_snd_of_mem_zipIdx numbered, List.snd_lt_add_of_mem_zipIdx numbered⟩

/-- All trials of a run that comes to an answer answer, and settle its truth value. -/
theorem answers {b : Bool} (h : Accounts check k ts v s (.ok b middle) trials last) :
    middle = last ∧ (∀ t ∈ trials, t.Answers) ∧ ∀ a, Agrees a trials → v a = b := by
  have all : ∀ t ∈ trials, t.Answers := by
    intro t member
    cases outcome : t.outcome with
    | ok b => exact ⟨b, outcome⟩
    | error e => exact absurd (h.failed t member e outcome) nofun
  obtain ⟨c, result, settled⟩ := h.answered all
  cases result
  exact ⟨rfl, all, settled⟩

/-- A run of a single test is one trial of it, and the test matters. -/
theorem single {t : Trial ε σ} {x : τ} (here : t.place = k) (run : t.IsOf (check x)) :
    Accounts check k [x] (fun a => a k) t.before (check x t.before) [t] t.after where
  threads := ⟨rfl, rfl⟩
  made := by
    intro u member
    rw [List.mem_singleton.mp member, here]
    exact ⟨x, List.mem_singleton_self _, run⟩
  ordered := List.pairwise_singleton _ t
  needed := by
    intro i above below
    obtain rfl : i = k := by
      rw [List.length_singleton] at below
      omega
    have beyond : ∀ u ∈ [t], i ≤ u.place := by
      refine List.forall_mem_singleton.mpr ?_
      omega
    rw [earlier_eq_nil beyond]
    refine iff_of_true ⟨t, List.mem_singleton_self t, here⟩ ⟨nofun, fun _ => true, nofun, ?_⟩
    simp only [Function.update_self]
    decide
  failed := by
    intro u member e outcome
    rw [List.mem_singleton.mp member] at outcome
    rw [Trial.IsOf, outcome] at run
    exact run
  answered := by
    intro all
    obtain ⟨b, outcome⟩ := all t (List.mem_singleton_self t)
    rw [Trial.IsOf, outcome] at run
    refine ⟨b, run, fun a agrees => ?_⟩
    rw [← here]
    exact agrees t (List.mem_singleton_self t) b outcome

/-- An inverted run makes the same trials, and the same tests matter. -/
theorem not {x : EStateM ε σ Bool} (h : Accounts check k ts v s (x s) trials last) :
    Accounts check k ts (fun a => !v a) s (((!·) <$> x) s) trials last where
  threads := h.threads
  made := h.made
  ordered := h.ordered
  needed := by
    intro i above below
    rw [h.needed i above below]
    have same : Matters (fun a => !v a) (earlier trials i) i ↔ Matters v (earlier trials i) i := by
      unfold Matters
      simp only [ne_eq, Bool.not_inj_iff]
    rw [same]
  failed := by
    intro t member e outcome
    simp only [Functor.map, EStateM.map, h.failed t member e outcome]
  answered := by
    intro all
    obtain ⟨b, result, settled⟩ := h.answered all
    refine ⟨!b, ?_, fun a agrees => by rw [settled a agrees]⟩
    simp only [Functor.map, EStateM.map, result]

/-- If the first part of a group fails or decides, no test of the second part is tried and none is
    needed. -/
theorem stop {every : Bool} (h : Accounts check k ts v s r trials last) (first : Contingent k ts.length v)
    (second : Contingent (k + ts.length) us.length w) (stops : r ≠ .ok every last) :
    Accounts check k (ts ++ us) (inTurn every v w) s r trials last where
  threads := h.threads
  made := by
    intro t member
    obtain ⟨x, numbered, run⟩ := h.made t member
    refine ⟨x, ?_, run⟩
    rw [List.zipIdx_append]
    exact List.mem_append_left _ numbered
  ordered := h.ordered
  needed := by
    intro i above below
    by_cases early : i < k + ts.length
    · rw [h.needed i above early, matters_first first second early]
      exact fun t member => (h.inside t (mem_of_mem_earlier member)).2
    · have late : k + ts.length ≤ i := Nat.not_lt.mp early
      have before : earlier trials i = trials :=
        earlier_eq_self fun t member => Nat.lt_of_lt_of_le (h.inside t member).2 late
      rw [before]
      refine iff_of_false ?_ ?_
      · rintro ⟨t, member, rfl⟩
        exact early (h.inside t member).2
      · rintro ⟨all, matters⟩
        obtain ⟨b, result, settled⟩ := h.answered all
        refine not_matters_second first late settled (fun goes => stops ?_) matters
        rw [result, goes]
  failed := h.failed
  answered := by
    intro all
    obtain ⟨b, result, settled⟩ := h.answered all
    refine ⟨b, result, fun a agrees => ?_⟩
    have decided : v a ≠ every := by
      intro goes
      apply stops
      rw [result, ← settled a agrees, goes]
    rw [inTurn, if_neg decided, settled a agrees]

/-- If the first part of a group does not decide, the run goes on with the second part. -/
theorem goOn {every : Bool} (h : Accounts check k ts v s (.ok every middle) trials middle)
    (next : Accounts check (k + ts.length) us w middle q more last) (first : Contingent k ts.length v)
    (second : Contingent (k + ts.length) us.length w) :
    Accounts check k (ts ++ us) (inTurn every v w) s q (trials ++ more) last := by
  obtain ⟨_, all, goes⟩ := h.answers
  have inside : ∀ t ∈ trials, t.place < k + ts.length := fun t member => (h.inside t member).2
  have beyond : ∀ t ∈ more, k + ts.length ≤ t.place := fun t member => (next.inside t member).1
  refine ⟨h.threads.append next.threads, fun t member => ?_, ?_, fun i above below => ?_,
    fun t member e outcome => ?_, fun every' => ?_⟩
  · rw [List.zipIdx_append]
    rcases List.mem_append.mp member with member | member
    · obtain ⟨x, numbered, run⟩ := h.made t member
      exact ⟨x, List.mem_append_left _ numbered, run⟩
    · obtain ⟨x, numbered, run⟩ := next.made t member
      exact ⟨x, List.mem_append_right _ numbered, run⟩
  · refine List.pairwise_append.mpr ⟨h.ordered, next.ordered, fun t early u late => ?_⟩
    exact Nat.lt_of_lt_of_le (inside t early) (beyond u late)
  · rw [earlier_append]
    by_cases early : i < k + ts.length
    · have none : earlier more i = [] := earlier_eq_nil fun t member =>
        Nat.le_of_lt (Nat.lt_of_lt_of_le early (beyond t member))
      rw [none, List.append_nil, matters_first first second early
        fun t member => inside t (mem_of_mem_earlier member), ← h.needed i above early]
      constructor
      · rintro ⟨t, member, rfl⟩
        rcases List.mem_append.mp member with member | member
        · exact ⟨t, member, rfl⟩
        · exact absurd early (Nat.not_lt.mpr (beyond t member))
      · rintro ⟨t, member, here⟩
        exact ⟨t, List.mem_append_left more member, here⟩
    · have late : k + ts.length ≤ i := Nat.not_lt.mp early
      have before : earlier trials i = trials :=
        earlier_eq_self fun t member => Nat.lt_of_lt_of_le (inside t member) late
      have rest : ∀ t ∈ earlier more i, k + ts.length ≤ t.place :=
        fun t member => beyond t (mem_of_mem_earlier member)
      have tried := next.needed i late (by rw [List.length_append] at below; omega)
      rw [before, matters_second first second late h.ordered inside rest goes, List.forall_mem_append,
        and_iff_right all, ← tried]
      constructor
      · rintro ⟨t, member, rfl⟩
        rcases List.mem_append.mp member with member | member
        · exact absurd (inside t member) early
        · exact ⟨t, member, rfl⟩
      · rintro ⟨t, member, here⟩
        exact ⟨t, List.mem_append_right trials member, here⟩
  · rcases List.mem_append.mp member with member | member
    · obtain ⟨b, answer⟩ := all t member
      rw [answer] at outcome
      cases outcome
    · exact next.failed t member e outcome
  · obtain ⟨b, result, settled⟩ := next.answered fun t member =>
      every' t (List.mem_append_right trials member)
    refine ⟨b, result, fun a agrees => ?_⟩
    obtain ⟨here, there⟩ := agrees_append.mp agrees
    rw [inTurn, if_pos (goes a here), settled a there]

end Accounts

variable {check : τ → EStateM ε σ Bool}

/-- Some trials account for each run of a group of operands each of which has such trials. -/
theorem exists_accounts_group (every : Bool) {fs : List (Formula τ)} (some : fs ≠ [])
    (full : ∀ f ∈ fs, f.Full)
    (each : ∀ f ∈ fs, ∀ k s, ∃ trials last,
      Accounts check k (tests f) (value · k f) s (holds check f s) trials last) (k : Nat) (s : σ) :
    ∃ trials last, Accounts check k (testsAll fs) (groupValue every · k fs) s
      (groupHolds check every fs s) trials last := by
  induction fs generalizing k s with
  | nil => exact absurd rfl some
  | cons f fs ih =>
    obtain ⟨trials, last, h⟩ := each f List.mem_cons_self k s
    rcases fs with _ | ⟨g, fs⟩
    · refine ⟨trials, last, ?_⟩
      simpa only [groupHolds_singleton, groupValue_singleton, testsAll, List.append_nil] using h
    · have later : ∀ h ∈ g :: fs, h.Full := fun h member => full h (List.mem_cons_of_mem f member)
      have first := (full f List.mem_cons_self).contingent k
      have second := Contingent.group every (List.cons_ne_nil g fs)
        (fun h member => (later h member).contingent) (k + (tests f).length)
      have value : (groupValue every · k (f :: g :: fs)) =
          inTurn every (value · k f) (groupValue every · (k + (tests f).length) (g :: fs)) :=
        funext fun a => groupValue_cons every a k f (g :: fs)
      rw [value, testsAll, groupHolds_cons]
      simp only [bind, EStateM.bind]
      rcases result : holds check f s with ⟨b, middle⟩ | ⟨e, middle⟩
      · rw [result] at h
        obtain ⟨rfl, _, _⟩ := h.answers
        by_cases goes : b = every
        · subst goes
          obtain ⟨more, last, next⟩ := ih (List.cons_ne_nil g fs) later
            (fun h member => each h (List.mem_cons_of_mem f member)) (k + (tests f).length) middle
          simp only [if_true]
          exact ⟨trials ++ more, last, h.goOn next first second⟩
        · simp only [if_neg goes]
          exact ⟨trials, middle, h.stop first second fun same => goes (by cases same; rfl)⟩
      · rw [result] at h
        exact ⟨trials, last, h.stop first second (by simp)⟩

/-- Some trials account for each run of a formula without empty groups. -/
theorem Full.exists_accounts {f : Formula τ} (full : f.Full) (k : Nat) (s : σ) :
    ∃ trials last, Accounts check k (tests f) (value · k f) s (holds check f s) trials last := by
  induction full generalizing k s with
  | all some full each => exact exists_accounts_group true some full each k s
  | any some full each => exact exists_accounts_group false some full each k s
  | @not f _ inside =>
    obtain ⟨trials, last, h⟩ := inside k s
    have inverted := h.not
    simp only [map_eq_pure_bind] at inverted
    exact ⟨trials, last, inverted⟩
  | test t =>
    rcases result : check t s with ⟨b, after⟩ | ⟨e, after⟩
    · exact ⟨_, _, Accounts.single (t := ⟨k, s, .ok b, after⟩) rfl result⟩
    · exact ⟨_, _, Accounts.single (t := ⟨k, s, .error e, after⟩) rfl result⟩

end RecordQuery.Formula
