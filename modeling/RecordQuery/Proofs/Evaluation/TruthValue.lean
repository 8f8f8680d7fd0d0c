import RecordQuery.Formula

/-!
# Truth values

What a formula comes to if each of its tests is given a truth value beforehand. The tests are numbered
from left to right, so an assignment of truth values is a function of the number. A formula without
empty groups depends on its own tests alone, and some assignment makes it come out either way.
-/

namespace RecordQuery.Formula

variable {τ : Type}

mutual

/-- The truth value of a formula whose first test has the number `k`. -/
def value (a : Nat → Bool) : Nat → Formula τ → Bool
  | k, all fs => allValues a k fs
  | k, any fs => anyValue a k fs
  | k, not f => !value a k f
  | k, test _ => a k

/-- Whether all of some formulas are true. -/
def allValues (a : Nat → Bool) : Nat → List (Formula τ) → Bool
  | _, [] => true
  | k, f :: fs => value a k f && allValues a (k + (tests f).length) fs

/-- Whether one of some formulas is true. -/
def anyValue (a : Nat → Bool) : Nat → List (Formula τ) → Bool
  | _, [] => false
  | k, f :: fs => value a k f || anyValue a (k + (tests f).length) fs

end

/-- The truth value of a group: a conjunction if `every`, else a disjunction. -/
def groupValue (every : Bool) (a : Nat → Bool) (k : Nat) (fs : List (Formula τ)) : Bool :=
  if every then allValues a k fs else anyValue a k fs

/-- No group in the formula is empty. -/
inductive Full : Formula τ → Prop
  | all {fs : List (Formula τ)} (some : fs ≠ []) (each : ∀ f ∈ fs, Full f) : Full (all fs)
  | any {fs : List (Formula τ)} (some : fs ≠ []) (each : ∀ f ∈ fs, Full f) : Full (any fs)
  | not {f : Formula τ} (inside : Full f) : Full (not f)
  | test (t : τ) : Full (test t)

/-- The one assignment below a number, and the other one from there on. -/
def splice (m : Nat) (a b : Nat → Bool) : Nat → Bool :=
  fun i => if i < m then a i else b i

theorem splice_below {m i : Nat} (below : i < m) (a b : Nat → Bool) : splice m a b i = a i :=
  if_pos below

theorem splice_above {m i : Nat} (above : m ≤ i) (a b : Nat → Bool) : splice m a b i = b i :=
  if_neg (Nat.not_lt.mpr above)

/-- A truth value that depends on `n` tests from the number `k` on, and that can come out either way. -/
structure Contingent (k n : Nat) (v : (Nat → Bool) → Bool) : Prop where
  depends : ∀ a b, (∀ i, k ≤ i → i < k + n → a i = b i) → v a = v b
  attains : ∀ b, ∃ a, v a = b

/-- The truth value of two parts of a group: the first one decides the group if it is not `every`. -/
def inTurn (every : Bool) (v w : (Nat → Bool) → Bool) : (Nat → Bool) → Bool :=
  fun a => if v a = every then w a else v a

theorem groupValue_singleton (every : Bool) (a : Nat → Bool) (k : Nat) (f : Formula τ) :
    groupValue every a k [f] = value a k f := by
  cases every with
  | true => exact Bool.and_true _
  | false => exact Bool.or_false _

theorem groupValue_cons (every : Bool) (a : Nat → Bool) (k : Nat) (f : Formula τ)
    (fs : List (Formula τ)) :
    groupValue every a k (f :: fs) =
      inTurn every (value · k f) (groupValue every · (k + (tests f).length) fs) a := by
  rw [inTurn]
  by_cases goes : value a k f = every
  · rw [if_pos goes]
    cases every with
    | true => rw [groupValue, if_pos rfl, allValues, goes, Bool.true_and, groupValue, if_pos rfl]
    | false =>
      rw [groupValue, if_neg Bool.false_ne_true, anyValue, goes, Bool.false_or, groupValue,
        if_neg Bool.false_ne_true]
  · rw [if_neg goes, Bool.eq_not.mpr goes]
    cases every with
    | true => rw [groupValue, if_pos rfl, allValues, Bool.eq_not.mpr goes, Bool.not_true, Bool.false_and]
    | false =>
      rw [groupValue, if_neg Bool.false_ne_true, anyValue, Bool.eq_not.mpr goes, Bool.not_false,
        Bool.true_or]

namespace Contingent

variable {k n m : Nat} {v w : (Nat → Bool) → Bool}

theorem test (k : Nat) : Contingent k 1 (fun a => a k) :=
  ⟨fun _ _ same => same k (Nat.le_refl k) (Nat.lt_succ_self k), fun b => ⟨fun _ => b, rfl⟩⟩

theorem not (h : Contingent k n v) : Contingent k n (fun a => !v a) := by
  refine ⟨fun a b same => congrArg (!·) (h.depends a b same), fun b => ?_⟩
  obtain ⟨a, comes⟩ := h.attains !b
  exact ⟨a, by rw [comes, Bool.not_not]⟩

/-- Values of other tests do not matter. -/
theorem splice_left (h : Contingent k n v) (a b : Nat → Bool) : v (splice (k + n) a b) = v a :=
  h.depends _ _ fun _ _ below => splice_below below a b

theorem splice_right (h : Contingent k n v) (a b : Nat → Bool) : v (splice k a b) = v b :=
  h.depends _ _ fun _ above _ => splice_above above a b

theorem inTurn (h : Contingent k n v) (next : Contingent (k + n) m w) (every : Bool) :
    Contingent k (n + m) (inTurn every v w) := by
  refine ⟨fun a b same => ?_, fun b => ?_⟩
  · have first : v a = v b := h.depends a b fun i above below => same i above (by omega)
    have second : w a = w b := next.depends a b fun i above below => same i (by omega) (by omega)
    rw [Formula.inTurn, Formula.inTurn, first, second]
  · obtain ⟨a, decides⟩ := h.attains b
    by_cases goes : b = every
    · obtain ⟨a', comes⟩ := next.attains b
      refine ⟨splice (k + n) a a', ?_⟩
      rw [Formula.inTurn, h.splice_left, next.splice_right, if_pos (decides.trans goes), comes]
    · refine ⟨a, ?_⟩
      rw [Formula.inTurn, decides, if_neg goes]

/-- A group is contingent if it has operands and each of them is. -/
theorem group (every : Bool) {fs : List (Formula τ)} (some : fs ≠ [])
    (each : ∀ f ∈ fs, ∀ k, Contingent k (tests f).length (value · k f)) (k : Nat) :
    Contingent k (testsAll fs).length (groupValue every · k fs) := by
  induction fs generalizing k with
  | nil => exact absurd rfl some
  | cons f fs ih =>
    have first := each f List.mem_cons_self k
    rcases fs with _ | ⟨g, fs⟩
    · simpa only [groupValue_singleton, testsAll, List.append_nil] using first
    · have rest := ih (List.cons_ne_nil g fs) (fun h member => each h (List.mem_cons_of_mem f member))
        (k + (tests f).length)
      have both := first.inTurn rest every
      rw [testsAll, List.length_append]
      simpa only [groupValue_cons every _ k f] using both

end Contingent

/-- A formula without empty groups is contingent. -/
theorem Full.contingent {f : Formula τ} (full : f.Full) (k : Nat) :
    Contingent k (tests f).length (value · k f) := by
  induction full generalizing k with
  | all some _ each => exact .group true some each k
  | any some _ each => exact .group false some each k
  | not _ inside => exact (inside k).not
  | test _ => exact .test k

end RecordQuery.Formula
