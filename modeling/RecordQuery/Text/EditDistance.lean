/-!
# Edit distance

The least number of single-character insertions, deletions and substitutions that turn one text into
another. The table of distances is kept one row at a time: the row of a text `xs` lists its distance
to `ys`, to `ys` without its first character, and so on down to the empty text. Main statements: the
distance obeys the usual recursion on the first characters (`editDistance_nil`,
`editDistance_cons_nil`, `editDistance_cons_cons`).
-/

namespace RecordQuery.Text

/-- The row of the empty text: every character still to come has to be inserted. -/
def emptyRow : List Char → List Nat
  | [] => [0]
  | _ :: ys => (ys.length + 1) :: emptyRow ys

/-- The row of `x :: xs`, from the row of `xs`. -/
def extendRow (x : Char) : List Char → List Nat → List Nat
  | [], row => [row.headD 0 + 1]
  | y :: ys, row =>
    let shorter := extendRow x ys row.tail
    let kept := row.tail.headD 0
    (if x = y then kept else min (min (row.headD 0) (shorter.headD 0)) kept + 1) :: shorter

/-- The row of a text. -/
def distanceRow (xs ys : List Char) : List Nat :=
  xs.foldr (fun x row => extendRow x ys row) (emptyRow ys)

/-- The edit distance of two texts. -/
def editDistance (xs ys : List Char) : Nat :=
  (distanceRow xs ys).headD 0

/-- Without its first number a row is the row towards the shorter text. -/
theorem tail_distanceRow (xs : List Char) (y : Char) (ys : List Char) :
    (distanceRow xs (y :: ys)).tail = distanceRow xs ys := by
  induction xs with
  | nil => rfl
  | cons x xs ih =>
    show extendRow x ys (distanceRow xs (y :: ys)).tail = distanceRow (x :: xs) ys
    rw [ih]
    rfl

theorem editDistance_nil (ys : List Char) : editDistance [] ys = ys.length := by
  cases ys <;> rfl

theorem editDistance_cons_nil (x : Char) (xs : List Char) :
    editDistance (x :: xs) [] = editDistance xs [] + 1 :=
  rfl

theorem editDistance_cons_cons (x y : Char) (xs ys : List Char) :
    editDistance (x :: xs) (y :: ys) =
      if x = y then editDistance xs ys
      else min (min (editDistance xs (y :: ys)) (editDistance (x :: xs) ys))
        (editDistance xs ys) + 1 := by
  show (if x = y then (distanceRow xs (y :: ys)).tail.headD 0
    else min (min ((distanceRow xs (y :: ys)).headD 0)
        ((extendRow x ys (distanceRow xs (y :: ys)).tail).headD 0))
      ((distanceRow xs (y :: ys)).tail.headD 0) + 1) = _
  rw [tail_distanceRow]
  rfl

end RecordQuery.Text
