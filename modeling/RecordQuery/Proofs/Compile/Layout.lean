import Mathlib
import RecordQuery.Proofs.Compile.Binding
import RecordQuery.Proofs.Grammar.Places

/-!
# The layout of a query does not matter

A query is compiled as its tokens are, whatever blanks stand between them and in whichever letter case
its keywords are, and an error moves along with its token: `compile_relaid`. Both texts are compared with
their tokens numbered from left to right, as numbers are the places that stay.
-/

namespace RecordQuery

namespace Token

/-- The tokens with their numbers in the place of their offsets. -/
def numbered (ts : List Token) : List Token :=
  ts.mapIdx fun i t => { t with offset := i }

/-- The offset of the token with a number; `absent` where there is none. -/
def place (ts : List Token) (absent i : Nat) : Nat :=
  (ts[i]?.map Token.offset).getD absent

theorem place_of_getElem? {ts : List Token} {i : Nat} {t : Token} (found : ts[i]? = some t)
    (absent : Nat) : place ts absent i = t.offset := by
  rw [place, found, Option.map_some, Option.getD_some]

/-- A number whose offset does not depend on what is said for absent ones is the number of a token. -/
theorem exists_of_place {ts : List Token} {i n : Nat} (placed : ∀ absent, place ts absent i = n) :
    ∃ t, ts[i]? = some t ∧ t.offset = n := by
  cases found : ts[i]? with
  | some t => exact ⟨t, rfl, (place_of_getElem? found 0).symm.trans (placed 0)⟩
  | none =>
    have free : ∀ absent, absent = n := by
      intro absent
      rw [← placed absent, place, found, Option.map_none, Option.getD_none]
    exact absurd ((free 0).trans (free 1).symm) Nat.zero_ne_one

/-- The tokens of a text with the words of `ts` are those of `ts`, moved from their numbers. -/
theorem moved_numbered {ts : List Token} {query : String}
    (recased : List.Forall₂ (fun t u => t.word.Recased u.word) ts (tokenize query)) (absent : Nat) :
    List.Forall₂ (Moved (place (tokenize query) absent) query.length) (numbered ts)
      (tokenize query) := by
  have scans := scans_tokenize query
  obtain ⟨count, each⟩ := List.forall₂_iff_get.mp recased
  refine List.forall₂_iff_get.mpr ⟨by rw [numbered, List.length_mapIdx, count], ?_⟩
  intro i _ inside
  have inside' : i < ts.length := count ▸ inside
  have member := List.get_mem (tokenize query) ⟨i, inside⟩
  simp only [numbered, List.get_eq_getElem, List.getElem_mapIdx] at each member ⊢
  refine ⟨each i inside' inside, ?_, ?_⟩
  · exact (place_of_getElem? (List.getElem?_eq_getElem inside) absent).symm
  · rintro (finish | unclosed)
    · exact absurd finish (scans.kind_ne_finish _ member)
    · rw [scans.end_of_unclosed _ member unclosed, Nat.zero_add]
      rfl

end Token

/-- The binding `y` goes as `x` does, but for the errors, which are changed by `f`. -/
def Binding.Relocates {β : Type} (f : QueryError → QueryError) (x y : Binding β) : Prop :=
  ∀ events, y events =
    match x events with
    | .ok b events => .ok b events
    | .error e events => .error (f e) events

namespace Binding.Relocates

variable {β γ : Type} {f : QueryError → QueryError}

theorem pure (b : β) : Relocates f (Pure.pure b) (Pure.pure b) :=
  fun _ => rfl

theorem bind {x y : Binding β} {g h : β → Binding γ} (first : Relocates f x y)
    (next : ∀ b, Relocates f (g b) (h b)) : Relocates f (x >>= g) (y >>= h) := by
  intro events
  simp only [Bind.bind, EStateM.bind, first events]
  cases x events with
  | ok b events => exact next b events
  | error e events => rfl

theorem discard {x y : Binding β} (first : Relocates f x y) :
    Relocates f (Functor.discard x) (Functor.discard y) :=
  first.bind fun _ => .pure PUnit.unit

theorem forM {α : Type} {move : α → α} {g : α → Binding PUnit}
    (each : ∀ a, Relocates f (g a) (g (move a))) (l : List α) :
    Relocates f (l.forM g) ((l.map move).forM g) := by
  induction l with
  | nil => exact .pure _
  | cons a l ih => exact (each a).bind fun _ => ih

end Binding.Relocates

theorem Binding.tracks_relocates (f : QueryError → QueryError) :
    Tracks Binding Binding fun _ => Binding.Relocates f :=
  ⟨.pure, fun first next => first.bind next⟩

namespace Registry

variable {α : Type} (registry : Registry α) (move : Nat → Nat) (length : Nat)

theorem relocates_bindCall (c : Call Nat) :
    Binding.Relocates (QueryError.relocate move length) (registry.bindCall c)
      (registry.bindCall (c.relocate move)) := by
  intro events
  have name : (c.relocate move).name = c.name := rfl
  have argument : (c.relocate move).argument = c.argument := rfl
  unfold bindCall
  rw [name, argument]
  cases found : registry.resolve c.argument.type c.name with
  | none => rfl
  | some r => cases r <;> rfl

theorem relocates_bindReading (reading : Reading) :
    Binding.Relocates (QueryError.relocate move length) (registry.bindReading reading)
      (registry.bindReading (reading.relocate move length)) := by
  cases reading with
  | complete w =>
    have tracks := Binding.tracks_relocates (QueryError.relocate move length)
    have tree := tracks.traverse (tracks.test (registry.relocates_bindCall move length)) w
    rw [Reading.relocate, bindReading_complete, bindReading_complete, Condition.traverse_relocate,
      map_eq_pure_bind, map_eq_pure_bind]
    exact tree.bind fun u => .pure (Condition.simplify u)
  | stopped calls e =>
    refine (Binding.Relocates.forM (fun c => (registry.relocates_bindCall move length c).discard)
      calls).bind fun _ => ?_
    exact fun events => rfl

theorem outcome_relocate (reading : Reading) :
    registry.outcome (reading.relocate move length) =
      (registry.outcome reading).mapError (QueryError.relocate move length) := by
  unfold outcome
  rw [registry.relocates_bindReading move length reading]
  cases registry.bindReading reading [] <;> rfl

variable {move}

/-- A query is compiled as the tokens that its own have been moved from. -/
theorem compile_of_moved {ts : List Token} {query : String}
    (moved : List.Forall₂ (Token.Moved move query.length) ts (tokenize query)) :
    registry.compile query =
      (registry.outcome (({} : Reader).run 0 ts)).mapError
        (QueryError.relocate move query.length) := by
  rw [compile_eq_outcome, ← outcome_relocate, ← Reader.run_relocate moved]
  rfl

/-- The same words, laid out anew, have the same tokens but for the letter case of keywords. They are
    compiled to the same condition, or fail with the same fault: at the same token, or at the end of
    either text if it ends too early. -/
theorem compile_relaid (registry : Registry α) (query other : String) (relaid : Relaid query other) :
    List.Forall₂ (fun t u => t.word.Recased u.word) (tokenize query) (tokenize other) ∧
      (∀ c, registry.compile query = .ok c → registry.compile other = .ok c) ∧
      ∀ e, registry.compile query = .error e →
        ∃ e', registry.compile other = .error e' ∧ e'.fault = e.fault ∧
          (e.fault = .endsTooEarly → e.offset = query.length ∧ e'.offset = other.length) ∧
          (e.fault ≠ .endsTooEarly → ∃ (i : Nat) (t u : Token), (tokenize query)[i]? = some t ∧
            (tokenize other)[i]? = some u ∧ e.offset = t.offset ∧ e'.offset = u.offset) := by
  have words := relaid.words
  have same : List.Forall₂ (fun t u => t.word.Recased u.word) (tokenize query) (tokenize query) :=
    List.forall₂_same.mpr fun t _ => ⟨rfl, .inl rfl⟩
  have compiled := fun absent => registry.compile_of_moved (Token.moved_numbered same absent)
  have compiled' := registry.compile_of_moved (Token.moved_numbered words 0)
  cases number : registry.outcome (({} : Reader).run 0 (Token.numbered (tokenize query))) with
  | ok d =>
    simp only [number, Except.mapError] at compiled compiled'
    refine ⟨words, fun c ok => ?_, fun e failed => ?_⟩
    · rw [compiled', ← ok, compiled 0]
    · rw [compiled 0] at failed
      cases failed
  | error e₀ =>
    simp only [number, Except.mapError] at compiled compiled'
    refine ⟨words, fun c ok => ?_, fun e failed => ?_⟩
    · rw [compiled 0] at ok
      cases ok
    have moved : ∀ absent, e₀.relocate (Token.place (tokenize query) absent) query.length = e :=
      fun absent => Except.error.inj ((compiled absent).symm.trans failed)
    have fault : e₀.fault = e.fault := by
      rw [← moved 0]
      rfl
    have offset : ∀ absent, _ = e.offset := fun absent => congrArg QueryError.offset (moved absent)
    refine ⟨_, compiled', fault, fun early => ?_, fun within => ?_⟩
    · simp only [QueryError.relocate, fault, early, if_true] at offset ⊢
      exact ⟨(offset 0).symm, trivial⟩
    · simp only [QueryError.relocate, fault, within, if_false] at offset ⊢
      obtain ⟨t, found, here⟩ := Token.exists_of_place offset
      have inside : e₀.offset < (tokenize other).length := by
        rw [← words.length_eq]
        exact (List.getElem?_eq_some_iff.mp found).1
      have found' := List.getElem?_eq_getElem inside
      exact ⟨e₀.offset, t, _, found, found', here.symm, Token.place_of_getElem? found' 0⟩

/-- A misplaced number, and the same words with a tab, spaces, a no-break space and line ends between
    them. -/
theorem compile_relaid_misplaced :
    let registry : Registry Bool := { integerFallback := some true }
    let query := "a(1)in 2"
    let other := "\ta ( 1 )\u00a0IN\n\n2 "
    Relaid query other ∧ registry.compile query = .error ⟨7, .misplaced .integer⟩ ∧
      ∃ e', registry.compile other = .error e' ∧ e'.fault = .misplaced .integer ∧
        ∃ (i : Nat) (t u : Token), (tokenize query)[i]? = some t ∧ (tokenize other)[i]? = some u ∧
          7 = t.offset ∧ e'.offset = u.offset := by
  intro registry query other
  have tokens : tokenize query = [⟨.name, "a", 0⟩, ⟨.openParen, "(", 1⟩, ⟨.integer, "1", 2⟩,
      ⟨.closeParen, ")", 3⟩, ⟨.keyword .within, "in", 4⟩, ⟨.integer, "2", 7⟩] := by cbv
  have single : ∀ c : Char, Text.isBlank c = true → ∀ d ∈ [c], Text.isBlank d = true :=
    fun c blank => List.forall_mem_singleton.mpr blank
  have space := single ' ' (by decide)
  have lines : ∀ c ∈ ['\n', '\n'], Text.isBlank c = true :=
    List.forall_mem_cons.mpr ⟨by decide, single '\n' (by decide)⟩
  have relaid : Relaid query other := by
    refine ⟨['\t'], [⟨.name, "a"⟩, ⟨.openParen, "("⟩, ⟨.integer, "1"⟩, ⟨.closeParen, ")"⟩,
      ⟨.keyword .within, "IN"⟩, ⟨.integer, "2"⟩], _, single '\t' (by decide), ?_,
      .word space (by simp) (by simp) (.word space (by simp) (by simp) (.word space (by simp) (by simp)
        (.word (single '\u00a0' (by decide)) (by simp) (by simp) (.word lines (by simp) (by simp)
          (.word space (by simp) (by simp) .nil))))), by simp [other]⟩
    rw [tokens]
    exact .cons ⟨rfl, .inl rfl⟩ (.cons ⟨rfl, .inl rfl⟩ (.cons ⟨rfl, .inl rfl⟩ (.cons ⟨rfl, .inl rfl⟩
      (.cons ⟨rfl, .inr ⟨⟨.within, rfl⟩, rfl⟩⟩ (.cons ⟨rfl, .inl rfl⟩ .nil)))))
  have failed : registry.compile query = .error ⟨7, .misplaced .integer⟩ := by cbv
  obtain ⟨e', failed', fault, _, token⟩ :=
    (registry.compile_relaid query other relaid).2.2 _ failed
  exact ⟨relaid, failed, e', failed', fault, token (by simp)⟩

end Registry

end RecordQuery
