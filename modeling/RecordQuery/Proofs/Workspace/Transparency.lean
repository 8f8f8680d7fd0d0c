import Mathlib
import RecordQuery.Proofs.Compile.Binding
import RecordQuery.Proofs.QueryCache.Contents
import RecordQuery.Workspace

/-!
# The cache cannot be noticed

Parsing with a cache answers as compiling does, whatever was parsed before: `parse_transparent`. What one
parse does is said in full by an equation for each of the three ways it can go. The invariant of a
session, `Session.Faithful`, ties each entry of the cache to the latest parse that did not find its key
there.
-/

namespace RecordQuery

namespace Workspace

variable {α : Type} {w : Workspace α} {cache after : QueryCache (Shared (Condition α))} {query : String}
  {found : Option (Shared (Condition α))}

/-- The condition that the cache holds for a query. -/
def cached? (w : Workspace α) (query : String) : Option (Shared (Condition α)) :=
  w.cache.bind (·.find? query)

theorem lookUp_eq (cached : w.cache = some cache) (loaded : cache.load query = (found, after)) :
    lookUp query w =
      (found, { w with cache := some after,
                       events := w.events ++
                         [if found.isSome then .cacheHit query else .cacheMiss query] }) := by
  simp only [lookUp, bind, StateT.bind, get, getThe, MonadStateOf.get, StateT.get, pure, cached, set,
    StateT.set, loaded]
  rfl

end Workspace

namespace Registry

variable {α : Type} {registry : Registry α} {query : String} {w : Workspace α}
  {cache : QueryCache (Shared (Condition α))} {events : List Event}

/-- A query that is in the cache is answered from there. -/
theorem parse_hit {tree : Shared (Condition α)} (cached : w.cache = some cache)
    (found : cache.find? query = some tree) :
    registry.parse query w =
      (.ok tree, { w with cache := some (cache.load query).2,
                          events := w.events ++ [.cacheHit query] }) := by
  have loaded : cache.load query = (some tree, (cache.load query).2) := Prod.ext found rfl
  simp only [parse, bind, StateT.bind, Workspace.lookUp_eq cached loaded]
  rfl

/-- A query that is not in the cache and has no condition leaves the cache as it was. -/
theorem parse_error {e : QueryError} (cached : w.cache = some cache) (valid : cache.Valid)
    (missed : cache.find? query = none) (failed : registry.compileLogged query = (.error e, events)) :
    registry.parse query w =
      (.error e, { w with events := w.events ++ [.cacheMiss query] ++ events }) := by
  have loaded := valid.load_of_find?_eq_none missed
  simp only [parse, bind, StateT.bind, Workspace.lookUp_eq cached loaded, failed]
  obtain ⟨_, serial, log⟩ := w
  cases cached
  rfl

/-- A query that is not in the cache and has a condition is put there, with a condition of its own. -/
theorem parse_miss {c : Condition α} (cached : w.cache = some cache) (valid : cache.Valid)
    (missed : cache.find? query = none) (compiled : registry.compileLogged query = (.ok c, events)) :
    registry.parse query w =
      (.ok ⟨w.nextSerial, c⟩,
        { cache := some (cache.store query ⟨w.nextSerial, c⟩).1,
          nextSerial := w.nextSerial + 1,
          events := w.events ++ [.cacheMiss query] ++ events ++
            (cache.store query ⟨w.nextSerial, c⟩).2 }) := by
  have loaded := valid.load_of_find?_eq_none missed
  simp only [parse, bind, StateT.bind, Workspace.lookUp_eq cached loaded, compiled]
  obtain ⟨_, serial, log⟩ := w
  cases cached
  rfl

end Registry

/-- One parse of a session. -/
structure ParseRecord (α : Type) where
  query : String
  /-- Whether the cache held a condition for the query. -/
  hit : Bool
  answer : Except QueryError (Shared (Condition α))

/-- A workspace and the parses that have been made in it, the latest first. -/
structure Session (α : Type) where
  workspace : Workspace α
  history : List (ParseRecord α) := []

namespace Session

variable {α : Type}

/-- A session with an empty cache, without a limit or of a capacity. -/
def start (limit : Option Nat) (nextSerial : Nat) (events : List Event) : Session α :=
  { workspace := { cache := some (.ofLimit limit), nextSerial, events } }

/-- The session after one more parse. -/
def parse (s : Session α) (registry : Registry α) (query : String) : Session α where
  workspace := (registry.parse query s.workspace).2
  history :=
    ⟨query, (s.workspace.cached? query).isSome, (registry.parse query s.workspace).1⟩ :: s.history

/-- The session after some more parses, each through a registry of its own. -/
def parseAll (s : Session α) : List (Registry α × String) → Session α
  | [] => s
  | (registry, query) :: calls => (s.parse registry query).parseAll calls

/-- The latest parse of a query that did not find it in the cache. -/
def latestMiss (s : Session α) (query : String) : Option (ParseRecord α) :=
  s.history.find? fun p => p.query = query ∧ ¬ p.hit

/-- The cache of a session holds for each of its keys the condition that was built by the latest parse
    that did not find the key, and no condition has the serial number of one to come. -/
structure Faithful (registry : Registry α) (s : Session α) (cache : QueryCache (Shared (Condition α))) :
    Prop where
  cached : s.workspace.cache = some cache
  valid : cache.Valid
  own : ∀ key tree, cache.find? key = some tree → registry.compile key = .ok tree.value
  latest : ∀ key tree, cache.find? key = some tree → s.latestMiss key = some ⟨key, false, .ok tree⟩
  older : ∀ p ∈ s.history, ∀ tree, p.answer = .ok tree → tree.serial < s.workspace.nextSerial

variable {s : Session α} {registry r : Registry α} {cache : QueryCache (Shared (Condition α))}
  {query : String}

theorem faithful_start (registry : Registry α) (limit : Option Nat) (nextSerial : Nat)
    (events : List Event) : (start limit nextSerial events).Faithful registry (.ofLimit limit) where
  cached := rfl
  valid := QueryCache.valid_ofLimit limit
  own key tree found := by
    rw [QueryCache.find?_ofLimit] at found
    cases found
  latest key tree found := by
    rw [QueryCache.find?_ofLimit] at found
    cases found
  older := nofun

namespace Faithful

theorem cached?_eq (h : s.Faithful registry cache) (key : String) :
    s.workspace.cached? key = cache.find? key := by
  rw [Workspace.cached?, h.cached, Option.bind_some]

/-- A hit takes nothing out of the cache and puts nothing into it. -/
theorem hit (h : s.Faithful registry cache) {tree : Shared (Condition α)}
    (found : cache.find? query = some tree) :
    (s.parse r query).Faithful registry (cache.load query).2 := by
  have parsed := r.parse_hit h.cached found
  obtain ⟨valid, contents⟩ := h.valid.load query
  have history : (s.parse r query).history = ⟨query, true, .ok tree⟩ :: s.history := by
    rw [Session.parse, parsed, h.cached?_eq, found, Option.isSome_some]
  refine ⟨by rw [Session.parse, parsed], valid, fun key t there => ?_, fun key t there => ?_, ?_⟩
  · rw [contents] at there
    exact h.own key t there
  · rw [contents] at there
    rw [latestMiss, history, List.find?_cons_of_neg (by simp)]
    exact h.latest key t there
  · intro p member t answer
    rw [Session.parse, parsed]
    rw [history] at member
    rcases List.mem_cons.mp member with rfl | member
    · cases answer
      have stored := h.latest query tree found
      exact h.older _ (List.mem_of_find?_eq_some stored) tree rfl
    · exact h.older p member t answer

/-- A parse that fails leaves the cache as it was. -/
theorem error (h : s.Faithful registry cache) (missed : cache.find? query = none) {e : QueryError}
    {events : List Event} (failed : r.compileLogged query = (.error e, events)) :
    (s.parse r query).Faithful registry cache := by
  have parsed := Registry.parse_error h.cached h.valid missed failed
  have history : (s.parse r query).history = ⟨query, false, .error e⟩ :: s.history := by
    rw [Session.parse, parsed, h.cached?_eq, missed, Option.isSome_none]
  refine ⟨by rw [Session.parse, parsed, h.cached], h.valid, h.own, fun key t there => ?_, ?_⟩
  · have differ : query ≠ key := by
      rintro rfl
      rw [missed] at there
      cases there
    rw [latestMiss, history, List.find?_cons_of_neg (by simpa using differ)]
    exact h.latest key t there
  · intro p member t answer
    rw [Session.parse, parsed]
    rw [history] at member
    rcases List.mem_cons.mp member with rfl | member
    · cases answer
    · exact h.older p member t answer

/-- A parse that builds a condition puts it under its query. -/
theorem miss (h : s.Faithful registry cache) (missed : cache.find? query = none) {c : Condition α}
    {events : List Event} (compiled : r.compileLogged query = (.ok c, events))
    (own : registry.compile query = .ok c) :
    (s.parse r query).Faithful registry (cache.store query ⟨s.workspace.nextSerial, c⟩).1 := by
  have parsed := Registry.parse_miss h.cached h.valid missed compiled
  obtain ⟨valid, _, contents⟩ := h.valid.store query (⟨s.workspace.nextSerial, c⟩ : Shared _)
  have history : (s.parse r query).history =
      ⟨query, false, .ok ⟨s.workspace.nextSerial, c⟩⟩ :: s.history := by
    rw [Session.parse, parsed, h.cached?_eq, missed, Option.isSome_none]
  refine ⟨by rw [Session.parse, parsed], valid, fun key t there => ?_, fun key t there => ?_, ?_⟩
  · have content := contents key t there
    by_cases same : key = query
    · rw [if_pos same] at content
      rw [same, content, own]
    · rw [if_neg same] at content
      exact h.own key t content
  · have content := contents key t there
    rw [latestMiss, history]
    by_cases same : key = query
    · rw [if_pos same] at content
      rw [same, content, List.find?_cons_of_pos (by simp)]
    · rw [if_neg same] at content
      rw [List.find?_cons_of_neg (by simpa using Ne.symm same)]
      exact h.latest key t content
  · intro p member t answer
    rw [Session.parse, parsed]
    rw [history] at member
    rcases List.mem_cons.mp member with rfl | member
    · cases answer
      exact Nat.lt_succ_self _
    · exact Nat.lt_succ_of_lt (h.older p member t answer)

/-- A parse through any registry with the same methods keeps the session faithful. -/
theorem parse (h : s.Faithful registry cache) (same : r.SameMethods registry) (query : String) :
    ∃ after, (s.parse r query).Faithful registry after := by
  cases there : cache.find? query with
  | some tree => exact ⟨_, h.hit there⟩
  | none =>
    rcases compiled : r.compileLogged query with ⟨e | c, events⟩
    · exact ⟨_, h.error there compiled⟩
    · have own : r.compile query = .ok c := congrArg Prod.fst compiled
      exact ⟨_, h.miss there compiled ((same.compile_eq_ok_iff query c).mp own)⟩

theorem parseAll {calls : List (Registry α × String)} (h : s.Faithful registry cache)
    (same : ∀ c ∈ calls, c.1.SameMethods registry) :
    ∃ after, (s.parseAll calls).Faithful registry after := by
  induction calls generalizing s cache with
  | nil => exact ⟨cache, h⟩
  | cons call calls ih =>
    obtain ⟨next, step⟩ := h.parse (same call List.mem_cons_self) call.2
    exact ih step fun c member => same c (List.mem_cons_of_mem call member)

/-- What a parse answers: the condition that is cached, the error of compiling, or the condition that
    compiling gives with a serial number of its own. -/
theorem parse_cases (h : s.Faithful registry cache) (query : String) :
    (∃ tree, cache.find? query = some tree ∧ (registry.parse query s.workspace).1 = .ok tree) ∨
    (∃ e, cache.find? query = none ∧ registry.compile query = .error e ∧
      (registry.parse query s.workspace).1 = .error e ∧
      (registry.parse query s.workspace).2.cache = s.workspace.cache) ∨
    (∃ c, cache.find? query = none ∧ registry.compile query = .ok c ∧
      (registry.parse query s.workspace).1 = .ok ⟨s.workspace.nextSerial, c⟩ ∧
      (registry.parse query s.workspace).2.cached? query = some ⟨s.workspace.nextSerial, c⟩) := by
  cases there : cache.find? query with
  | some tree =>
    have parsed := registry.parse_hit h.cached there
    exact .inl ⟨tree, rfl, congrArg Prod.fst parsed⟩
  | none =>
    rcases compiled : registry.compileLogged query with ⟨e | c, events⟩
    · have parsed := Registry.parse_error h.cached h.valid there compiled
      exact .inr (.inl ⟨e, rfl, congrArg Prod.fst compiled, congrArg Prod.fst parsed,
        congrArg (·.2.cache) parsed⟩)
    · have parsed := Registry.parse_miss h.cached h.valid there compiled
      have own : registry.compile query = .ok c := congrArg Prod.fst compiled
      have stored := (h.miss there compiled own).cached?_eq query
      exact .inr (.inr ⟨c, rfl, own, congrArg Prod.fst parsed,
        stored.trans (h.valid.store query _).2.1⟩)

/-- A parse answers as compiling does. -/
theorem answer_eq (h : s.Faithful registry cache) (query : String) :
    (registry.parse query s.workspace).1.map Shared.value = registry.compile query := by
  rcases h.parse_cases query with ⟨tree, there, answered⟩ | ⟨e, _, own, answered, _⟩ |
    ⟨c, _, own, answered, _⟩
  · rw [answered, h.own query tree there]
    rfl
  · rw [answered, own]
    rfl
  · rw [answered, own]
    rfl

theorem answer_of_cached (h : s.Faithful registry cache) {tree : Shared (Condition α)}
    (found : s.workspace.cached? query = some tree) :
    (registry.parse query s.workspace).1 = .ok tree ∧
      s.latestMiss query = some ⟨query, false, .ok tree⟩ := by
  rw [h.cached?_eq] at found
  exact ⟨congrArg Prod.fst (registry.parse_hit h.cached found), h.latest query tree found⟩

/-- The condition of a query that was not in the cache is in it then, and was not built before. -/
theorem answer_of_missed (h : s.Faithful registry cache) {tree : Shared (Condition α)}
    (missed : s.workspace.cached? query = none)
    (succeeded : (registry.parse query s.workspace).1 = .ok tree) :
    (registry.parse query s.workspace).2.cached? query = some tree ∧
      ∀ p ∈ s.history, ∀ old, p.answer = .ok old → old.serial ≠ tree.serial := by
  rw [h.cached?_eq] at missed
  rcases h.parse_cases query with ⟨_, there, _⟩ | ⟨e, _, _, failed, _⟩ | ⟨c, _, _, answered, stored⟩
  · rw [missed] at there
    cases there
  · rw [failed] at succeeded
    cases succeeded
  · obtain rfl := Except.ok.inj (answered.symm.trans succeeded)
    exact ⟨stored, fun p member old kept => Nat.ne_of_lt (h.older p member old kept)⟩

/-- The cache has no other keys than queries with a condition, each with its own. -/
theorem contents (h : s.Faithful registry cache) :
    ∃ cache, s.workspace.cache = some cache ∧ ∀ key, cache.contains key →
      ∃ tree, cache.find? key = some tree ∧ registry.compile key = .ok tree.value := by
  refine ⟨cache, h.cached, fun key inside => ?_⟩
  rw [h.valid.contains_iff] at inside
  obtain ⟨tree, found⟩ := Option.isSome_iff_exists.mp inside
  exact ⟨tree, found, h.own key tree found⟩

theorem cache_of_error (h : s.Faithful registry cache) {e : QueryError}
    (failed : (registry.parse query s.workspace).1 = .error e) :
    (registry.parse query s.workspace).2.cache = s.workspace.cache := by
  rcases h.parse_cases query with ⟨_, _, answered⟩ | ⟨_, _, _, _, kept⟩ | ⟨c, _, _, answered, _⟩
  · rw [answered] at failed
    cases failed
  · exact kept
  · rw [answered] at failed
    cases failed

end Faithful

/-- Take an empty cache of either kind, and let any queries be parsed with it through registries that
    have the same methods. Then a parse through one of these
    - answers as compiling does: with the same error, or with the same condition;
    - answers a query that is in the cache with the very condition that was built by the latest parse of
      the query that did not find it there, and
    - answers any other query that has a condition with one of its own, unlike all before, which is in
      the cache then;
    - leaves in the cache only queries that have a condition, each with its own;
    - leaves the cache as it was if it fails. -/
theorem parse_transparent (limit : Option Nat) (nextSerial : Nat) (events : List Event)
    (registry : Registry α) (calls : List (Registry α × String))
    (same : ∀ c ∈ calls, c.1.SameMethods registry) (query : String) :
    let before := (start limit nextSerial events).parseAll calls
    let answer := (registry.parse query before.workspace).1
    let after := (registry.parse query before.workspace).2
    answer.map Shared.value = registry.compile query ∧
    (∀ tree, before.workspace.cached? query = some tree →
      answer = .ok tree ∧ before.latestMiss query = some ⟨query, false, .ok tree⟩) ∧
    (before.workspace.cached? query = none → ∀ tree, answer = .ok tree →
      after.cached? query = some tree ∧
      ∀ p ∈ before.history, ∀ old, p.answer = .ok old → old.serial ≠ tree.serial) ∧
    (∃ cache, after.cache = some cache ∧ ∀ key, cache.contains key →
      ∃ tree, cache.find? key = some tree ∧ registry.compile key = .ok tree.value) ∧
    (∀ e, answer = .error e → after.cache = before.workspace.cache) := by
  intro before answer after
  obtain ⟨cache, h⟩ := (faithful_start registry limit nextSerial events).parseAll same
  obtain ⟨next, faithful⟩ := h.parse (fun _ => ⟨fun _ => rfl, rfl⟩) query
  exact ⟨h.answer_eq query, fun tree found => h.answer_of_cached found,
    fun missed tree succeeded => h.answer_of_missed missed succeeded, faithful.contents,
    fun e failed => h.cache_of_error failed⟩

/-- A query whose condition was dropped for another one, and that was parsed again since, is answered
    with the condition that was built the second time. The parse that fails in between disturbs nothing,
    and neither does it that the registries list their accessors in different orders. -/
theorem parse_rebuilt :
    let r : Registry Bool := { integerMethods := ⟨[("a", true), ("b", false)]⟩ }
    let s : Registry Bool := { integerMethods := ⟨[("b", false), ("a", true)]⟩ }
    let calls := [(s, "a(1)"), (r, "b(2)"), (s, "a(1)"), (r, "b(")]
    let before := (start (some 1) 0 []).parseAll calls
    let tree : Shared (Condition Bool) := ⟨2, .test (.call ⟨"a", .integer 1, true, false⟩)⟩
    (∀ c ∈ calls, c.1.SameMethods r) ∧ before.workspace.cached? "a(1)" = some tree ∧
      (r.parse "a(1)" before.workspace).1 = .ok tree ∧
      before.latestMiss "a(1)" = some ⟨"a(1)", false, .ok tree⟩ := by
  intro r s calls before tree
  have names : ∀ name, (s.methods .integer).find? name = (r.methods .integer).find? name := by
    intro name
    show List.lookup name [("b", false), ("a", true)] = List.lookup name [("a", true), ("b", false)]
    simp only [AccessorTable.lookup_cons]
    by_cases first : name = "a"
    · subst first
      decide
    · rw [if_neg first, if_neg first]
  have same : ∀ c ∈ calls, c.1.SameMethods r := by
    have reordered : s.SameMethods r := by
      rintro (_ | _)
      · exact ⟨names, rfl⟩
      · exact ⟨fun _ => rfl, rfl⟩
    have itself : r.SameMethods r := fun _ => ⟨fun _ => rfl, rfl⟩
    simp only [calls, List.forall_mem_cons]
    exact ⟨reordered, itself, reordered, itself, nofun⟩
  have held : before.workspace.cached? "a(1)" = some tree := by cbv
  exact ⟨same, held, (parse_transparent (some 1) 0 [] r calls same "a(1)").2.1 tree held⟩

end Session

end RecordQuery
