import RecordQuery.Proofs.Compile.EventLog
import RecordQuery.Proofs.QueryCache.Eviction
import RecordQuery.Proofs.Workspace.Transparency

/-!
# What parsing logs

The log tells of each parse whether the cache held the query, which calls were bound to fallbacks, and
then the error, or what was dropped from the cache: `Registry.ParseLogs`. So the hits and the misses in a
log are as many as the parses that had a cache: `Workspace.parses_logged`.
-/

namespace RecordQuery

namespace Event

/-- A query was found in the cache. -/
def isHit : Event → Bool
  | cacheHit _ => true
  | _ => false

/-- A query was not found in the cache. -/
def isMiss : Event → Bool
  | cacheMiss _ => true
  | _ => false

/-- The number of hits and misses in a log. -/
def lookUps (events : List Event) : Nat :=
  events.countP isHit + events.countP isMiss

theorem lookUps_append (events others : List Event) :
    lookUps (events ++ others) = lookUps events + lookUps others := by
  rw [lookUps, List.countP_append, List.countP_append, lookUps, lookUps]
  omega

theorem lookUps_eq_zero {events : List Event}
    (neither : ∀ e ∈ events, e.isHit = false ∧ e.isMiss = false) : lookUps events = 0 := by
  have hits : events.countP isHit = 0 := List.countP_eq_zero.mpr fun e member => by
    simp [neither e member]
  have misses : events.countP isMiss = 0 := List.countP_eq_zero.mpr fun e member => by
    simp [neither e member]
  rw [lookUps, hits, misses]

end Event

open Event

variable {α : Type}

namespace Workspace

/-- The cache of a workspace, if it has one, comes of an empty one. -/
def Reachable (w : Workspace α) : Prop :=
  ∀ cache, w.cache = some cache → cache.Reachable

/-- What is logged of a query that the cache does not hold: nothing if there is no cache. -/
def missEvents (w : Workspace α) (query : String) : List Event :=
  (w.cache.map fun _ => .cacheMiss query).toList

/-- The workspace `w` is `after` when a condition for a query has been kept, which logs some events. -/
inductive Keeps (query : String) (w after : Workspace α) : List Event → Prop
  | uncached (without : w.cache = none) : Keeps query w after []
  | cached {c d : QueryCache (Shared (Condition α))} {events : List Event} (before : w.cache = some c)
      (now : after.cache = some d) (drops : c.Drops query d events) : Keeps query w after events

/-- The cache after a condition for a query has been kept, and what that logs. -/
def kept (w : Workspace α) (query : String) (tree : Shared (Condition α)) :
    Option (QueryCache (Shared (Condition α))) × List Event :=
  match w.cache with
  | none => (none, [])
  | some cache =>
    let (cache, events) := cache.store query tree
    (some cache, events)

variable {w after : Workspace α} {query : String} {tree : Shared (Condition α)}

theorem keeps_kept (reachable : w.Reachable) (missed : w.cached? query = none)
    (now : after.cache = (w.kept query tree).1) : w.Keeps query after (w.kept query tree).2 := by
  unfold kept at now ⊢
  cases cached : w.cache with
  | none => exact .uncached cached
  | some cache =>
    rw [cached] at now
    rw [cached?, cached] at missed
    exact .cached cached now ((reachable cache cached).valid.drops_store missed tree)

/-- A cache that comes of an empty one does so after a condition has been kept in it. -/
theorem reachable_kept (reachable : w.Reachable) (now : after.cache = (w.kept query tree).1) :
    after.Reachable := by
  unfold kept at now
  cases cached : w.cache with
  | none =>
    rw [cached] at now
    rw [Reachable, now]
    rintro _ ⟨⟩
  | some cache =>
    rw [cached] at now
    rw [Reachable, now]
    rintro _ ⟨⟩
    exact (reachable cache cached).store query tree

end Workspace

namespace Registry

/-- What a parse of a query logs in the workspace `w`, which is `after` then, by what it answers. -/
inductive ParseLogs (registry : Registry α) (query : String) (w after : Workspace α) :
    Except QueryError (Shared (Condition α)) → List Event → Prop
  | hit {tree : Shared (Condition α)} (held : w.cached? query = some tree) :
      ParseLogs registry query w after (.ok tree) [.cacheHit query]
  | failed {e : QueryError} (missed : w.cached? query = none) :
      ParseLogs registry query w after (.error e)
        (w.missEvents query ++
          registry.fallbackEvents (completedCalls query (.error e : Except QueryError (Condition α))) ++
          [.compileFailed query e])
  | compiled {tree : Shared (Condition α)} {events : List Event} (missed : w.cached? query = none)
      (keeps : w.Keeps query after events) :
      ParseLogs registry query w after (.ok tree)
        (w.missEvents query ++
          registry.fallbackEvents (completedCalls query (.ok tree.value : Except QueryError (Condition α))) ++
          events)

section Parse

variable {registry : Registry α} {query : String} {w : Workspace α} {events : List Event}

/-- A query that the cache does not hold and that has no condition leaves the cache as it was. -/
theorem parse_of_missed_error {e : QueryError} (reachable : w.Reachable) (missed : w.cached? query = none)
    (failed : registry.compileLogged query = (.error e, events)) :
    registry.parse query w =
      (.error e, { w with events := w.events ++ (w.missEvents query ++ events) }) := by
  cases cached : w.cache with
  | none =>
    obtain ⟨_, serial, log⟩ := w
    cases cached
    simp only [parse, bind, StateT.bind, failed]
    rfl
  | some cache =>
    rw [Workspace.cached?, cached] at missed
    rw [parse_error cached (reachable cache cached).valid missed failed, Workspace.missEvents, cached,
      List.append_assoc]
    rfl

/-- A query that the cache does not hold and that has a condition is kept, if there is a cache. -/
theorem parse_of_missed_ok {c : Condition α} (reachable : w.Reachable) (missed : w.cached? query = none)
    (compiled : registry.compileLogged query = (.ok c, events)) :
    let tree : Shared (Condition α) := ⟨w.nextSerial, c⟩
    registry.parse query w =
      (.ok tree,
        { cache := (w.kept query tree).1,
          nextSerial := w.nextSerial + 1,
          events := w.events ++ (w.missEvents query ++ events ++ (w.kept query tree).2) }) := by
  intro tree
  cases cached : w.cache with
  | none =>
    obtain ⟨_, serial, log⟩ := w
    cases cached
    simp only [parse, bind, StateT.bind, compiled, List.append_nil, Workspace.kept]
    rfl
  | some cache =>
    rw [Workspace.cached?, cached] at missed
    rw [parse_miss cached (reachable cache cached).valid missed compiled, Workspace.missEvents,
      Workspace.kept, cached, List.append_assoc, List.append_assoc, List.append_assoc]
    rfl

/-- Each parse adds to the log what it did. -/
theorem exists_parseLogs (registry : Registry α) (query : String) (reachable : w.Reachable) :
    ∃ events, (registry.parse query w).2.events = w.events ++ events ∧
      registry.ParseLogs query w (registry.parse query w).2 (registry.parse query w).1 events := by
  cases held : w.cached? query with
  | some tree =>
    obtain ⟨cache, cached, found⟩ := Option.bind_eq_some_iff.mp held
    rw [parse_hit cached found]
    exact ⟨_, rfl, .hit held⟩
  | none =>
    have logged := registry.compileLogged_eq query
    cases compiled : registry.compile query with
    | error e =>
      rw [compiled, failureEvents] at logged
      rw [parse_of_missed_error reachable held logged, ← List.append_assoc (w.missEvents query)]
      exact ⟨_, rfl, .failed held⟩
    | ok c =>
      rw [compiled, failureEvents, List.append_nil] at logged
      rw [parse_of_missed_ok reachable held logged]
      exact ⟨_, rfl, .compiled held (Workspace.keeps_kept reachable held rfl)⟩

/-- A cache that comes of an empty one does so after a parse too. -/
theorem reachable_parse (registry : Registry α) (query : String) (reachable : w.Reachable) :
    (registry.parse query w).2.Reachable := by
  cases held : w.cached? query with
  | some tree =>
    obtain ⟨cache, cached, found⟩ := Option.bind_eq_some_iff.mp held
    rw [parse_hit cached found]
    rintro _ ⟨⟩
    exact (reachable cache cached).load query
  | none =>
    rcases compiled : registry.compileLogged query with ⟨e | c, events⟩
    · rw [parse_of_missed_error reachable held compiled]
      exact reachable
    · rw [parse_of_missed_ok reachable held compiled]
      exact Workspace.reachable_kept reachable rfl

end Parse

end Registry

namespace Workspace

/-- A workspace with an empty log at first, after `n` parses that had a cache, any others that had none,
    and changes of the cache in between. -/
inductive Run : Nat → Workspace α → Prop
  | start (nextSerial : Nat) : Run 0 { cache := none, nextSerial }
  | attach {n : Nat} {w : Workspace α} (run : Run n w)
      (cache : Option (QueryCache (Shared (Condition α)))) (reachable : ∀ c, cache = some c → c.Reachable) :
      Run n { w with cache }
  | parse {n : Nat} {w : Workspace α} (run : Run n w) (registry : Registry α) (query : String) :
      Run (if w.cache.isSome then n + 1 else n) (registry.parse query w).2

section LookUps

variable {registry : Registry α} {query : String} {w after : Workspace α} {events : List Event} {n : Nat}

theorem lookUps_missEvents (w : Workspace α) (query : String) :
    lookUps (w.missEvents query) = if w.cache.isSome then 1 else 0 := by
  rw [missEvents]
  cases w.cache <;> rfl

theorem Keeps.lookUps_eq (keeps : w.Keeps query after events) : lookUps events = 0 := by
  cases keeps with
  | uncached => rfl
  | cached _ _ drops => cases drops <;> rfl

/-- A parse looks its query up once if there is a cache. -/
theorem lookUps_of_parseLogs {answer : Except QueryError (Shared (Condition α))}
    (logs : registry.ParseLogs query w after answer events) :
    lookUps events = if w.cache.isSome then 1 else 0 := by
  have bindings : ∀ calls, lookUps (registry.fallbackEvents calls) = 0 := by
    intro calls
    refine lookUps_eq_zero fun e member => ?_
    obtain ⟨c, _, rfl⟩ := List.mem_map.mp member
    exact ⟨rfl, rfl⟩
  cases logs with
  | hit held =>
    obtain ⟨cache, cached, _⟩ := Option.bind_eq_some_iff.mp held
    rw [cached]
    rfl
  | failed =>
    rw [lookUps_append, lookUps_append, lookUps_missEvents, bindings]
    rfl
  | compiled _ keeps =>
    rw [lookUps_append, lookUps_append, lookUps_missEvents, bindings, keeps.lookUps_eq, Nat.add_zero]

theorem Run.reachable (run : Run n w) : w.Reachable := by
  induction run with
  | start => rintro _ ⟨⟩
  | attach _ _ reachable => exact reachable
  | parse _ registry query ih => exact registry.reachable_parse query ih

theorem Run.lookUps_eq (run : Run n w) : lookUps w.events = n := by
  induction run with
  | start => rfl
  | attach _ _ _ ih => exact ih
  | parse run registry query ih =>
    obtain ⟨events, log, logs⟩ := registry.exists_parseLogs query run.reachable
    rw [log, lookUps_append, ih, lookUps_of_parseLogs logs]
    split <;> rfl

end LookUps

/-- The log tells exactly what happened.
    - A parse of a query that the cache holds logs a hit and nothing else. Any other parse logs a miss, if
      there is a cache; then a fallback for each call that is complete where the parse ends and whose name
      is not registered while there is a fallback for its argument type, in the order of the query; and
      then the error, or, if a condition is put into a cache that is at its capacity, the key that is no
      longer in it.
    - After any parses, with caches or without, there are as many hits and misses in the log as parses
      that had a cache. -/
theorem parses_logged :
    (∀ (registry : Registry α) (query : String) (w : Workspace α), w.Reachable →
      ∃ events, (registry.parse query w).2.events = w.events ++ events ∧
        registry.ParseLogs query w (registry.parse query w).2 (registry.parse query w).1 events) ∧
    ∀ (n : Nat) (w : Workspace α), Run n w →
      w.events.countP isHit + w.events.countP isMiss = n :=
  ⟨fun registry query _ reachable => registry.exists_parseLogs query reachable,
    fun _ _ run => run.lookUps_eq⟩

/-- The condition of the second query takes the place of the first one's. -/
theorem parses_logged_evicting :
    let registry : Registry Bool := { integerFallback := some true }
    let start : Workspace Bool := { cache := some (.ofLimit (some 1)), nextSerial := 0 }
    let w := (registry.parse "a(1)" start).2
    let parsed := registry.parse "b(2)" w
    let events := [.cacheMiss "b(2)", .fallbackBound .integer "b", .evicted "a(1)" 1]
    w.Reachable ∧ parsed.2.events = w.events ++ events ∧
      registry.ParseLogs "b(2)" w parsed.2 parsed.1 events ∧
      Run 2 parsed.2 ∧ parsed.2.events.countP isHit + parsed.2.events.countP isMiss = 2 := by
  intro registry start w parsed events
  have empty : Run 0 start := (Run.start 0).attach (some (.ofLimit (some 1))) (by rintro _ ⟨⟩; exact .empty _)
  have first : Run 1 w := empty.parse registry "a(1)"
  have second : Run 2 parsed.2 := by
    have cached : w.cache.isSome := by
      unfold w
      cbv
    have parse := first.parse registry "b(2)"
    rwa [if_pos cached] at parse
  have log : parsed.2.events = w.events ++ events := by
    unfold parsed w
    cbv
  obtain ⟨events', log', logs⟩ := parses_logged.1 registry "b(2)" w first.reachable
  cases List.append_cancel_left (log'.symm.trans log)
  exact ⟨first.reachable, log, logs, second, parses_logged.2 2 parsed.2 second⟩

end Workspace

end RecordQuery
