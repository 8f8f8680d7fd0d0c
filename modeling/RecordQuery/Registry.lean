import RecordQuery.Literal

/-!
# Accessor registries

Which accessors a query may call. Each argument type has a table of named accessors, and may have a
fallback for the names that are not in the table. Registering a name again replaces its accessor.
-/

namespace RecordQuery

/-- Accessors by name, in the order in which the names were first registered. -/
structure AccessorTable (α : Type) where
  entries : List (String × α) := []
deriving DecidableEq, Repr

namespace AccessorTable

variable {α : Type}

/-- The entries with an accessor put under a name. -/
def put (name : String) (accessor : α) : List (String × α) → List (String × α)
  | [] => [(name, accessor)]
  | (n, a) :: entries =>
    if n = name then (name, accessor) :: entries else (n, a) :: put name accessor entries

/-- The table with an accessor registered under a name. -/
def register (t : AccessorTable α) (name : String) (accessor : α) : AccessorTable α :=
  ⟨put name accessor t.entries⟩

/-- The accessor registered under a name. -/
def find? (t : AccessorTable α) (name : String) : Option α :=
  t.entries.lookup name

/-- The registered names. -/
def names (t : AccessorTable α) : List String :=
  t.entries.map Prod.fst

theorem lookup_cons (n other : String) (a : α) (entries : List (String × α)) :
    ((n, a) :: entries).lookup other = if other = n then some a else entries.lookup other := by
  rw [List.lookup_cons]
  by_cases here : other = n
  · rw [if_pos here, beq_iff_eq.mpr here]
  · rw [if_neg here, beq_eq_false_iff_ne.mpr here]

theorem lookup_put (name other : String) (accessor : α) (entries : List (String × α)) :
    (put name accessor entries).lookup other =
      if other = name then some accessor else entries.lookup other := by
  induction entries with
  | nil => rw [put, lookup_cons]
  | cons e entries ih =>
    obtain ⟨n, a⟩ := e
    unfold put
    by_cases replaced : n = name
    · rw [if_pos replaced, lookup_cons, lookup_cons, replaced]
      by_cases same : other = name
      · rw [if_pos same, if_pos same]
      · rw [if_neg same, if_neg same, if_neg same]
    · rw [if_neg replaced, lookup_cons, lookup_cons, ih]
      by_cases here : other = n
      · have differ : other ≠ name := here ▸ replaced
        rw [if_pos here, if_neg differ, if_pos here]
      · rw [if_neg here, if_neg here]

theorem find?_register (t : AccessorTable α) (name other : String) (accessor : α) :
    (t.register name accessor).find? other =
      if other = name then some accessor else t.find? other :=
  lookup_put name other accessor t.entries

theorem isSome_find?_iff (t : AccessorTable α) (name : String) :
    (t.find? name).isSome ↔ name ∈ t.names := by
  rw [find?, names, List.lookup_isSome_iff, List.mem_map]
  exact exists_congr fun _ => and_congr_right fun _ => beq_iff_eq.trans eq_comm

end AccessorTable

/-- Where a call's accessor comes from. -/
inductive Resolution (α : Type) where
  /-- It is registered under the call's name. -/
  | registered (accessor : α)
  /-- It stands in for every name that is not registered. -/
  | fallback (accessor : α)
deriving DecidableEq, Repr

/-- The accessor of a resolution. -/
def Resolution.accessor {α : Type} : Resolution α → α
  | registered a => a
  | fallback a => a

/-- The accessors of a host. -/
structure Registry (α : Type) where
  integerMethods : AccessorTable α := {}
  textMethods : AccessorTable α := {}
  integerFallback : Option α := none
  textFallback : Option α := none
deriving DecidableEq, Repr

namespace Registry

variable {α : Type}

/-- The table for arguments of a type. -/
def methods (registry : Registry α) : LiteralType → AccessorTable α
  | .integer => registry.integerMethods
  | .text => registry.textMethods

/-- The fallback for arguments of a type. -/
def fallback (registry : Registry α) : LiteralType → Option α
  | .integer => registry.integerFallback
  | .text => registry.textFallback

/-- The registry with an accessor registered for arguments of a type. -/
def register (registry : Registry α) (type : LiteralType) (name : String) (accessor : α) :
    Registry α :=
  match type with
  | .integer => { registry with integerMethods := registry.integerMethods.register name accessor }
  | .text => { registry with textMethods := registry.textMethods.register name accessor }

/-- The registry with a fallback for arguments of a type. -/
def setFallback (registry : Registry α) (type : LiteralType) (accessor : α) : Registry α :=
  match type with
  | .integer => { registry with integerFallback := some accessor }
  | .text => { registry with textFallback := some accessor }

/-- The accessor for a name and an argument type: the registered one, else the fallback. -/
def resolve (registry : Registry α) (type : LiteralType) (name : String) : Option (Resolution α) :=
  match (registry.methods type).find? name with
  | some accessor => some (.registered accessor)
  | none => (registry.fallback type).map .fallback

end Registry

end RecordQuery
