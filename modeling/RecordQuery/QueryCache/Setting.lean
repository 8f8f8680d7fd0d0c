import RecordQuery.QueryCache

/-!
# Cache settings

The choice of a cache in a settings file: none, one without a bound, or one with a capacity. It is
written as a table whose entry `kind` names the choice, or as a list that starts with that name.
-/

namespace RecordQuery

/-- The content of a settings file. -/
inductive Setting where
  | null
  | boolean (b : Bool)
  | integer (n : Int)
  /-- A number that is not written as an integer. -/
  | decimal
  | text (s : String)
  | list (items : List Setting)
  | table (entries : List (String × Setting))
deriving Inhabited

/-- The entry of a table under a name. -/
def Setting.entry? (entries : List (String × Setting)) (name : String) : Option Setting :=
  entries.lookup name

/-- The choice of a cache. -/
inductive CacheSetting where
  | none
  | unbounded
  /-- A capacity of zero counts as one. -/
  | lru (capacity : UInt64)
deriving DecidableEq, Repr

namespace CacheSetting

/-- The capacity where none is given. -/
def defaultCapacity : UInt64 := 256

/-- Without settings nothing is cached. -/
instance : Inhabited CacheSetting := ⟨none⟩

/-- A capacity: an integer of at most 64 bits without a sign. -/
def readCapacity : Setting → Option UInt64
  | .integer n => if 0 ≤ n ∧ n < UInt64.size then some (UInt64.ofNat n.toNat) else Option.none
  | _ => Option.none

/-- The choice with a given name; `capacity` is the setting for the capacity, if there is one. -/
def ofKind (kind : String) (capacity : Option Setting) : Option CacheSetting :=
  if kind = "none" then some none
  else if kind = "unbounded" then some unbounded
  else if kind = "lru" then
    match capacity with
    | Option.none => some (lru defaultCapacity)
    | some s => (readCapacity s).map lru
  else Option.none

/-- The choice that a setting stands for. Entries of a table that mean nothing here are passed over;
    a list has no place for them. -/
def ofSetting : Setting → Option CacheSetting
  | .table entries =>
    match Setting.entry? entries "kind" with
    | some (.text kind) => ofKind kind (Setting.entry? entries "capacity")
    | _ => Option.none
  | .list [.text kind] => ofKind kind Option.none
  | .list [.text kind, capacity] =>
    if kind = "lru" then ofKind kind (some capacity) else Option.none
  | _ => Option.none

/-- The setting that stands for a choice. -/
def toSetting : CacheSetting → Setting
  | none => .table [("kind", .text "none")]
  | unbounded => .table [("kind", .text "unbounded")]
  | lru capacity => .table [("kind", .text "lru"), ("capacity", .integer capacity.toNat)]

/-- The empty cache that a choice describes. -/
def build {β : Type} : CacheSetting → Option (QueryCache β)
  | none => Option.none
  | unbounded => some (.unbounded {})
  | lru capacity => some (.bounded (.ofCapacity capacity.toNat))

end CacheSetting

end RecordQuery
