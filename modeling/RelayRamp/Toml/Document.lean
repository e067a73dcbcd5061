import RelayRamp.Toml.Text

/-!
# Building a document

Where a key or a header puts what it brings. Nothing is defined twice: a header defines a table once, keys with
dots add only to tables that such keys made, and a table between braces is complete. A step on the way through
an array of tables leads into its last table.
-/
namespace RelayRamp.Toml

/-- A table with how it came about. -/
abbrev Table := TableKind × Members

def Members.get? (ms : Members) (key : String) : Option Value := ms.lookup key

/-- Replaces the value of a key in its place, or adds it at the end. -/
def Members.put (ms : Members) (key : String) (v : Value) : Members :=
  if ms.any (·.1 = key) then ms.map fun m => if m.1 = key then (key, v) else m else ms ++ [(key, v)]

/-- Changes the table at the end of a way; tables on the way that do not exist yet begin with the given kind. -/
def under (missing : TableKind) : List String → (Table → Option Table) → Table → Option Table
  | [], change, table => change table
  | key :: way, change, (kind, members) =>
    match members.get? key with
    | none => do
      let (k, ms) ← under missing way change (missing, [])
      pure (kind, members.put key (.table k ms))
    | some (.table k ms) =>
      if k = .inline ∨ (missing = .dotted ∧ k = .defined) then none
      else do
        let (k, ms) ← under missing way change (k, ms)
        pure (kind, members.put key (.table k ms))
    | some (.tables (last :: before)) => do
      let (_, ms) ← under missing way change (.defined, last)
      pure (kind, members.put key (.tables (ms :: before)))
    | some _ => none

/-- The way to the last key of a path, and that key. -/
def splitPath : List String → Option (List String × String)
  | [] => none
  | [key] => some ([], key)
  | key :: rest => (splitPath rest).map fun (way, last) => (key :: way, last)

/-- Sets a key of a table. A key with dots must end in a table that such keys made. -/
def assign (path : List String) (v : Value) (table : Table) : Option Table := do
  let (way, key) ← splitPath path
  let add : Table → Option Table := fun (kind, members) =>
    if (!way.isEmpty && kind ≠ .dotted) || (members.get? key).isSome then none
    else some (kind, members ++ [(key, v)])
  under .dotted way add table

/-- Defines the table of a header. -/
def define (path : List String) (table : Table) : Option Table := do
  let (way, key) ← splitPath path
  let add : Table → Option Table := fun (kind, members) =>
    match members.get? key with
    | none => some (kind, members ++ [(key, .table .defined [])])
    | some (.table .implied ms) => some (kind, members.put key (.table .defined ms))
    | some _ => none
  under .implied way add table

/-- Adds a table to the array of a header. -/
def append (path : List String) (table : Table) : Option Table := do
  let (way, key) ← splitPath path
  let add : Table → Option Table := fun (kind, members) =>
    match members.get? key with
    | none => some (kind, members ++ [(key, .tables [[]])])
    | some (.tables items) => some (kind, members.put key (.tables ([] :: items)))
    | some _ => none
  under .implied way add table

/-- Sets a key below the table that a header defined. -/
def assignUnder (header path : List String) (v : Value) (table : Table) : Option Table :=
  under .implied header (assign path v) table

end RelayRamp.Toml
