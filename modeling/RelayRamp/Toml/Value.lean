/-!
# TOML values

A document is a table. Tables remember how they came about, because that decides what may still be added to
them. Floats and times are kept as they were written.
-/
namespace RelayRamp.Toml

/-- How a table came about. -/
inductive TableKind where
  /-- Written between braces; it is complete. -/
  | inline
  /-- By a key with dots; more such keys may add to it. -/
  | dotted
  /-- As a step on the way to a header; a header may still define it. -/
  | implied
  /-- By a header, or as the document. -/
  | defined
  deriving DecidableEq, Repr

inductive Value where
  | str (text : String)
  | int (value : Int)
  | bool (value : Bool)
  | real (written : List Char)
  | time (written : List Char)
  | arr (items : List Value)
  | table (kind : TableKind) (members : List (String × Value))
  /-- An array of tables, the last of which is still open; it is first in the list. -/
  | tables (items : List (List (String × Value)))
  deriving Inhabited

abbrev Members := List (String × Value)

namespace Value

/-- The value with its kind forgotten: an array of tables is an array. -/
def items? : Value → Option (List Value)
  | arr items => some items
  | tables items => some (items.reverse.map (table .defined))
  | _ => none

def members? : Value → Option Members
  | table _ members => some members
  | _ => none

end Value

end RelayRamp.Toml
