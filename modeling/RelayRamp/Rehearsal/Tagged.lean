/-!
# Things kept under tags

A few things at a time, each under a tag of its own.
-/
namespace RelayRamp.Rehearsal

/-- At most one thing for each tag; the newest is last. -/
abbrev Tagged (α : Type) := List (String × α)

namespace Tagged

variable {α : Type}

def get? (xs : Tagged α) (tag : String) : Option α := xs.lookup tag

def erase (xs : Tagged α) (tag : String) : Tagged α := xs.filter (·.1 ≠ tag)

def insert (xs : Tagged α) (tag : String) (a : α) : Tagged α := erase xs tag ++ [(tag, a)]

/-- The things in the order of their tags. -/
def sorted (xs : Tagged α) : List α :=
  (xs.mergeSort fun a b => a.1 < b.1 || a.1 == b.1).map (·.2)

end Tagged

end RelayRamp.Rehearsal
