import RelayRamp.Text.Blank

/-!
# Paths

A path is text with its parts between slashes. Empty parts and single dots say nothing, except that a slash at
the start makes the path absolute.
-/
namespace RelayRamp.Files

/-- The parts of a path, without those that say nothing. -/
def parts (path : String) : List String :=
  ((Text.splitOn '/' path.toList).map String.ofList).filter fun part => part ≠ "" && part ≠ "."

def isAbsolute (path : String) : Bool := path.startsWith "/"

/-- The longest path, in octets. -/
def maxPath : Nat := 4096

/-- The longest part of a path, in octets. -/
def maxPart : Nat := 255

def hasLongPart (path : String) : Bool := (parts path).any (Text.octets · > maxPart)

end RelayRamp.Files
