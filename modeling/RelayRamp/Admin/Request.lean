import RelayRamp.Text.Blank

/-!
# Requests to the admin interface

A request has a method, a target and a body. The target is a path, which may be followed by a query or a
fragment; both are checked for their characters and then ignored.
-/
namespace RelayRamp.Admin

structure Request where
  method : String
  path : String
  body : List UInt8
  deriving DecidableEq, Repr

namespace Request

/-- A character of a method. -/
def isTokenChar (c : Char) : Bool :=
  Text.isAlphanumeric c || "!#$%&'*+-.^_`|~".toList.contains c

/-- A character of a path. Those beyond ASCII are taken as they are. -/
def isPathChar (c : Char) : Bool :=
  !(c.toNat ≤ 0x20 || c == '<' || c == '>' || c == '`' || c.toNat == 0x7F)

/-- A character of a query. -/
def isQueryChar (c : Char) : Bool :=
  !(c.toNat ≤ 0x20 || c == '"' || c == '<' || c == '>' || c.toNat == 0x7F)

/-- The path of a target, if the target is well formed. -/
def pathOf? (target : String) : Option String :=
  let chars := target.toList.takeWhile (· ≠ '#')
  let path := chars.takeWhile (· ≠ '?')
  let query := chars.dropWhile (· ≠ '?')
  if path.head? = some '/' ∧ path.all isPathChar ∧ query.all isQueryChar then some (String.ofList path)
  else none

/-- A request with the given method, target and body. -/
def ofParts? (method target : String) (body : List UInt8) : Option Request :=
  if method.isEmpty || !method.toList.all isTokenChar then none
  else (pathOf? target).map fun path => ⟨method, path, body⟩

end Request

end RelayRamp.Admin
