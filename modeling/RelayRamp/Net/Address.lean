import RelayRamp.Text.Blank
import RelayRamp.Text.Natural
import RelayRamp.Width

/-!
# Socket addresses

The text of an address with a port. Version 4 is four decimal octets; version 6 stands in brackets, as groups
of four hexadecimal digits, with at most one run of groups left out, at most one version 4 address in place of
the last two groups, and perhaps the number of a scope. Each reader takes what it can from the start of the
text and returns the rest.
-/
namespace RelayRamp.Net

open RelayRamp.Text

structure SocketAddress where
  /-- 4 or 16 octets. -/
  octets : List Nat
  /-- The scope of a version 6 address. -/
  scope : Nat
  port : Nat
  deriving DecidableEq, Repr

abbrev Reader (α : Type) := List Char → Option (α × List Char)

def character (c : Char) : Reader Unit
  | d :: rest => if d = c then some ((), rest) else none
  | [] => none

def hexDigit? (c : Char) : Option Nat :=
  if isDigit c then some (c.toNat - 48)
  else if 'a' ≤ c ∧ c ≤ 'f' then some (c.toNat - 87)
  else if 'A' ≤ c ∧ c ≤ 'F' then some (c.toNat - 55)
  else none

/-- A decimal number below a bound; zeros in front are allowed. -/
def decimal (bound : Nat) : Reader Nat := fun s =>
  let digits := s.takeWhile isDigit
  if digits.isEmpty || ofDigits digits ≥ bound then none
  else some (ofDigits digits, s.dropWhile isDigit)

/-- A decimal octet of at most three digits without zeros in front. -/
def octet : Reader Nat := fun s =>
  let digits := s.takeWhile isDigit
  if digits.length > 3 || (digits.length > 1 && digits.head? == some '0') then none
  else decimal 256 s

/-- A group of one to four hexadecimal digits. -/
def group : Reader Nat := fun s =>
  let digits := s.takeWhile fun c => (hexDigit? c).isSome
  if digits.isEmpty || digits.length > 4 then none
  else
    let n := digits.foldl (fun n c => n * 16 + (hexDigit? c).getD 0) 0
    some (n, s.drop digits.length)

def version4 : Reader (List Nat) := fun s => do
  let (a, s) ← octet s
  let ((), s) ← character '.' s
  let (b, s) ← octet s
  let ((), s) ← character '.' s
  let (c, s) ← octet s
  let ((), s) ← character '.' s
  let (d, s) ← octet s
  pure ([a, b, c, d], s)

/-- A reading after a colon, or at once when it is the first. -/
def afterColon (first : Bool) (read : Reader α) : Reader α := fun s =>
  if first then read s
  else do
    let ((), s) ← character ':' s
    read s

/-- As many groups between colons as there are, up to the room; whether they end with a version 4 address. -/
def groups : Nat → Bool → List Char → List Nat × Bool × List Char
  | 0, _, s => ([], false, s)
  | room + 1, first, s =>
    match if room ≥ 1 then afterColon first version4 s else none with
    | some ([a, b, c, d], s) => ([a * 256 + b, c * 256 + d], true, s)
    | _ =>
      match afterColon first group s with
      | none => ([], false, s)
      | some (g, rest) =>
        let (more, mixed, rest) := groups room false rest
        (g :: more, mixed, rest)

/-- The eight groups of a version 6 address. -/
def version6 : Reader (List Nat) := fun s =>
  let (front, mixed, s) := groups 8 true s
  if front.length = 8 then some (front, s)
  else if mixed then none
  else do
    let ((), s) ← character ':' s
    let ((), s) ← character ':' s
    let (back, _, s) := groups (7 - front.length) true s
    pure (front ++ List.replicate (8 - front.length - back.length) 0 ++ back, s)

/-- A scope, or zero where none can be read. -/
def scopeId (s : List Char) : Nat × List Char :=
  let found := do
    let ((), rest) ← character '%' s
    decimal Width.word rest
  found.getD (0, s)

def port : Reader Nat := fun s => do
  let ((), s) ← character ':' s
  decimal 65536 s

def socket4 : Reader SocketAddress := fun s => do
  let (octets, s) ← version4 s
  let (port, s) ← port s
  pure (⟨octets, 0, port⟩, s)

def socket6 : Reader SocketAddress := fun s => do
  let ((), s) ← character '[' s
  let (found, s) ← version6 s
  let (scope, s) := scopeId s
  let ((), s) ← character ']' s
  let (port, s) ← port s
  pure (⟨found.flatMap fun g => [g / 256, g % 256], scope, port⟩, s)

/-- Reads a whole text as an address. -/
def SocketAddress.parse (s : String) : Option SocketAddress :=
  match socket4 s.toList <|> socket6 s.toList with
  | some (address, []) => some address
  | _ => none

end RelayRamp.Net
