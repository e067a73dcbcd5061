import RelayRamp.Decimal.Reading
import RelayRamp.Json.Basic
import RelayRamp.Text.Utf8
import RelayRamp.Width

/-!
# Reading JSON text

A recursive-descent reader over octets. Octets that are not UTF-8 are accepted inside strings, which then
become unreadable; everywhere else they are faults. The reader refuses arrays and objects nested deeper than
it is told to.
-/
namespace RelayRamp.Json

open RelayRamp.Text (Utf8.decode Utf8.encode)

abbrev Octets := List UInt8

def octet (c : Char) : UInt8 := c.toNat.toUInt8

def skipBlank (s : Octets) : Octets :=
  s.dropWhile fun b => b == 32 || b == 9 || b == 10 || b == 13

def isDigitOctet (b : UInt8) : Bool := 48 ≤ b && b ≤ 57

def hexValue (b : UInt8) : Option Nat :=
  if isDigitOctet b then some (b.toNat - 48)
  else if 97 ≤ b && b ≤ 102 then some (b.toNat - 87)
  else if 65 ≤ b && b ≤ 70 then some (b.toNat - 55)
  else none

/-- The octets that pairs of hexadecimal digits spell. -/
def octetsOfHex? : List Char → Option Octets
  | a :: b :: rest => do
    if a.toNat > 127 ∨ b.toNat > 127 then none
    let high ← hexValue (octet a)
    let low ← hexValue (octet b)
    pure ((high * 16 + low).toUInt8 :: (← octetsOfHex? rest))
  | [] => some []
  | _ => none

def hex4 (a b c d : UInt8) : Option Nat := do
  pure ((((← hexValue a) * 16 + (← hexValue b)) * 16 + (← hexValue c)) * 16 + (← hexValue d))

/-- The octets of one character, as a list in reverse. -/
def pushChar (out : Octets) (c : Char) : Octets :=
  (Utf8.encode (String.singleton c)).reverse ++ out

/-- The character that a one-letter escape stands for. -/
def escapeChar (b : UInt8) : Option Char :=
  if b == 34 then some '"' else if b == 92 then some '\\' else if b == 47 then some '/'
  else if b == 98 then some (Char.ofNat 8) else if b == 102 then some (Char.ofNat 12)
  else if b == 110 then some '\n' else if b == 114 then some '\r' else if b == 116 then some '\t'
  else none

/-- The rest of a string after its opening quote: its octets in reverse and whether its escapes are sound,
then what follows the closing quote. The high half of a surrogate pair waits for the low half. -/
def stringBody : Option Nat → Bool → Octets → Octets → Option (Octets × Bool × Octets)
  | high, sound, out, 92 :: 117 :: a :: b :: c :: d :: rest =>
    match hex4 a b c d with
    | none => none
    | some unit =>
      match high with
      | some h =>
        if 0xDC00 ≤ unit ∧ unit < 0xE000 then
          let code := 0x10000 + (h - 0xD800) * 0x400 + (unit - 0xDC00)
          stringBody none sound (pushChar out (Char.ofNat code)) rest
        else stringBody none false out rest
      | none =>
        if 0xD800 ≤ unit ∧ unit < 0xDC00 then stringBody (some unit) sound out rest
        else if 0xDC00 ≤ unit ∧ unit < 0xE000 then stringBody none false out rest
        else stringBody none sound (pushChar out (Char.ofNat unit)) rest
  | high, sound, out, 92 :: e :: rest =>
    match escapeChar e with
    | some c => stringBody none (sound && high.isNone) (pushChar out c) rest
    | none => none
  | high, sound, out, b :: rest =>
    if b == 34 then some (out, sound && high.isNone, rest)
    else if b < 32 || b == 92 then none
    else stringBody none (sound && high.isNone) (b :: out) rest
  | _, _, _, [] => none

/-- The text of a string after its opening quote, if it spells one. -/
def readString (s : Octets) : Option (Option String × Octets) :=
  (stringBody none true [] s).map fun (out, sound, rest) =>
    (if sound then (Utf8.decode out.reverse).map String.ofList else none, rest)

def naturalOf (digits : Octets) : Nat :=
  digits.foldl (fun v b => v * 10 + (b.toNat - 48)) 0

/-- A number: an integer when it has neither fraction nor exponent and is in range. -/
def readNumber (s : Octets) : Option (Json × Octets) := do
  let negative := s.head? == some 45
  let s := if negative then s.drop 1 else s
  let whole := s.takeWhile isDigitOctet
  let s := s.dropWhile isDigitOctet
  if whole.isEmpty || (whole.length > 1 && whole.head? == some 48) then none
  let (fraction, s, fractional) ←
    if s.head? == some 46 then
      let found := (s.drop 1).takeWhile isDigitOctet
      if found.isEmpty then none else some (found, (s.drop 1).dropWhile isDigitOctet, true)
    else some ([], s, false)
  let (exponent, s, powered) ←
    if s.head? == some 101 || s.head? == some 69 then
      let t := s.drop 1
      let minus := t.head? == some 45
      let t := if minus || t.head? == some 43 then t.drop 1 else t
      let found := t.takeWhile isDigitOctet
      let size : Int := naturalOf found
      if found.isEmpty then none else some (if minus then -size else size, t.dropWhile isDigitOctet, true)
    else some (0, s, false)
  let value : Int := if negative then -(naturalOf whole) else naturalOf whole
  let plain := !fractional && !powered && !(negative && value == 0)
  if plain && -9223372036854775808 ≤ value && value < Width.long then some (.int value, s)
  else
    let all := naturalOf (whole ++ fraction)
    some (.real (Decimal.Written.mk negative all (exponent - fraction.length)).toFloat, s)

def literal (text : String) (s : Octets) : Option Octets :=
  let t := Utf8.encode text
  if t.isPrefixOf s then some (s.drop t.length) else none

mutual

/-- One value. The fuel bounds the calls, the depth the nesting. -/
def readValue : Nat → Nat → Octets → Option (Json × Octets)
  | 0, _, _ => none
  | fuel + 1, depth, s =>
    match skipBlank s with
    | [] => none
    | b :: rest =>
      if b == 110 then (literal "null" (b :: rest)).map (.null, ·)
      else if b == 116 then (literal "true" (b :: rest)).map (.bool true, ·)
      else if b == 102 then (literal "false" (b :: rest)).map (.bool false, ·)
      else if b == 34 then
        (readString rest).map fun (text, rest) => ((text.map Json.str).getD .unreadable, rest)
      else if b == 91 then
        match depth, skipBlank rest with
        | 0, _ => none
        | _ + 1, 93 :: rest => some (.arr [], rest)
        | depth + 1, rest => (readItems fuel depth rest).map fun (items, rest) => (.arr items, rest)
      else if b == 123 then
        match depth, skipBlank rest with
        | 0, _ => none
        | _ + 1, 125 :: rest => some (.obj [], rest)
        | depth + 1, rest => (readMembers fuel depth rest).map fun (members, rest) => (.obj members, rest)
      else readNumber (b :: rest)

/-- The items of an array up to its closing bracket; there is at least one. -/
def readItems : Nat → Nat → Octets → Option (List Json × Octets)
  | 0, _, _ => none
  | fuel + 1, depth, s => do
    let (item, rest) ← readValue fuel depth s
    match skipBlank rest with
    | 93 :: rest => pure ([item], rest)
    | 44 :: rest =>
      let (items, rest) ← readItems fuel depth rest
      pure (item :: items, rest)
    | _ => none

/-- The members of an object up to its closing brace; there is at least one. -/
def readMembers : Nat → Nat → Octets → Option (List (String × Json) × Octets)
  | 0, _, _ => none
  | fuel + 1, depth, s =>
    match skipBlank s with
    | 34 :: rest => do
      let (name, rest) ← readString rest
      let name ← name
      let 58 :: rest := skipBlank rest | none
      let (value, rest) ← readValue fuel depth rest
      match skipBlank rest with
      | 125 :: rest => pure ([(name, value)], rest)
      | 44 :: rest =>
        let (members, rest) ← readMembers fuel depth rest
        pure ((name, value) :: members, rest)
      | _ => none
    | _ => none

end

/-- Reads a whole text with arrays and objects nested at most so deep. -/
def parseNested (depth : Nat) (s : Octets) : Option Json := do
  let (value, rest) ← readValue (2 * s.length + 2) depth s
  if (skipBlank rest).isEmpty then some value else none

/-- Reads a whole text with any nesting. -/
def parse (s : Octets) : Option Json := parseNested s.length s

end RelayRamp.Json
