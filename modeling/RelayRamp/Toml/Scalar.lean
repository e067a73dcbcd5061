import RelayRamp.Decimal.Reading
import RelayRamp.Text.Natural
import RelayRamp.Time.Instant
import RelayRamp.Toml.Value

/-!
# Numbers, booleans and times of TOML

A value without quotes or brackets is one run of characters, which must be a number, a boolean or a time as a
whole. Digits may be grouped by single underscores between digits.
-/
namespace RelayRamp.Toml

open RelayRamp.Text
open RelayRamp.Decimal.Written (splitSign)

/-- Digits of a class, with single underscores between them. -/
def isGrouped (digit : Char → Bool) : List Char → Bool
  | [] => false
  | [c] => digit c
  | c :: '_' :: rest => digit c && isGrouped digit rest
  | c :: rest => digit c && isGrouped digit rest

def ungrouped (s : List Char) : List Char := s.filter (· ≠ '_')

/-- Decimal digits without zeros in front. -/
def isWhole (s : List Char) : Bool :=
  isGrouped isDigit s && (s.length = 1 || s.head? ≠ some '0')

def isHexDigit (c : Char) : Bool := isDigit c || ('a' ≤ c && c ≤ 'f') || ('A' ≤ c && c ≤ 'F')

def digitValue (c : Char) : Nat :=
  if isDigit c then c.toNat - 48 else if 'a' ≤ c then c.toNat - 87 else c.toNat - 55

def valueIn (base : Nat) (digits : List Char) : Nat :=
  digits.foldl (fun n c => n * base + digitValue c) 0

/-- Integers have at most 128 bits. -/
def boundedInt (n : Int) : Option Value :=
  if -170141183460469231731687303715884105728 ≤ n ∧ n < 340282366920938463463374607431768211456 then
    some (.int n)
  else none

def based (base : Nat) (digit : Char → Bool) (digits : List Char) : Option Value :=
  if isGrouped digit digits then boundedInt (valueIn base (ungrouped digits)) else none

def integer? (s : List Char) : Option Value :=
  match s with
  | '0' :: 'x' :: digits => based 16 isHexDigit digits
  | '0' :: 'o' :: digits => based 8 (fun c => '0' ≤ c && c ≤ '7') digits
  | '0' :: 'b' :: digits => based 2 (fun c => c == '0' || c == '1') digits
  | _ =>
    let (negative, digits) := splitSign s
    if isWhole digits then
      let n : Int := ofDigits (ungrouped digits)
      boundedInt (if negative then -n else n)
    else none

/-- The form of a float: it has a fraction, an exponent or both; zeros may stand in front of the exponent's
digits. -/
def hasFloatForm (s : List Char) : Bool :=
  let isMark (c : Char) : Bool := c == 'e' || c == 'E'
  let mantissa := s.takeWhile (!isMark ·)
  let exponent := s.dropWhile (!isMark ·)
  let exponentOk := match exponent with
    | [] => true
    | _ :: rest => isGrouped isDigit (splitSign rest).2
  match splitFirst '.' mantissa with
  | some (whole, fraction) => isWhole whole && isGrouped isDigit fraction && exponentOk
  | none => !exponent.isEmpty && isWhole mantissa && exponentOk

/-- A float is within the range of doubles, or is one of the words for infinity and for no number. -/
def isFloat (s : List Char) : Bool :=
  let (_, s) := splitSign s
  if s == "inf".toList || s == "nan".toList then true
  else
    let inRange := (Decimal.Written.ofChars? (ungrouped s)).map (·.toFloat.isFinite)
    hasFloatForm s && inRange.getD false

/-- Reads a number of exactly so many digits. -/
def fixedDigits (width : Nat) (s : List Char) : Option (Nat × List Char) :=
  let digits := s.take width
  if digits.length = width ∧ digits.all isDigit then some (ofDigits digits, s.drop width) else none

def skip (c : Char) : List Char → Option (List Char)
  | d :: rest => if c = d then some rest else none
  | [] => none

/-- Reads a day of the calendar. -/
def dateRest? (s : List Char) : Option (List Char) := do
  let (year, s) ← fixedDigits 4 s
  let s ← skip '-' s
  let (month, s) ← fixedDigits 2 s
  let s ← skip '-' s
  let (day, s) ← fixedDigits 2 s
  if 1 ≤ month ∧ month ≤ 12 ∧ 1 ≤ day ∧ day ≤ Time.Date.daysInMonth year month then some s else none

/-- Reads a fraction of a second, if there is one. -/
def fractionRest? : List Char → Option (List Char)
  | '.' :: rest =>
    if (rest.head?.map isDigit).getD false then some (rest.dropWhile isDigit) else none
  | s => some s

/-- Reads a time of day; its seconds may be left out. -/
def clockRest? (s : List Char) : Option (List Char) := do
  let (hour, s) ← fixedDigits 2 s
  let s ← skip ':' s
  let (minute, s) ← fixedDigits 2 s
  if hour > 23 ∨ minute > 59 then none
  match s with
  | ':' :: rest =>
    let (second, s) ← fixedDigits 2 rest
    if second > 60 then none
    fractionRest? s
  | s => some s

/-- A whole offset from UTC, or nothing. -/
def isOffset : List Char → Bool
  | [] => true
  | ['Z'] | ['z'] => true
  | sign :: rest =>
    let read := do
      let (hour, s) ← fixedDigits 2 rest
      let s ← skip ':' s
      let (minute, s) ← fixedDigits 2 s
      pure (hour ≤ 23 && minute ≤ 59 && s.isEmpty)
    (sign == '+' || sign == '-') && read.getD false

def isTime (s : List Char) : Bool :=
  match dateRest? s with
  | some [] => true
  | some (mark :: rest) =>
    (mark == 'T' || mark == 't' || mark == ' ') && ((clockRest? rest).map isOffset).getD false
  | none => clockRest? s == some []

/-- The value that a run of characters stands for. -/
def scalar? (s : List Char) : Option Value :=
  if s = "true".toList then some (.bool true)
  else if s = "false".toList then some (.bool false)
  else
    match integer? s with
    | some n => some n
    | none => if isFloat s then some (.real s) else if isTime s then some (.time s) else none

end RelayRamp.Toml
