import RelayRamp.Text.Natural

/-!
# Decimals in text

A written decimal is a sign, digits and a power of ten. The double that it stands for is the nearest one; beyond
the range of doubles that is zero or infinity, whatever the digits are.
-/
namespace RelayRamp.Decimal

open RelayRamp.Text

/-- The number `digits * 10 ^ exponent`, with its sign. -/
structure Written where
  negative : Bool
  digits : Nat
  exponent : Int
  deriving DecidableEq, Repr

namespace Written

/-- The nearest double. Powers of ten far beyond the doubles are decided by their size alone. -/
def toFloat (w : Written) : Float :=
  let magnitude := w.exponent + Nat.log2 w.digits
  let size : Float :=
    if w.digits = 0 ∨ magnitude < -2000 then 0
    else if w.exponent > 400 then 1 / 0
    else Float.ofScientific w.digits (w.exponent < 0) w.exponent.natAbs
  if w.negative then -size else size

def splitSign : List Char → Bool × List Char
  | '-' :: rest => (true, rest)
  | '+' :: rest => (false, rest)
  | rest => (false, rest)

/-- The power of ten at the end of a number: a mark, perhaps a sign, and digits; or nothing. -/
def power? : List Char → Option Int
  | [] => some 0
  | mark :: rest =>
    let (negative, digits) := splitSign rest
    if (mark ≠ 'e' ∧ mark ≠ 'E') ∨ digits.isEmpty ∨ !digits.all isDigit then none
    else
      let n : Int := ofDigits digits
      some (if negative then -n else n)

/-- Reads a whole text: perhaps a sign, digits on at least one side of an optional point, and perhaps a power of
ten. -/
def ofChars? (s : List Char) : Option Written :=
  let (negative, s) := splitSign s
  let whole := s.takeWhile isDigit
  let s := s.dropWhile isDigit
  let (fraction, s) := match s with
    | '.' :: rest => (rest.takeWhile isDigit, rest.dropWhile isDigit)
    | rest => ([], rest)
  if whole.isEmpty && fraction.isEmpty then none
  else (power? s).map fun power => ⟨negative, ofDigits (whole ++ fraction), power - fraction.length⟩

end Written

end RelayRamp.Decimal
