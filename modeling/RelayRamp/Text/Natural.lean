import RelayRamp.Text.Blank
import RelayRamp.Width

/-!
# Natural numbers in text

Decimal digits, with a plus sign in front if one likes. Zeros in front change nothing.
-/
namespace RelayRamp.Text

def ofDigits (digits : List Char) : Nat :=
  digits.foldl (fun n c => n * 10 + (c.toNat - '0'.toNat)) 0

/-- The number that the text spells, if it is less than the bound. -/
def naturalBelow? (bound : Nat) (s : String) : Option Nat :=
  let digits := match s.toList with
    | '+' :: rest => rest
    | all => all
  if digits.isEmpty || !digits.all isDigit then none
  else if ofDigits digits < bound then some (ofDigits digits)
  else none

/-- A number that fits 32 bits. -/
def word? : String → Option Nat := naturalBelow? Width.word

/-- A number that fits 64 bits. -/
def long? : String → Option Nat := naturalBelow? Width.long

end RelayRamp.Text
