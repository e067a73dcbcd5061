import RelayRamp.Width

/-!
# The shortest decimal of a double

A double is a natural number times a power of two, and stands for every real that rounds to it. Its shortest
decimal has the fewest digits among the decimals in that interval, and is the nearest of those. The search
looks, for one digit after the other, at the two neighbours of the value on the decimal grid of that many
digits, in exact arithmetic.
-/
namespace RelayRamp.Decimal

/-- A positive binary number `mantissa * 2 ^ exponent`. -/
structure Binary where
  mantissa : Nat
  exponent : Int
  deriving DecidableEq, Repr

/-- The digits of a decimal and the number of them before the point, which may be negative. -/
structure Digits where
  digits : Nat
  point : Int
  deriving DecidableEq, Repr

/-- The fractions of a double are below it, and the mantissas of most are at least it. -/
abbrev fractionBound : Nat := 4503599627370496

/-- The biased exponents of a double are below it. -/
abbrev exponentBound : Nat := 2048

/-- The size of a finite double; zero has the mantissa zero. -/
def Binary.ofBits (bits : UInt64) : Binary :=
  let fraction : Nat := bits.toNat % fractionBound
  let biased : Nat := bits.toNat / fractionBound % exponentBound
  if biased = 0 then ⟨fraction, -1074⟩ else ⟨fraction + fractionBound, (biased : Int) - 1075⟩

/-- A fraction of natural numbers. -/
structure Ratio where
  num : Nat
  den : Nat

def Ratio.scaled (n : Nat) (exponent : Int) : Ratio :=
  if 0 ≤ exponent then ⟨n * Nat.pow 2 exponent.toNat, 1⟩ else ⟨n, Nat.pow 2 (-exponent).toNat⟩

def Ratio.lt (a b : Ratio) : Bool := a.num * b.den < b.num * a.den

def Ratio.le (a b : Ratio) : Bool := a.num * b.den ≤ b.num * a.den

/-- `n * 10 ^ k`. -/
def Ratio.decimal (n : Nat) (k : Int) : Ratio :=
  if 0 ≤ k then ⟨n * Nat.pow 10 k.toNat, 1⟩ else ⟨n, Nat.pow 10 (-k).toNat⟩

/-- The reals that round to the number: the ends are included when the mantissa is even. -/
def Binary.rounds (b : Binary) (r : Ratio) : Bool :=
  let narrow := b.mantissa = fractionBound ∧ b.exponent > -1074
  let low := Ratio.scaled (4 * b.mantissa - if narrow then 1 else 2) (b.exponent - 2)
  let high := Ratio.scaled (4 * b.mantissa + 2) (b.exponent - 2)
  if b.mantissa % 2 = 0 then low.le r && r.le high else low.lt r && r.lt high

/-- The number of digits before the point, counted from an upper estimate downward. -/
def Binary.pointFrom (b : Binary) : Nat → Int → Int
  | 0, point => point
  | fuel + 1, point =>
    if (Ratio.decimal 1 (point - 1)).le (Ratio.scaled b.mantissa b.exponent) then point
    else b.pointFrom fuel (point - 1)

def Binary.point (b : Binary) : Int := b.pointFrom 640 310

/-- The neighbour on the grid of so many digits that rounds to the number, the nearer one if both do. -/
def Binary.onGrid (b : Binary) (point : Int) (count : Nat) : Option Digits :=
  let step := point - count
  let v := Ratio.scaled b.mantissa b.exponent
  let unit := Ratio.decimal 1 step
  let below := v.num * unit.den / (v.den * unit.num)
  let lowFits := b.rounds (.decimal below step)
  let highFits := b.rounds (.decimal (below + 1) step)
  -- the distance from the value to each neighbour, in units of the grid
  let rest := v.num * unit.den % (v.den * unit.num)
  let nearHigh := rest * 2 > v.den * unit.num
  let take (n : Nat) : Option Digits :=
    if n = Nat.pow 10 count then some ⟨1, point + 1⟩ else some ⟨n, point⟩
  if lowFits && !(highFits && nearHigh) then take below
  else if highFits then take (below + 1)
  else none

/-- The shortest digits of a positive number. -/
def Binary.shortest (b : Binary) : Digits :=
  let point := b.point
  ((List.range 17).findSome? fun n => b.onGrid point (n + 1)).getD ⟨b.mantissa, point⟩

/-- Where a decimal is written without an exponent. -/
structure Style where
  /-- The greatest number of digits before the point. -/
  maxPoint : Int
  /-- The least; zeros follow the point when it is zero or negative. -/
  minPoint : Int
  deriving DecidableEq, Repr

/-- Up to 16 digits before the point, up to four zeros after it. -/
def Style.json : Style := ⟨16, -4⟩

/-- Writes digits; a whole number gets the fraction `.0`. -/
def Digits.render (style : Style) (d : Digits) : String :=
  let all := (toString d.digits).toList
  let zeros (n : Int) := List.replicate n.toNat '0'
  if 0 < d.point ∧ d.point ≤ style.maxPoint then
    let whole := (all ++ zeros (d.point - all.length)).take d.point.toNat
    let fraction := all.drop d.point.toNat
    String.ofList (whole ++ '.' :: if fraction.isEmpty then ['0'] else fraction)
  else if style.minPoint ≤ d.point ∧ d.point ≤ 0 then
    String.ofList ("0.".toList ++ zeros (-d.point) ++ all)
  else
    let tail := if all.length > 1 then '.' :: all.drop 1 else []
    String.ofList (all.take 1 ++ tail) ++ "e" ++ toString (d.point - 1)

/-- The text of a finite double. -/
def render (style : Style) (x : Float) : String :=
  let bits := x.toBits
  let sign := if bits.toNat ≥ Width.signed then "-" else ""
  let b := Binary.ofBits bits
  sign ++ if b.mantissa = 0 then "0.0" else b.shortest.render style

end RelayRamp.Decimal
