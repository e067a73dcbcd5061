/-!
# Widths

How large the numbers of each width can be. A word has 32 bits, a long number 64, and neither has a sign; a
signed number has 64 bits with its sign.
-/
namespace RelayRamp.Width

/-- Words are below it. -/
abbrev word : Nat := 4294967296

/-- Long numbers are below it. -/
abbrev long : Nat := 18446744073709551616

/-- Signed numbers are below it, and not below its negative. -/
abbrev signed : Nat := 9223372036854775808

abbrev Signed (z : Int) : Prop := -9223372036854775808 ≤ z ∧ z < 9223372036854775808

end RelayRamp.Width
