import RelayRamp.Text.Utf8

/-!
# Percent encoding

Two hexadecimal digits after a percent sign stand for an octet. A percent sign without them stands for itself.
-/
namespace RelayRamp.Text.Percent

def hexValue (octet : UInt8) : Option UInt8 :=
  if 48 ≤ octet && octet ≤ 57 then some (octet - 48)
  else if 65 ≤ octet && octet ≤ 70 then some (octet - 55)
  else if 97 ≤ octet && octet ≤ 102 then some (octet - 87)
  else none

/-- The octets that an encoded sequence stands for. -/
def decodeOctets : List UInt8 → List UInt8
  | 37 :: a :: b :: rest =>
    match hexValue a, hexValue b with
    | some high, some low => (high * 16 + low) :: decodeOctets rest
    | _, _ => 37 :: decodeOctets (a :: b :: rest)
  | octet :: rest => octet :: decodeOctets rest
  | [] => []

/-- The text that an encoded text stands for. -/
def decode (s : String) : Option String :=
  (Utf8.decode (decodeOctets (Utf8.encode s))).map String.ofList

end RelayRamp.Text.Percent
