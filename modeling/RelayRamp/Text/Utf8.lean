/-!
# UTF-8 octets and text

A machine reads one octet at a time and remembers what the character it is in still owes. An octet that the
machine refuses ends the character: the octets before it count as one fault, and the octet is read again as
the start of a character. Reading with replacement puts U+FFFD for each fault; strict reading refuses them.
-/
namespace RelayRamp.Text.Utf8

/-- A character that has begun: the octets it owes, the range of the next one, and the bits read so far. -/
structure Pending where
  owed : Nat
  low : Nat
  high : Nat
  code : Nat
  deriving DecidableEq, Repr

/-- What one octet means where a character may start. -/
inductive Lead where
  | whole (c : Char)
  | begins (pending : Pending)
  | fault
  deriving DecidableEq, Repr

def lead (octet : Nat) : Lead :=
  if octet < 0x80 then .whole (Char.ofNat octet)
  else if octet < 0xC2 then .fault
  else if octet < 0xE0 then .begins ⟨1, 0x80, 0xBF, octet - 0xC0⟩
  else if octet = 0xE0 then .begins ⟨2, 0xA0, 0xBF, 0⟩
  else if octet = 0xED then .begins ⟨2, 0x80, 0x9F, 0xD⟩
  else if octet < 0xF0 then .begins ⟨2, 0x80, 0xBF, octet - 0xE0⟩
  else if octet = 0xF0 then .begins ⟨3, 0x90, 0xBF, 0⟩
  else if octet < 0xF4 then .begins ⟨3, 0x80, 0xBF, octet - 0xF0⟩
  else if octet = 0xF4 then .begins ⟨3, 0x80, 0x8F, 4⟩
  else .fault

/-- Reads an octet where a character may start: what it completes, and what is then owed. -/
def start (octet : Nat) : List (Option Char) × Option Pending :=
  match lead octet with
  | .whole c => ([some c], none)
  | .begins pending => ([], some pending)
  | .fault => ([none], none)

/-- Reads one octet: the characters and faults it completes, and what is then owed. -/
def feed (pending : Option Pending) (octet : Nat) : List (Option Char) × Option Pending :=
  match pending with
  | none => start octet
  | some p =>
    if p.low ≤ octet ∧ octet ≤ p.high then
      let code := p.code * 64 + (octet - 0x80)
      if p.owed ≤ 1 then ([some (Char.ofNat code)], none)
      else ([], some ⟨p.owed - 1, 0x80, 0xBF, code⟩)
    else
      let (out, next) := start octet
      (none :: out, next)

/-- How far a sequence has been read: its characters, the last one first, and what is owed. -/
structure Progress where
  done : List (Option Char)
  pending : Option Pending
  deriving DecidableEq, Repr

def Progress.next (p : Progress) (octet : UInt8) : Progress :=
  let (out, pending) := feed p.pending octet.toNat
  ⟨out.reverse ++ p.done, pending⟩

/-- The characters of an octet sequence, with `none` for each fault. -/
def scan (octets : List UInt8) : List (Option Char) :=
  let p := octets.foldl Progress.next ⟨[], none⟩
  (if p.pending.isSome then none :: p.done else p.done).reverse

/-- The character that stands for octets that are not UTF-8. -/
def replacement : Char := Char.ofNat 0xFFFD

/-- Reads octets as text, each fault becoming the replacement character. -/
def decodeLossy (octets : List UInt8) : List Char :=
  (scan octets).map (·.getD replacement)

/-- Reads octets as text, refusing any fault. -/
def decode (octets : List UInt8) : Option (List Char) :=
  (scan octets).mapM id

/-- The octets of a text. -/
def encode (s : String) : List UInt8 :=
  s.toUTF8.toList

end RelayRamp.Text.Utf8
