import RelayRamp.Text.Blank
import RelayRamp.Width

/-!
# JSON values

Objects keep their members in order, repeated names included. Integers are those from -2^63 to 2^64 - 1;
every other number is a double. A string whose escapes or octets spell no text is kept as unreadable: it can
be passed over but not read.

The second half reads records. A record is an object, whose unknown members are ignored, or an array that
lists the fields in the order of their declaration.
-/
namespace RelayRamp

inductive Json where
  | null
  | bool (value : Bool)
  | int (value : Int)
  | real (value : Float)
  | str (value : String)
  | unreadable
  | arr (items : List Json)
  | obj (members : List (String × Json))
  deriving Inhabited

namespace Json

def nat (n : Nat) : Json := .int n

def option (encode : α → Json) : Option α → Json
  | some a => encode a
  | none => .null

/-- An object from which members without a value are left out. -/
def object (members : List (String × Option Json)) : Json :=
  .obj (members.filterMap fun (name, value) => value.map (name, ·))

/-- What a record says about one of its fields: a value, nothing, or that the array ended before it. -/
inductive Cell where
  | given (value : Json)
  | omitted
  | beyond

/-- The value of the only member of the name; fails when the name is repeated. -/
def member (name : String) (members : List (String × Json)) : Option Cell :=
  match members.filter (·.1 == name) with
  | [] => some .omitted
  | [(_, value)] => some (.given value)
  | _ => none

/-- Pads an array of fields to the full number of them; fails when there are more items than fields. -/
def positional : List String → List Json → Option (List Cell)
  | [], [] => some []
  | [], _ :: _ => none
  | _ :: names, [] => (positional names []).map (.beyond :: ·)
  | _ :: names, item :: items => (positional names items).map (.given item :: ·)

/-- The cells of a record with the named fields. -/
def cells (names : List String) : Json → Option (List Cell)
  | .obj members => names.mapM (member · members)
  | .arr items => positional names items
  | _ => none

namespace Cell

/-- A field that must be given. -/
def required (decode : Json → Option α) : Cell → Option α
  | given value => decode value
  | _ => none

/-- A field that may be null or, in an object, omitted. -/
def optional (decode : Json → Option α) : Cell → Option (Option α)
  | given .null => some none
  | given value => (decode value).map some
  | omitted => some none
  | beyond => none

/-- A field that may be null or missing. -/
def defaulted (decode : Json → Option α) : Cell → Option (Option α)
  | given .null => some none
  | given value => (decode value).map some
  | _ => some none

/-- A field with a value to use when it is missing. -/
def orElse (fallback : α) (decode : Json → Option α) : Cell → Option α
  | given value => decode value
  | _ => some fallback

/-- A field in which null is a value of its own, apart from a missing field. -/
def nullable (decode : Json → Option α) : Cell → Option (Option (Option α))
  | given .null => some (some none)
  | given value => (decode value).map (some ∘ some)
  | _ => some none

end Cell

def asBool? : Json → Option Bool
  | .bool b => some b
  | _ => none

def asString? : Json → Option String
  | .str s => some s
  | _ => none

/-- An integer from zero up to the bound, which is not included. -/
def asBelow? (bound : Nat) : Json → Option Nat
  | .int z => if 0 ≤ z ∧ z < bound then some z.toNat else none
  | _ => none

/-- An unsigned integer of 32 bits. -/
def asWord? : Json → Option Nat := asBelow? Width.word

/-- An unsigned integer of 64 bits. -/
def asLong? : Json → Option Nat := asBelow? Width.long

/-- A signed integer of 64 bits. -/
def asSigned? : Json → Option Int
  | .int z => if Width.Signed z then some z else none
  | _ => none

/-- The first member of the name, unless it is null. -/
def given? (name : String) : Json → Option Json
  | .obj members =>
    match members.lookup name with
    | some .null => none
    | found => found
  | _ => none

/-- Reads the member of the name, which must be there. -/
def read? (j : Json) (name : String) (decode : Json → Option α) : Option α :=
  j.given? name >>= decode

/-- Splits a tagged record into the tag and the record of the other fields. -/
def tagged (name : String) : Json → Option (String × Json)
  | .obj members =>
    match member name members with
    | some (.given (.str tag)) => some (tag, .obj (members.filter (·.1 != name)))
    | _ => none
  | .arr (.str tag :: rest) => some (tag, .arr rest)
  | _ => none

/-- The name of a variant without content, alone or as the only member of an object. -/
def asVariant? : Json → Option String
  | .str name => some name
  | .obj [(name, .null)] => some name
  | _ => none

/-- A list in which every item can be read. -/
def asList? (decode : Json → Option α) : Json → Option (List α)
  | .arr items => items.mapM decode
  | _ => none

end Json

end RelayRamp
