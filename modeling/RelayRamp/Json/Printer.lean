import RelayRamp.Decimal.Shortest
import RelayRamp.Json.Basic

/-!
# Writing JSON text

On one line without blanks, or over several lines with two blanks for each level. Only quotes, backslashes and
control characters below U+0020 are escaped in strings.
-/
namespace RelayRamp.Json

def hexDigit (n : Nat) : Char :=
  if n < 10 then Char.ofNat (48 + n) else Char.ofNat (87 + n)

/-- The text of a character inside a string. -/
def escape (c : Char) : List Char :=
  if c = '"' then ['\\', '"']
  else if c = '\\' then ['\\', '\\']
  else if c = '\n' then ['\\', 'n']
  else if c = '\r' then ['\\', 'r']
  else if c = '\t' then ['\\', 't']
  else if c.toNat = 8 then ['\\', 'b']
  else if c.toNat = 12 then ['\\', 'f']
  else if c.toNat < 0x20 then ['\\', 'u', '0', '0', hexDigit (c.toNat / 16), hexDigit (c.toNat % 16)]
  else [c]

def quote (s : String) : String :=
  String.ofList ('"' :: s.toList.flatMap escape ++ ['"'])

/-- The text of a number. A double that is not finite is written as null. -/
def realText (x : Float) : String :=
  if x.isFinite then Decimal.render .json x else "null"

mutual

/-- One line without blanks. -/
def compress : Json → String
  | .null | .unreadable => "null"
  | .bool true => "true"
  | .bool false => "false"
  | .int n => toString n
  | .real x => realText x
  | .str s => quote s
  | .arr items => "[" ++ String.intercalate "," (compressItems items) ++ "]"
  | .obj members => "\x7b" ++ String.intercalate "," (compressMembers members) ++ "\x7d"

def compressItems : List Json → List String
  | [] => []
  | item :: rest => item.compress :: compressItems rest

def compressMembers : List (String × Json) → List String
  | [] => []
  | (name, value) :: rest => (quote name ++ ":" ++ value.compress) :: compressMembers rest

end

/-- Lines between two brackets, indented one level deeper than the brackets. -/
def indented (level : Nat) (opening closing : String) (lines : List String) : String :=
  let margin (n : Nat) := "\n" ++ String.ofList (List.replicate (2 * n) ' ')
  if lines.isEmpty then opening ++ closing
  else
    opening ++ String.intercalate "," (lines.map (margin (level + 1) ++ ·)) ++ margin level ++ closing

mutual

/-- Several lines, two blanks for each level. -/
def pretty (level : Nat) : Json → String
  | .arr items => indented level "[" "]" (prettyItems (level + 1) items)
  | .obj members => indented level "\x7b" "\x7d" (prettyMembers (level + 1) members)
  | .null => "null"
  | .bool b => compress (.bool b)
  | .int n => toString n
  | .real x => realText x
  | .str s => quote s
  | .unreadable => "null"

def prettyItems (level : Nat) : List Json → List String
  | [] => []
  | item :: rest => item.pretty level :: prettyItems level rest

def prettyMembers (level : Nat) : List (String × Json) → List String
  | [] => []
  | (name, value) :: rest => (quote name ++ ": " ++ value.pretty level) :: prettyMembers level rest

end

end RelayRamp.Json
