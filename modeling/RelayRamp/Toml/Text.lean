import RelayRamp.Text.Blank
import RelayRamp.Toml.Scalar

/-!
# Strings of TOML

Four forms: with escapes or without, on one line or on several. Each reader starts after the opening quotes and
gives the text with what follows the closing quotes. Control characters but the tab are refused.
-/
namespace RelayRamp.Toml

open RelayRamp.Text

/-- A control character that may not be written as it is. -/
def isForbidden (c : Char) : Bool := (c.toNat < 0x20 && c ≠ '\t') || c.toNat == 0x7F

/-- The character of a number; surrogates are none. -/
def scalarOf? (digits : List Char) : Option Char :=
  let n := valueIn 16 digits
  if digits.all isHexDigit ∧ n.isValidChar then some (Char.ofNat n) else none

/-- The character of a one-letter escape. -/
def escapeOf? : Char → Option Char
  | 'b' => some (Char.ofNat 8)
  | 't' => some '\t'
  | 'n' => some '\n'
  | 'f' => some (Char.ofNat 12)
  | 'r' => some '\r'
  | 'e' => some (Char.ofNat 27)
  | '"' => some '"'
  | '\\' => some '\\'
  | _ => none

/-- A text and what follows it. -/
abbrev Read := Option (List Char × List Char)

/-- The rest of a string on one line with escapes; what was read is in reverse. -/
def basicRest (out : List Char) : List Char → Read
  | '"' :: rest => some (out.reverse, rest)
  | '\\' :: 'x' :: a :: b :: rest =>
    match scalarOf? [a, b] with
    | some c => basicRest (c :: out) rest
    | none => none
  | '\\' :: 'u' :: a :: b :: c :: d :: rest =>
    match scalarOf? [a, b, c, d] with
    | some c => basicRest (c :: out) rest
    | none => none
  | '\\' :: 'U' :: a :: b :: c :: d :: e :: f :: g :: h :: rest =>
    match scalarOf? [a, b, c, d, e, f, g, h] with
    | some c => basicRest (c :: out) rest
    | none => none
  | '\\' :: e :: rest =>
    match escapeOf? e with
    | some c => basicRest (c :: out) rest
    | none => none
  | c :: rest => if isForbidden c then none else basicRest (c :: out) rest
  | [] => none

/-- The rest of a string on one line without escapes. -/
def literalRest (out : List Char) : List Char → Read
  | '\'' :: rest => some (out.reverse, rest)
  | c :: rest => if isForbidden c then none else literalRest (c :: out) rest
  | [] => none

/-- After three closing quotes up to two more belong to the text. -/
def closing (quote : Char) (out : List Char) : List Char → List Char × List Char
  | c :: d :: rest =>
    if c = quote ∧ d = quote then ((quote :: quote :: out).reverse, rest)
    else if c = quote then ((quote :: out).reverse, d :: rest)
    else (out.reverse, c :: d :: rest)
  | [c] => if c = quote then ((quote :: out).reverse, []) else (out.reverse, [c])
  | [] => (out.reverse, [])

/-- Where a string on several lines is after a backslash at the end of a line. -/
inductive Trim where
  | off
  /-- Only blanks may come before the end of the line. -/
  | line
  /-- Blanks and further line ends are dropped. -/
  | blank
  deriving DecidableEq

/-- The rest of a string on several lines with escapes. -/
def multiBasicRest (trim : Trim) (out : List Char) : List Char → Read
  | '"' :: '"' :: '"' :: rest => if trim = .line then none else some (closing '"' out rest)
  | '\r' :: '\n' :: rest =>
    if trim = .off then multiBasicRest .off ('\n' :: out) rest else multiBasicRest .blank out rest
  | '\n' :: rest =>
    if trim = .off then multiBasicRest .off ('\n' :: out) rest else multiBasicRest .blank out rest
  | ' ' :: rest => multiBasicRest trim (if trim = .off then ' ' :: out else out) rest
  | '\t' :: rest => multiBasicRest trim (if trim = .off then '\t' :: out else out) rest
  | '\\' :: 'x' :: a :: b :: rest =>
    match scalarOf? [a, b] with
    | some c => if trim = .line then none else multiBasicRest .off (c :: out) rest
    | none => none
  | '\\' :: 'u' :: a :: b :: c :: d :: rest =>
    match scalarOf? [a, b, c, d] with
    | some c => if trim = .line then none else multiBasicRest .off (c :: out) rest
    | none => none
  | '\\' :: 'U' :: a :: b :: c :: d :: e :: f :: g :: h :: rest =>
    match scalarOf? [a, b, c, d, e, f, g, h] with
    | some c => if trim = .line then none else multiBasicRest .off (c :: out) rest
    | none => none
  | '\\' :: e :: rest =>
    if trim = .line then none
    else if e = ' ' ∨ e = '\t' then multiBasicRest .line out rest
    else if e = '\n' then multiBasicRest .blank out rest
    else if e = '\r' then if rest.head? = some '\n' then multiBasicRest .line out rest else none
    else
      match escapeOf? e with
      | some c => multiBasicRest .off (c :: out) rest
      | none => none
  | c :: rest =>
    if isForbidden c ∨ trim = .line then none else multiBasicRest .off (c :: out) rest
  | [] => none

/-- The rest of a string on several lines without escapes. -/
def multiLiteralRest (out : List Char) : List Char → Read
  | '\'' :: '\'' :: '\'' :: rest => some (closing '\'' out rest)
  | '\r' :: '\n' :: rest => multiLiteralRest ('\n' :: out) rest
  | c :: rest =>
    if isForbidden c ∧ c ≠ '\n' then none else multiLiteralRest (c :: out) rest
  | [] => none

/-- Drops a line end directly after the opening quotes. -/
def dropLineEnd : List Char → List Char
  | '\r' :: '\n' :: rest => rest
  | '\n' :: rest => rest
  | s => s

/-- Reads a string of any form, if one starts here. -/
def readString : List Char → Read
  | '"' :: '"' :: '"' :: rest => multiBasicRest .off [] (dropLineEnd rest)
  | '"' :: rest => basicRest [] rest
  | '\'' :: '\'' :: '\'' :: rest => multiLiteralRest [] (dropLineEnd rest)
  | '\'' :: rest => literalRest [] rest
  | _ => none

end RelayRamp.Toml
