/-!
# Blank and control characters

The Unicode property `White_Space` and the general category `Cc`, and trimming by a class of characters.
Trimming never looks inside the text: only its two ends get shorter.
-/
namespace RelayRamp.Text

/-- The characters with the property `White_Space`. -/
def isBlank (c : Char) : Bool :=
  let n := c.toNat
  (0x9 ≤ n && n ≤ 0xD) || n == 0x20 || n == 0x85 || n == 0xA0 || n == 0x1680
    || (0x2000 ≤ n && n ≤ 0x200A) || n == 0x2028 || n == 0x2029 || n == 0x202F || n == 0x205F
    || n == 0x3000

/-- The characters of the category `Cc`. -/
def isControl (c : Char) : Bool :=
  c.toNat < 0x20 || (0x7F ≤ c.toNat && c.toNat ≤ 0x9F)

/-- ASCII letters and digits. -/
def isAlphanumeric (c : Char) : Bool :=
  ('a' ≤ c && c ≤ 'z') || ('A' ≤ c && c ≤ 'Z') || ('0' ≤ c && c ≤ '9')

/-- The ASCII digits. -/
def isDigit (c : Char) : Bool :=
  '0' ≤ c && c ≤ '9'

/-- Upper-case ASCII letters become lower-case ones; every other character stays. -/
def lowerAscii (c : Char) : Char :=
  if 'A' ≤ c && c ≤ 'Z' then Char.ofNat (c.toNat + 32) else c

/-- Drops the longest run of characters of the class at the end. -/
def dropEndWhile (p : Char → Bool) (s : List Char) : List Char :=
  (s.reverse.dropWhile p).reverse

/-- Drops the characters of the class at both ends. -/
def trimWhile (p : Char → Bool) (s : List Char) : List Char :=
  dropEndWhile p (s.dropWhile p)

/-- Drops the blank characters at both ends. -/
def trimChars (s : List Char) : List Char :=
  trimWhile isBlank s

/-- Drops the blank characters at both ends. -/
def trim (s : String) : String :=
  String.ofList (trimChars s.toList)

/-- The parts of a text between the separators; one part more than there are separators. -/
def splitOn (separator : Char) : List Char → List (List Char)
  | [] => [[]]
  | c :: rest =>
    if c = separator then [] :: splitOn separator rest
    else
      match splitOn separator rest with
      | [] => [[c]]
      | part :: parts => (c :: part) :: parts

/-- The text before and after the first separator. -/
def splitFirst (separator : Char) (s : List Char) : Option (List Char × List Char) :=
  match s.dropWhile (· ≠ separator) with
  | [] => none
  | _ :: after => some (s.takeWhile (· ≠ separator), after)

/-- The text before and after the last separator. -/
def splitLast (separator : Char) (s : List Char) : Option (List Char × List Char) :=
  (splitFirst separator s.reverse).map fun (after, before) => (before.reverse, after.reverse)

/-- The number of characters before the first occurrence of a word, counted from the given number. -/
def findWord (word : List Char) : Nat → List Char → Option Nat
  | n, [] => if word.isEmpty then some n else none
  | n, c :: rest => if word.isPrefixOf (c :: rest) then some n else findWord word (n + 1) rest

/-- The text before and after the first occurrence of a word. -/
def splitAround (word s : List Char) : Option (List Char × List Char) :=
  (findWord word 0 s).map fun n => (s.take n, s.drop (n + word.length))

/-- The length in UTF-8 octets. -/
def octets (s : String) : Nat :=
  s.utf8ByteSize

end RelayRamp.Text
