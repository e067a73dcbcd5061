import RelayRamp.Toml.Document

/-!
# Reading TOML

A document is a sequence of lines, each a key with a value, a header, a comment or nothing. The readers take
what they can from the start of the text and give the rest. The fuel bounds their calls; twice the length of the
text is more than they need.
-/
namespace RelayRamp.Toml

open RelayRamp.Text

def isBlankChar (c : Char) : Bool := c == ' ' || c == '\t'

def skipBlanks (s : List Char) : List Char := s.dropWhile isBlankChar

def isBareKeyChar (c : Char) : Bool := isAlphanumeric c || c == '_' || c == '-'

/-- Drops a comment, if there is one, up to the end of its line. -/
def skipComment : List Char → Option (List Char)
  | '#' :: rest =>
    let text := rest.takeWhile (· ≠ '\n')
    let after := rest.dropWhile (· ≠ '\n')
    let body := if text.getLast? = some '\r' ∧ !after.isEmpty then text.dropLast else text
    if body.any isForbidden then none else some after
  | s => some s

/-- Drops the end of a line. -/
def lineEnd? : List Char → Option (List Char)
  | '\r' :: '\n' :: rest => some rest
  | '\n' :: rest => some rest
  | [] => some []
  | _ => none

/-- Drops what may follow on a line: blanks, a comment and the end of the line. -/
def endOfLine (s : List Char) : Option (List Char) := do
  let s ← skipComment (skipBlanks s)
  lineEnd? s

/-- Drops blanks, comments and line ends. -/
def skipLines : Nat → List Char → Option (List Char)
  | 0, _ => none
  | fuel + 1, s =>
    match skipBlanks s with
    | '#' :: rest => skipComment ('#' :: rest) >>= skipLines fuel
    | '\r' :: '\n' :: rest => skipLines fuel rest
    | '\n' :: rest => skipLines fuel rest
    | rest => some rest

/-- One part of a key, bare or in quotes. -/
def keyPart : List Char → Read
  | '"' :: rest => basicRest [] rest
  | '\'' :: rest => literalRest [] rest
  | s =>
    let bare := s.takeWhile isBareKeyChar
    if bare.isEmpty then none else some (bare, s.dropWhile isBareKeyChar)

/-- The parts of a key with dots between them. -/
def keyPath : Nat → List Char → Option (List String × List Char)
  | 0, _ => none
  | fuel + 1, s => do
    let (part, s) ← keyPart (skipBlanks s)
    match skipBlanks s with
    | '.' :: rest =>
      let (parts, rest) ← keyPath fuel rest
      pure (String.ofList part :: parts, rest)
    | rest => pure ([String.ofList part], rest)

def isScalarChar (c : Char) : Bool :=
  isAlphanumeric c || c == '_' || c == '+' || c == '-' || c == '.' || c == ':'

/-- A run of characters without quotes; one blank may stand between a day and a time of day. -/
def scalarRun (s : List Char) : List Char × List Char :=
  let run := s.takeWhile isScalarChar
  let rest := s.dropWhile isScalarChar
  match rest with
  | ' ' :: c :: _ =>
    if isDigit c ∧ dateRest? run = some [] then
      (run ++ ' ' :: (rest.drop 1).takeWhile isScalarChar, (rest.drop 1).dropWhile isScalarChar)
    else (run, rest)
  | _ => (run, rest)

/-- The deepest nesting of brackets and braces. -/
def maxDepth : Nat := 80

mutual

def readValue : Nat → Nat → List Char → Option (Value × List Char)
  | 0, _, _ => none
  | fuel + 1, depth, s =>
    match s with
    | '"' :: _ | '\'' :: _ => (readString s).map fun (text, rest) => (.str (String.ofList text), rest)
    | '[' :: rest =>
      match depth with
      | 0 => none
      | depth + 1 => readItems fuel depth [] rest
    | '\x7b' :: rest =>
      match depth with
      | 0 => none
      | depth + 1 => readMembers fuel depth (.inline, []) rest
    | _ =>
      let (run, rest) := scalarRun s
      (scalar? run).map (·, rest)

/-- The rest of an array; what was read is in reverse. -/
def readItems : Nat → Nat → List Value → List Char → Option (Value × List Char)
  | 0, _, _, _ => none
  | fuel + 1, depth, out, s => do
    let s ← skipLines (fuel + 1) s
    match s with
    | ']' :: rest => pure (.arr out.reverse, rest)
    | s =>
      let (item, s) ← readValue fuel depth s
      match ← skipLines (fuel + 1) s with
      | ',' :: rest => readItems fuel depth (item :: out) rest
      | ']' :: rest => pure (.arr (item :: out).reverse, rest)
      | _ => none

/-- The rest of a table between braces. -/
def readMembers : Nat → Nat → Table → List Char → Option (Value × List Char)
  | 0, _, _, _ => none
  | fuel + 1, depth, table, s => do
    let s ← skipLines (fuel + 1) s
    match s with
    | '\x7d' :: rest => pure (.table .inline table.2, rest)
    | s =>
      let (path, s) ← keyPath (fuel + 1) s
      let '=' :: s := s | none
      let (v, s) ← readValue fuel depth (skipBlanks s)
      let table ← assign path v table
      match ← skipLines (fuel + 1) s with
      | ',' :: rest => readMembers fuel depth table rest
      | '\x7d' :: rest => pure (.table .inline table.2, rest)
      | _ => none

end

/-- A document as far as it was read: its table, and the header that keys belong to now. -/
structure Progress where
  root : Table
  header : List String

/-- A header of a table or of an array of tables. -/
def readHeader (fuel : Nat) (p : Progress) (s : List Char) : Option (Progress × List Char) :=
  match s with
  | '[' :: '[' :: rest => do
    let (path, s) ← keyPath fuel rest
    let ']' :: ']' :: s := s | none
    pure (⟨← append path p.root, path⟩, s)
  | '[' :: rest => do
    let (path, s) ← keyPath fuel rest
    let ']' :: s := s | none
    pure (⟨← define path p.root, path⟩, s)
  | _ => none

/-- A key with its value. -/
def readAssignment (fuel : Nat) (p : Progress) (s : List Char) : Option (Progress × List Char) := do
  let (path, s) ← keyPath fuel s
  let '=' :: s := s | none
  let s := skipBlanks s
  let (v, s) ← readValue fuel maxDepth s
  pure ({ p with root := ← assignUnder p.header path v p.root }, s)

/-- The lines of a document. -/
def readDocument : Nat → Progress → List Char → Option Members
  | 0, _, _ => none
  | fuel + 1, p, s => do
    match ← skipLines (fuel + 1) s with
    | [] => pure p.root.2
    | '[' :: rest =>
      let (p, s) ← readHeader (fuel + 1) p ('[' :: rest)
      readDocument fuel p (← endOfLine s)
    | s =>
      let (p, s) ← readAssignment (fuel + 1) p s
      readDocument fuel p (← endOfLine s)

/-- The members of a document. A byte order mark in front is ignored. -/
def parse (text : String) : Option Members :=
  let s := match text.toList with
    | c :: rest => if c.toNat = 0xFEFF then rest else c :: rest
    | [] => []
  readDocument (2 * s.length + 2) ⟨(.defined, []), []⟩ s

end RelayRamp.Toml
