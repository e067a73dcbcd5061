import RelayRamp.Text.Blank
import RelayRamp.Time.Instant

/-!
# RFC 3339 timestamps

Reading and writing stamps. Reading takes any single character between date and time and either case of `Z`;
a second of 60 is read as the last nanosecond before it and is allowed only at the end of a month in UTC.
Writing gives the shortest fraction and has no text for years outside 0 to 9999.
-/
namespace RelayRamp.Time.Rfc3339

open RelayRamp.Text (isDigit)

def digitValue (c : Char) : Nat := c.toNat - '0'.toNat

/-- Reads exactly so many digits. -/
def digits : Nat → List Char → Option (Nat × List Char) :=
  let rec go (value : Nat) : Nat → List Char → Option (Nat × List Char)
    | 0, rest => some (value, rest)
    | n + 1, c :: rest => if isDigit c then go (value * 10 + digitValue c) n rest else none
    | _ + 1, [] => none
  go 0

/-- Reads one given character. -/
def char (expected : Char) : List Char → Option (List Char)
  | c :: rest => if c = expected then some rest else none
  | [] => none

/-- Reads an optional fraction of a second as nanoseconds; digits after the ninth do not count. -/
def fraction : List Char → Option (Nat × List Char)
  | '.' :: rest =>
    let found := rest.takeWhile isDigit
    if found.isEmpty then none
    else
      let value := (found.take 9).foldl (fun v c => v * 10 + digitValue c) 0
      some (value * Nat.pow 10 (9 - found.length), rest.dropWhile isDigit)
  | rest => some (0, rest)

/-- Reads an offset in minutes. -/
def offset : List Char → Option (Int × List Char)
  | 'Z' :: rest => some (0, rest)
  | 'z' :: rest => some (0, rest)
  | sign :: rest => do
    if sign ≠ '+' ∧ sign ≠ '-' then none
    let (hours, rest) ← digits 2 rest
    let rest ← char ':' rest
    let (minutes, rest) ← digits 2 rest
    if hours > 23 ∨ minutes > 59 then none
    let total : Int := hours * 60 + minutes
    pure (if sign = '-' then -total else total, rest)
  | [] => none

/-- The last second of a month in UTC. -/
def endsMonth (t : Instant) : Bool :=
  let date := Date.ofDays (t.nanos / nanosPerDay)
  t.nanos % nanosPerDay ≥ nanosPerDay - nanosPerSecond && date.day == Date.daysInMonth date.year date.month

def parseChars (s : List Char) : Option Stamp := do
  let (year, s) ← digits 4 s
  let s ← char '-' s
  let (month, s) ← digits 2 s
  let s ← char '-' s
  let (day, s) ← digits 2 s
  let separator :: s := s | none
  if separator.toNat ≥ 0x80 then none
  let (hour, s) ← digits 2 s
  let s ← char ':' s
  let (minute, s) ← digits 2 s
  let s ← char ':' s
  let (second, s) ← digits 2 s
  let (nanos, s) ← fraction s
  let (offset, s) ← offset s
  if s ≠ [] then none
  let leap := second == 60
  let (second, nanos) := if leap then (59, 999999999) else (second, nanos)
  if month < 1 ∨ month > 12 ∨ day < 1 ∨ day > Date.daysInMonth year month then none
  if hour > 23 ∨ minute > 59 ∨ second > 59 then none
  let days := (Date.mk year month day).toDays
  let seconds : Int := days * 86400 + hour * 3600 + minute * 60 + second - offset * 60
  let instant : Instant := ⟨seconds * nanosPerSecond + nanos⟩
  if leap && !endsMonth instant then none
  pure ⟨instant, offset⟩

def parse (s : String) : Option Stamp := parseChars s.toList

/-- A number with leading zeros up to the width. -/
def padded (width n : Nat) : String :=
  let s := toString n
  String.ofList (List.replicate (width - s.length) '0') ++ s

def renderFraction (nanos : Nat) : String :=
  if nanos = 0 then ""
  else
    let all := (padded 9 nanos).toList
    "." ++ String.ofList (Text.dropEndWhile (· = '0') all)

def renderOffset (minutes : Int) : String :=
  if minutes = 0 then "Z"
  else
    let sign := if minutes < 0 then "-" else "+"
    let n := minutes.natAbs
    s!"{sign}{padded 2 (n / 60)}:{padded 2 (n % 60)}"

/-- The text of a stamp; none when its year, at its own offset, is negative or above 9999. -/
def render (t : Stamp) : Option String :=
  let wall := t.instant.nanos + t.offset * 60 * nanosPerSecond
  let date := Date.ofDays (wall / nanosPerDay)
  let inDay := (wall % nanosPerDay).toNat
  let second := inDay / 1000000000
  if date.year < 0 ∨ date.year > 9999 then none
  else
    let day := s!"{padded 4 date.year.toNat}-{padded 2 date.month}-{padded 2 date.day}"
    let time := s!"{padded 2 (second / 3600)}:{padded 2 (second / 60 % 60)}:{padded 2 (second % 60)}"
    some s!"{day}T{time}{renderFraction (inDay % 1000000000)}{renderOffset t.offset}"

end RelayRamp.Time.Rfc3339
