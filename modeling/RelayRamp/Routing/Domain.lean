import RelayRamp.Text.Blank

/-!
# Domain names

A domain name is read from text by trimming, dropping one trailing dot and lowering its case. What is left
must be 1 to 253 characters of labels joined by dots; a label is 1 to 63 ASCII letters, digits, `-` or `_`
that neither starts nor ends with `-`.
-/
namespace RelayRamp.Routing

open RelayRamp.Text

def maxDomainLength : Nat := 253
def maxLabelLength : Nat := 63

def isLabelChar (c : Char) : Bool :=
  isAlphanumeric c || c == '-' || c == '_'

/-- A label of a domain name. -/
def isLabel (label : List Char) : Bool :=
  !label.isEmpty && label.length ≤ maxLabelLength && label.head? != some '-'
    && label.getLast? != some '-' && label.all isLabelChar

/-- The text without one trailing dot. -/
def dropTrailingDot (s : List Char) : List Char :=
  if s.getLast? = some '.' then s.dropLast else s

/-- The normal form of a domain name as characters. -/
def normalizeChars (raw : List Char) : Option (List Char) :=
  let s := (dropTrailingDot (trimChars raw)).map lowerAscii
  if s.isEmpty || s.length > maxDomainLength then none
  else if (splitOn '.' s).all isLabel then some s
  else none

/-- The normal form of a domain name; none for text that is not one. -/
def normalizeDomain (raw : String) : Option String :=
  (normalizeChars raw.toList).map String.ofList

/-- The domain of a recipient, which is an address, possibly in angle brackets, or a domain alone. The part
before the last `@` may be anything but empty. -/
def recipientDomain (recipient : String) : Option String :=
  let bare := dropEndWhile (· = '>') ((trimChars recipient.toList).dropWhile (· = '<'))
  match splitLast '@' bare with
  | none => normalizeDomain (String.ofList bare)
  | some ([], _) => none
  | some (_ :: _, domain) => normalizeDomain (String.ofList domain)

end RelayRamp.Routing
