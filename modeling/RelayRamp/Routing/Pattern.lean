import RelayRamp.Fault
import RelayRamp.Routing.Domain

/-!
# Domain patterns

A pattern is one domain, every proper subdomain of one (`*.example.com`), or every domain (`*`). The canonical
text of a pattern reads back as the same pattern. Among patterns that match a domain the one with the longer
literal part is the more specific.
-/
namespace RelayRamp.Routing

open RelayRamp.Text

inductive DomainPattern where
  | exact (domain : String)
  /-- Proper subdomains of the parent. -/
  | suffix (parent : String)
  | catchAll
  deriving DecidableEq, Repr

namespace DomainPattern

/-- Reads a pattern; the fault says which part of it is wrong. -/
def ofChars? (raw : List Char) : Except PatternFault DomainPattern :=
  match trimChars raw with
  | ['*'] => .ok .catchAll
  | '*' :: '.' :: rest =>
    match normalizeChars rest with
    | some parent => .ok (.suffix (String.ofList parent))
    | none => .error .suffix
  | trimmed =>
    if trimmed.contains '*' then .error .wildcard
    else
      match normalizeChars trimmed with
      | some domain => .ok (.exact (String.ofList domain))
      | none => .error .domain

def parse (raw : String) : Except ValidationFault DomainPattern :=
  (ofChars? raw.toList).mapError (.pattern raw)

/-- The octets that must match; the dot before a suffix counts. -/
def literalLength : DomainPattern → Nat
  | exact domain => octets domain
  | suffix parent => octets parent + 1
  | catchAll => 0

/-- Whether a domain in normal form is matched. -/
def isMatch (pattern : DomainPattern) (domain : String) : Bool :=
  match pattern with
  | exact only => only == domain
  | suffix parent =>
    let tail := '.' :: parent.toList
    domain.toList.length > tail.length && tail.isSuffixOf domain.toList
  | catchAll => true

def canonical : DomainPattern → String
  | exact domain => domain
  | suffix parent => "*." ++ parent
  | catchAll => "*"

/-- The name of the kind of pattern. -/
def kind : DomainPattern → String
  | exact _ => "exact"
  | suffix _ => "suffix"
  | catchAll => "catch_all"

end DomainPattern

end RelayRamp.Routing
