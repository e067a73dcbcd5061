import RelayRamp.Routing.Matcher

/-!
# The transport map

The lookup table of the mail server: one line for each pattern of an active rule in the order of the keys, and
a line for all other domains at the end. A suffix pattern is written with its leading dot.
-/
namespace RelayRamp.Postfix

open RelayRamp.Routing

/-- A line of the map. -/
structure MapEntry where
  key : String
  transport : TransportName
  deriving DecidableEq, Repr

def MapEntry.line (e : MapEntry) : String := s!"{e.key}    {e.transport.text}:\n"

/-- Entries are ordered by key, then by transport. -/
def MapEntry.notAfter (a b : MapEntry) : Bool :=
  a.key < b.key || (a.key == b.key && !(b.transport.before a.transport))

/-- The key of a rule's pattern; none for the catch-all and for a pattern that cannot be read. -/
def keyOf (rule : TransportRule) : Option String :=
  match rule.parsedPattern with
  | .ok (.exact domain) => some domain
  | .ok (.suffix parent) => some ("." ++ parent)
  | _ => none

def isCatchAll (rule : TransportRule) : Bool :=
  match rule.parsedPattern with
  | .ok .catchAll => true
  | _ => false

/-- The entries of the active rules in the order of the map. -/
def mapEntries (rules : List TransportRule) : List MapEntry :=
  let active := rules.filter (·.isActive)
  let keyed := active.filterMap fun rule => (keyOf rule).map (⟨·, rule.transport⟩)
  let others := (active.find? isCatchAll).map fun rule => MapEntry.mk "*" rule.transport
  keyed.mergeSort MapEntry.notAfter ++ others.toList

def renderTransportMap (rules : List TransportRule) : String :=
  "# Generated transport map; edits are overwritten\n"
    ++ String.join ((mapEntries rules).map MapEntry.line)

end RelayRamp.Postfix
