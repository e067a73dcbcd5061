import RelayRamp.Routing.Matcher

/-!
# The service block of `master.cf`

One delivery service for each transport that an active rule names, with the limits of all its rules combined,
between two marker lines. Splicing a block into a file takes out the block that the file has, if any, and puts
the new one at the end; every other line stays.
-/
namespace RelayRamp.Postfix

open RelayRamp.Routing RelayRamp.Text

def startMarker : String := "# --- THROTTLED TRANSPORTS START ---"
def endMarker : String := "# --- THROTTLED TRANSPORTS END ---"

/-- The lines that declare one service. -/
def serviceLines (name : TransportName) (limits : TransportLimits) : List String :=
  let n := limits.concurrency
  [ s!"{name.text}    unix  -       -       n       -       {n}       smtp",
    s!"  -o syslog_name=postfix/{name.text}",
    s!"  -o smtp_destination_concurrency_limit={n}" ]
    ++ if limits.rateDelaySeconds > 0 then
        [s!"  -o smtp_destination_rate_delay={limits.rateDelaySeconds}s"]
      else []

def blockLines (rules : List TransportRule) : List String :=
  let roster := rosterOf [] ((rules.filter (·.isActive)).map (·.toRuleDraft))
  startMarker :: roster.flatMap (fun (name, limits) => serviceLines name limits) ++ [endMarker]

def renderServiceBlock (rules : List TransportRule) : String :=
  String.join ((blockLines rules).map (· ++ "\n"))

def isNewline (c : Char) : Bool := c == '\n'

/-- The file without its block. A block that is not closed reaches to the end of the file. -/
def withoutBlock (existing : List Char) : List Char :=
  match splitAround startMarker.toList existing with
  | none => existing
  | some (before, after) =>
    let rest := ((splitAround endMarker.toList after).map (·.2)).getD []
    dropEndWhile isNewline before ++ '\n' :: rest.dropWhile isNewline

def spliceChars (existing block : List Char) : List Char :=
  let kept := dropEndWhile isNewline (withoutBlock existing)
  (if kept.isEmpty then [] else kept ++ ['\n']) ++ dropEndWhile isNewline block ++ ['\n']

def splice (existing block : String) : String :=
  String.ofList (spliceChars existing.toList block.toList)

end RelayRamp.Postfix
