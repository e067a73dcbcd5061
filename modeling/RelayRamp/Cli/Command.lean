import RelayRamp.Routing.Rule
import RelayRamp.Text.Natural

/-!
# The command line

Commands stand in groups. Each command takes options with values, switches and at most one operand, in any
order; an option is given at most once. After two dashes every word is an operand. Asking for the version or
for help is possible everywhere; help is given at once, the version only when the rest of the line is right.
-/
namespace RelayRamp.Cli

open RelayRamp.Routing RelayRamp.Text

/-- What to do. Each command that needs a configuration holds the path that was given for it. -/
inductive Command where
  | help
  | version
  | serve (config : Option String)
  | validateConfig (config : Option String)
  | exampleConfig
  | status (config : Option String)
  | setPhase (number : Nat) (config : Option String)
  | resetWarmup (config : Option String)
  | listPhases (config : Option String)
  | listRules (config : Option String)
  | addRule (draft : RuleDraft) (config : Option String)
  | removeRule (id : Nat) (config : Option String)
  | renderMap (output : Option String) (config : Option String)
  | renderServices (splice : Option String) (config : Option String)
  deriving DecidableEq, Repr

/-- The words that follow a command, sorted. -/
structure Arguments where
  options : List (String × String)
  switches : List String
  operands : List String
  deriving DecidableEq, Repr

def Arguments.none : Arguments := ⟨[], [], []⟩

/-- A word that is taken for an option rather than for a value. -/
def looksLikeOption (word : String) : Bool := word.startsWith "-" && word ≠ "-"

/-- The name and value of an option that is written as one word. -/
def splitOption (word : String) : String × Option String :=
  match splitFirst '=' word.toList with
  | some (name, value) => (String.ofList name, some (String.ofList value))
  | none => (word, .none)

/-- The result of reading a command line that has no fault so far. -/
inductive Line (α : Type) where
  | help
  | rest (value : α)

/-- Sorts the words after a command; none when one is unknown or an option is given twice. -/
def sortWords (valued switches : List String) (operands : Nat) :
    Arguments → List String → Option (Line Arguments)
  | a, [] => some (.rest a)
  | a, "--" :: rest =>
    if a.operands.length + rest.length ≤ operands then
      some (.rest { a with operands := a.operands ++ rest })
    else .none
  | a, word :: rest =>
    if word = "-h" ∨ word = "--help" then some .help
    else if switches.contains word then
      if a.switches.contains word then .none
      else sortWords valued switches operands { a with switches := word :: a.switches } rest
    else
      match splitOption word with
      | (name, some value) =>
        if valued.contains name && (a.options.lookup name).isNone then
          sortWords valued switches operands { a with options := (name, value) :: a.options } rest
        else if looksLikeOption word || a.operands.length ≥ operands then .none
        else sortWords valued switches operands { a with operands := a.operands ++ [word] } rest
      | (name, .none) =>
        if valued.contains name then
          match rest with
          | value :: rest =>
            if looksLikeOption value || (a.options.lookup name).isSome then .none
            else sortWords valued switches operands { a with options := (name, value) :: a.options } rest
          | [] => .none
        else if looksLikeOption word || a.operands.length ≥ operands then .none
        else sortWords valued switches operands { a with operands := a.operands ++ [word] } rest

/-- A number of 32 bits; a minus sign may stand before zero. -/
def wordValue? (s : String) : Option Nat :=
  match s.toList with
  | '-' :: digits => if !digits.isEmpty && digits.all (· = '0') then some 0 else .none
  | _ => word? s

/-- The value of an option that names a file; it may not be empty. -/
def pathOption (a : Arguments) (name : String) : Option (Option String) :=
  match a.options.lookup name with
  | some "" => .none
  | found => some found

def configOption (a : Arguments) : Option (Option String) := pathOption a "--config"

/-- A number that an option gives, or its default. -/
def wordOption (a : Arguments) (name : String) (fallback : Nat) : Option Nat :=
  match a.options.lookup name with
  | some written => wordValue? written
  | none => some fallback

def addRuleOptions : List String :=
  ["--pattern", "--transport", "--concurrency", "--rate-delay", "--description", "--config"]

def readDraft (a : Arguments) : Option RuleDraft := do
  pure
    { pattern := ← a.options.lookup "--pattern"
      transport := ⟨← a.options.lookup "--transport"⟩
      limits := ⟨← wordOption a "--concurrency" 5, ← wordOption a "--rate-delay" 1⟩
      isActive := !a.switches.contains "--inactive"
      description := a.options.lookup "--description" }

/-- A command by its words: the options, switches and number of operands it takes, and how it is read. -/
structure Form where
  words : List String
  options : List String
  switches : List String
  operands : Nat
  read : Arguments → Option Command

/-- A command that takes only the path of a configuration. -/
def plainForm (words : List String) (command : Option String → Command) : Form :=
  ⟨words, ["--config"], [], 0, fun a => command <$> configOption a⟩

def forms : List Form :=
  [ plainForm ["serve"] .serve,
    plainForm ["config", "validate"] .validateConfig,
    ⟨["config", "example"], [], [], 0, fun _ => some .exampleConfig⟩,
    plainForm ["status"] .status,
    ⟨["warmup", "set-phase"], ["--config"], [], 1, fun a => do
      let [number] := a.operands | .none
      pure (.setPhase (← wordValue? number) (← configOption a))⟩,
    plainForm ["warmup", "reset"] .resetWarmup,
    plainForm ["warmup", "phases"] .listPhases,
    plainForm ["transports", "list"] .listRules,
    ⟨["transports", "add"], addRuleOptions, ["--inactive"], 0, fun a => do
      pure (.addRule (← readDraft a) (← configOption a))⟩,
    ⟨["transports", "remove"], ["--config"], [], 1, fun a => do
      let [id] := a.operands | .none
      pure (.removeRule (← long? id) (← configOption a))⟩,
    ⟨["transports", "render-map"], ["--output", "--config"], [], 0, fun a => do
      pure (.renderMap (← pathOption a "--output") (← configOption a))⟩,
    ⟨["transports", "render-master-cf"], ["--splice", "--config"], [], 0, fun a => do
      pure (.renderServices (← pathOption a "--splice") (← configOption a))⟩ ]

def versionSwitch : String := "--version"

/-- Reads a form's arguments. -/
def Form.readWords (form : Form) (asked : Bool) (words : List String) : Option Command := do
  let sorted ← sortWords form.options (versionSwitch :: form.switches) form.operands .none words
  match sorted with
  | .help => pure .help
  | .rest a =>
    let command ← form.read a
    pure (if asked || a.switches.contains versionSwitch then .version else command)

/-- Drops the version switch in front of the next word of a command, and remembers that it was asked for. -/
def passVersion (asked : Bool) : List String → Bool × List String
  | word :: rest => if word = versionSwitch then (true, rest) else (asked, word :: rest)
  | [] => (asked, [])

/-- Reads the words of a command whose first ones are already known. -/
def readCommand (forms : List Form) (known : List String) (asked : Bool) (words : List String) :
    Option Command :=
  match words with
  | [] => .none
  | word :: rest =>
    if word = "-h" ∨ word = "--help" then some .help
    else
      match forms.find? (·.words = known ++ [word]) with
      | some form => form.readWords asked rest
      | .none => .none

/-- Reads a command line; none when it is not one of the forms. -/
def Command.parse (words : List String) : Option Command :=
  let (asked, words) := passVersion false words
  match words with
  | [] | ["--"] => some (if asked then .version else .help)
  | group :: rest =>
    if forms.any fun form => form.words.length > 1 && form.words.head? = some group then
      let (asked, rest) := passVersion asked rest
      readCommand forms [group] asked rest
    else readCommand forms [] asked words

end RelayRamp.Cli
