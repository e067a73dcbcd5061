import RelayRamp.Cli.Catalog
import RelayRamp.Cli.Command
import RelayRamp.Cli.Offline
import RelayRamp.Codec.Warmup
import RelayRamp.Codec.Routing
import RelayRamp.Config.Example

/-!
# The program

One command runs at one moment. It gives an exit code, the text for the output and the lines for the error
output. A line that is no command is a matter of use and has a code of its own. Whatever a command did to the
store is written back, also when the command failed.
-/
namespace RelayRamp.Cli

open RelayRamp.Config RelayRamp.Files RelayRamp.Plane RelayRamp.Server RelayRamp.Store

def programVersion : String := "0.1.0"

structure Outcome where
  exit : Nat
  output : String
  errors : List String
  deriving DecidableEq, Repr

namespace Outcome

def success (output : String) : Outcome := ⟨0, output, []⟩

def failure (line : String) : Outcome := ⟨1, "", [line]⟩

def usage : Outcome := ⟨2, "", ["error: not a command of warmup-gate; try --help"]⟩

end Outcome

/-- The line of a message, with its end. -/
def line (key : String) (values : List (String × String)) : String := message key values ++ "\n"

def failed (key words : String) : Outcome := .failure (message key [("error", words)])

def helpLines : List String :=
  "Usage: warmup-gate [--version] COMMAND [OPTIONS]" :: "" :: "Commands:" ::
    forms.map fun form => "  " ++ String.intercalate " " form.words

variable {m : Type → Type} [Monad m] [FileAccess m]

/-- What starts a server that runs until it is told to end. -/
abbrev Serving (m : Type → Type) := GateConfig → m Outcome

/-- A server whose listeners cannot be bound: it is set up, but never serves. -/
def servingNowhere (moment : Moment) (words : String) : Serving m := fun config => do
  let fault ← match ← setUp config moment with
    | .error fault => pure fault
    | .ok _ => pure (.transport "api" words)
  pure (failed "serve.init_failed" fault.message)

/-- Loads the configuration for a command. -/
def withConfig (named environment : Option String) (go : GateConfig → m Outcome) : m Outcome := do
  match ← load named environment with
  | .ok config => go config
  | .error fault => pure (failed "config.load_failed" fault.message)

/-- Makes one call on the store of the configuration and goes on with its result. -/
def withCall (named environment : Option String) (moment : Moment) (c : Call Backing α)
    (go : α → m Outcome) : m Outcome :=
  withConfig named environment fun config => do
    match ← openOffline config moment with
    | (.error fault, lines) =>
      let outcome := failed "store.open_failed" fault.message
      pure { outcome with errors := lines ++ outcome.errors }
    | (.ok station, before) =>
      let (engine, result) := Engine.call station.engine c
      let (station, lines) ← { station with engine }.report
      let outcome ← match result, ← station.save config.store with
        | .error fault, _ => pure (failed "operation.failed" fault.message)
        | .ok _, .error fault => pure (failed "operation.failed" fault.message)
        | .ok a, .ok () => go a
      pure { outcome with errors := before ++ lines ++ outcome.errors }

/-- The output of a value as JSON. -/
def jsonOutput (value : Json) : m Outcome := pure (.success (value.pretty 0 ++ "\n"))

/-- Tells about a file that was written. -/
def written (path : String) (result : Except OfflineFault Unit) : Outcome :=
  match result with
  | .ok () => .success (line "file.written" [("path", path)])
  | .error fault => failed "operation.failed" fault.message

/-- Runs a command. -/
def Command.run (environment : Option String) (moment : Moment) (serving : Serving m) :
    Command → m Outcome
  | help => pure (.success (String.intercalate "\n" helpLines ++ "\n\n"))
  | version => pure (.success (line "main.version" [("version", programVersion)]))
  | serve config => withConfig config environment serving
  | validateConfig config => withConfig config environment fun _ =>
    pure (.success (line "config.validate.ok" []))
  | exampleConfig => pure (.success (exampleText ++ "\n"))
  | status config => withCall config environment moment warmupStatus fun s => jsonOutput s.toJson
  | setPhase number config => withCall config environment moment (Plane.setPhase number) fun s =>
    pure (.success (line "warmup.phase_set" [("phase", toString s.currentPhase), ("name", s.phaseName)]))
  | resetWarmup config => withCall config environment moment Plane.resetWarmup fun s =>
    pure (.success (line "warmup.reset" [("phase", toString s.currentPhase), ("name", s.phaseName)]))
  | listPhases config => withCall config environment moment Plane.listPhases fun phases =>
    jsonOutput (.arr (phases.map (·.toJson)))
  | listRules config => withCall config environment moment Plane.listRules fun rules =>
    jsonOutput (.arr (rules.map (·.toJson)))
  | addRule draft config => withCall config environment moment (createRule draft) fun rule =>
    pure (.success (line "transports.added"
      [("id", toString rule.id), ("pattern", rule.pattern), ("transport", rule.transport.text)]))
  | removeRule id config => withCall config environment moment (deleteRule id) fun _ =>
    pure (.success (line "transports.removed" [("id", toString id)]))
  | renderMap output config => withCall config environment moment transportMap fun text => do
    match output with
    | none => pure (.success text)
    | some path => pure (written path (← writeText path text))
  | renderServices splice config => withCall config environment moment serviceBlock fun block => do
    match splice with
    | none => pure (.success block)
    | some path => pure (written path (← spliceFile path block))

/-- Runs a command line. -/
def run (environment : Option String) (moment : Moment) (serving : Serving m) (words : List String) :
    m Outcome :=
  match Command.parse words with
  | some command => command.run environment moment serving
  | none => pure .usage

end RelayRamp.Cli
