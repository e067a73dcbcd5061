import RelayRamp.Cli.Program
import RelayRamp.Host.Listeners

/-!
# Command line

Reads the arguments, the environment and the clock, runs the command, and prints what it comes to.
-/

open RelayRamp

def main (arguments : List String) : IO UInt32 := do
  let begun ← IO.monoMsNow
  let environment ← IO.getEnv Config.variableName
  let moment ← Host.momentSince begun
  let outcome ← Cli.run environment moment (Host.serve begun) arguments
  for line in outcome.errors do
    IO.eprintln line
  IO.print outcome.output
  pure outcome.exit.toUInt32
