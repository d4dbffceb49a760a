import MixMachine.CommandLine

/-!
# The program

Reads the image file that the command line names and prints the outcome of the
command.
-/

namespace MixMachine

/-- What a file holds, or nothing when it cannot be read. -/
def readFile (path : String) : IO (Option ByteArray) := do
  try
    return some (← IO.FS.readBinFile path)
  catch _ =>
    return none

end MixMachine

/-- Runs the command that the arguments give. -/
def main (args : List String) : IO UInt32 := do
  let outcome ← MixMachine.Command.outcome MixMachine.readFile args
  IO.print outcome.output
  IO.eprint outcome.errors
  return outcome.status.toUInt32
