import CellKeys.CommandLine

open CellKeys

/-- Runs the command line. -/
def main (args : List String) : IO UInt32 := do
  let outcome := CommandLine.run args
  IO.print outcome.output
  return UInt32.ofNat outcome.status
