import ArithTree.CommandLine.Run

/-!
# The program

Reads the settings from the working directory, runs the command line and writes its report.
-/

namespace ArithTree

open CommandLine Settings

/-- The file at a path, or its absence. -/
def readSlot (path : String) : IO Slot := do
  try
    return .file (← IO.FS.readBinFile path).toList
  catch _ => return .absent

/-- The required files that are there. -/
def presentFiles : IO (List String) :=
  (requiredFiles.map Prod.fst).filterM fun path => do
    match ← readSlot path with
    | .file _ => return true
    | _ => return false

/-- The exit code of a run. -/
def exitCode : Ending → UInt32
  | .exit code | .status code => code.toUInt32
  | .failed _ | .unshown _ => 1
  | .window => 0

end ArithTree

open ArithTree Settings in
/-- Runs the program for the words of the command line. -/
def main (words : List String) : IO UInt32 := do
  let report := CommandLine.launch false (← presentFiles) words (← readSlot Store.settingsFile)
  IO.print report.out
  IO.eprint report.err
  if let .failed fault := report.ending then
    IO.eprintln (fault.message?.getD "The settings cannot be read.")
  return exitCode report.ending
