/-
Module: CLike.Main
Layer: Command line
Purpose: The program: arguments in, a report out.
Main exports: main
-/
import CLike.CommandLine.Report

namespace CLike

/-- Says why a file could not be read.  Error numbers may come with their sign turned. -/
def ReadFailure.ofError (error : IO.Error) : ReadFailure :=
  let numbered (code : UInt32) (description : String) : ReadFailure :=
    .ofCode (code.toNat.min (-code).toNat) description
  match error with
  | .noFileOrDirectory _ code description => numbered code description
  | .inappropriateType _ code description => numbered code description
  | .permissionDenied _ code description => numbered code description
  | .resourceExhausted _ code description => numbered code description
  | .invalidArgument _ code description => numbered code description
  | .noSuchThing _ code description => numbered code description
  | .hardwareFault code description => numbered code description
  | .otherError code description => numbered code description
  | error => .other 0 (toString error)

/-- Reads a file from the disk. -/
def readFile (path : String) : IO (Except ReadFailure ByteArray) := do
  try
    return .ok (← IO.FS.readBinFile path)
  catch error =>
    return .error (.ofError error)

end CLike

/-- Carries out the command that the arguments ask for. -/
def main (arguments : List String) : IO UInt32 := do
  let report ← (CLike.Command.ofArguments arguments).report CLike.readFile
  IO.print report.output
  IO.eprint report.errors
  return report.code.toUInt32
