import InsnEncoding.CommandLine

/-!
# The program

Reads the files that the command line names, lets `CommandLine.perform` make the report, and writes
it: the output to standard output and the log to standard error.
-/

namespace InsnEncoding

namespace Main

/-- The fault that an error of the system stands for. -/
def readFault : IO.Error → ReadFault
  | .noFileOrDirectory .. => .notFound
  | .inappropriateType _ code _ => if code = 21 then .isDirectory else .notDirectory
  | error => .other (toString error)

/-- Read a file as a text. -/
def readText (path : String) : IO (Except ReadFault String) := do
  try
    match String.fromUTF8? (← IO.FS.readBinFile path) with
    | none => return .error .notUtf8
    | some text => return .ok text
  catch error => return .error (readFault error)

/-- Write a report and give its exit code. -/
def write (report : CommandLine.Report) : IO UInt32 := do
  IO.print report.output
  for entry in report.log do
    IO.eprintln entry
  return UInt32.ofNat report.exitCode

end Main

end InsnEncoding

open InsnEncoding in
/-- Check listings or list their formats. -/
def main (arguments : List String) : IO UInt32 := do
  match CommandLine.parse arguments with
  | none =>
    IO.eprintln "usage: insnfmt [-v|--verbose] [--strict] (check|formats) FILE..."
    return 2
  | some invocation =>
    let texts ← invocation.paths.mapM fun path => return (path, ← Main.readText path)
    let files : Listing.Files := fun path => (texts.lookup path).getD (.error .notFound)
    Main.write (CommandLine.perform files invocation)
