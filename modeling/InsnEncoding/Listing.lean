import InsnEncoding.Description.Reader
import InsnEncoding.Text.Lines
import InsnEncoding.Text.Quoted

/-!
# Listings: texts of descriptions

A listing has one description per line; empty lines are skipped, but they count where a line number
is told. A listing is read as a whole or not at all, and the error is that of its first bad line.

Several files are read in the order in which they are named. The file system is a function from paths
to texts; a path that cannot be read is a fault as a bad line is.
-/

namespace InsnEncoding

/-- Why a path gives no text. -/
inductive ReadFault where
  | notFound
  | isDirectory
  | notDirectory
  | notUtf8
  /-- A fault of another kind, in the words of the system. -/
  | other (description : String)
  deriving DecidableEq

/-- The message of a fault. -/
def ReadFault.message : ReadFault → String
  | .notFound => "No such file or directory (os error 2)"
  | .isDirectory => "Is a directory (os error 21)"
  | .notDirectory => "Not a directory (os error 20)"
  | .notUtf8 => "stream did not contain valid UTF-8"
  | .other description => description

/-- Why descriptions could not be loaded. -/
inductive LoadError where
  /-- The file cannot be read. -/
  | unreadable (path : String) (fault : ReadFault)
  /-- The line with that number, counted from 1, is bad. There is no path if the listing came from no
      file. -/
  | badLine (path : Option String) (number : Nat) (text : String) (fault : LineError)
  deriving DecidableEq

namespace LoadError

/-- The number of the line at fault, if it is a line. -/
def lineNumber? : LoadError → Option Nat
  | .unreadable .. => none
  | .badLine _ number .. => some number

/-- The message of an error. -/
def message : LoadError → String
  | .unreadable path fault => s!"failed to read '{path}': {fault.message}"
  | .badLine (some path) number text fault =>
    s!"{path}:{number}: {fault.message} (in {Text.quote text})"
  | .badLine none number text fault => s!"line {number}: {fault.message} (in {Text.quote text})"

end LoadError

namespace Listing

/-- The lines of a listing that are not empty, with their numbers from 1. -/
def numberedLines (text : String) : List (String × Nat) :=
  (((Text.lines text.toList).map String.ofList).zipIdx 1).filter fun entry => !entry.1.isEmpty

/-- Read a listing; `path` is where it came from. If `strict`, manual formats must be valid. -/
def read (strict : Bool) (path : Option String) (text : String) :
    Except LoadError (List Description) :=
  (numberedLines text).mapM fun entry =>
    (Description.ofLineWith strict entry.1).mapError (.badLine path entry.2 entry.1)

/-- A file system: what each path gives. -/
abbrev Files := String → Except ReadFault String

/-- Read the listing that a path gives. -/
def readFile (strict : Bool) (files : Files) (path : String) :
    Except LoadError (List Description) :=
  match files path with
  | .error fault => .error (.unreadable path fault)
  | .ok text => read strict (some path) text

/-- Read listings one after the other and join their descriptions. -/
def readFiles (strict : Bool) (files : Files) (paths : List String) :
    Except LoadError (List Description) :=
  (paths.mapM (readFile strict files)).map List.flatten

end Listing

end InsnEncoding
