import InsnEncoding.Catalog
import InsnEncoding.Listing
import InsnEncoding.Text.Terminal

/-!
# The command line

`check` reads listings and tells how many descriptions they have; `formats` lists the formats of all
descriptions with their counts. Either reads everything before it writes anything, so a failure
leaves the output empty.

The flags may stand before or after the command, each once in either place. What is logged depends on the
flags alone; a filter that the environment sets for the log is not looked at.
-/

namespace InsnEncoding

namespace CommandLine

/-- What the program is asked to do. -/
inductive Command where
  | check
  | formats
  deriving DecidableEq

/-- The flags that have been given. -/
structure Flags where
  verbose : Bool := false
  strict : Bool := false
  deriving DecidableEq

/-- A complete request. -/
structure Invocation where
  command : Command
  flags : Flags
  paths : List String
  deriving DecidableEq

/-- What the program has done: its exit code, what it wrote, and the entries of its log. -/
structure Report where
  exitCode : Nat
  output : String
  log : List String
  deriving DecidableEq

/-- The lines of the log. An entry has several if a path in it does. -/
def Report.logLines (report : Report) : List String :=
  report.log.flatMap fun entry => (Text.lines entry.toList).map String.ofList

namespace Flags

/-- Set a flag by its spelling; fails for what is no flag and for a flag already set. -/
def set? (flags : Flags) (spelling : String) : Option Flags :=
  if spelling = "-v" ∨ spelling = "--verbose" then
    if flags.verbose then none else some { flags with verbose := true }
  else if spelling = "--strict" then
    if flags.strict then none else some { flags with strict := true }
  else none

/-- The flags that are in one or the other. -/
def union (first second : Flags) : Flags :=
  ⟨first.verbose || second.verbose, first.strict || second.strict⟩

end Flags

/-- The argument asks for a flag. A single dash is a path. -/
def looksLikeFlag (argument : String) : Bool :=
  argument.startsWith "-" && argument != "-"

/-- Read what follows the command: flags and paths, and after `--` only paths. -/
def parsePaths (flags : Flags) : List String → Option (Flags × List String)
  | [] => some (flags, [])
  | argument :: rest =>
    if argument = "--" then some (flags, rest)
    else if looksLikeFlag argument then (flags.set? argument).bind fun more => parsePaths more rest
    else (parsePaths flags rest).map fun (more, paths) => (more, argument :: paths)

/-- Read the arguments from the first on, some flags having been set before. -/
def parseFrom (flags : Flags) : List String → Option Invocation
  | [] => none
  | argument :: rest =>
    let request (command : Command) : Option Invocation :=
      match parsePaths {} rest with
      | none => none
      | some (later, paths) =>
        if paths.isEmpty || paths.any String.isEmpty then none
        else some ⟨command, flags.union later, paths⟩
    if argument = "check" then request .check
    else if argument = "formats" then request .formats
    else if looksLikeFlag argument then (flags.set? argument).bind fun more => parseFrom more rest
    else none

/-- Read the arguments of the program. At least one path is needed, and no path is empty.

    These are the rules that the package clap has for the two commands, their flags and paths, written out
    here. Its answers of its own are left out: a call for help is no request and ends as a misuse with exit
    code 2, where clap prints its help and ends with 0. -/
def parse (arguments : List String) : Option Invocation :=
  parseFrom {} arguments

/-- A line of the output of `formats`: the text in at least 16 columns and the count in at least
    four. -/
def formatRow (text : String) (uses : Nat) : String :=
  String.ofList (text.toList.rightpad 16 ' ' ++ ' ' :: (Nat.toDigits 10 uses).leftpad 4 ' ' ++ ['\n'])

/-- The entries that a verbose log has for the files that were read before the first failure. -/
def readLog (strict : Bool) (files : Listing.Files) (paths : List String) : List String :=
  ((paths.map fun path => (path, Listing.readFile strict files path)).takeWhile
      fun entry => entry.2.toBool).filterMap fun
    | (path, .ok descriptions) =>
      some (s!"DEBUG insnfmt::loader::reader: loaded insn descriptions path={path} " ++
        s!"count={descriptions.length}")
    | (_, .error _) => none

/-- The entry that the log has for a failure. Its message is spelled for a terminal. -/
def failureEntry (error : LoadError) : String :=
  let message := Text.spellControls error.message
  match error.lineNumber? with
  | none => s!"ERROR insnfmt: {message}"
  | some number => s!"ERROR insnfmt: {message} line={number}"

/-- Do what is asked. -/
def perform (files : Listing.Files) (invocation : Invocation) : Report :=
  let strict := invocation.flags.strict
  let verbose := fun entries : List String => if invocation.flags.verbose then entries else []
  let opening := verbose (readLog strict files invocation.paths)
  match Listing.readFiles strict files invocation.paths with
  | .error error => ⟨1, "", opening ++ [failureEntry error]⟩
  | .ok descriptions =>
    match invocation.command with
    | .check =>
      ⟨0, "", opening ++
        [s!"INFO insnfmt: all descriptions valid files={invocation.paths.length} " ++
          s!"insns={descriptions.length}"]⟩
    | .formats =>
      let catalog := Catalog.gather descriptions
      ⟨0, String.join (catalog.toList.map fun (text, entry) => formatRow text entry.uses),
        opening ++ verbose [s!"DEBUG insnfmt: listed formats formats={catalog.size}"]⟩

/-- Run the program; `none` if the arguments are no request. -/
def run (files : Listing.Files) (arguments : List String) : Option Report :=
  (parse arguments).map (perform files)

end CommandLine

end InsnEncoding
