import InsnEncoding.Listing

/-!
# A directory of files

A directory holds files and empty directories by name. A path is a list of names with slashes
between them and is followed from the left, `.` staying where it is and `..` going back. Nothing can
be looked up in a file, not even after a slash at the end of the path. What lies outside the
directory is not known and counts as not found.
-/

namespace InsnEncoding

/-- What a name in a directory stands for. -/
inductive DirectoryEntry where
  | file (content : ByteArray)
  | directory

/-- Names with what they stand for. Of two equal names the later counts. -/
abbrev Directory := List (String × DirectoryEntry)

/-- Where following a path has led to. -/
inductive DirectoryPlace where
  | outside
  | top
  | below
  | inFile (content : ByteArray)

namespace Directory

/-- What a name at the top of the directory leads to. -/
def enter (directory : Directory) (name : String) : Except ReadFault DirectoryPlace :=
  match directory.reverse.find? fun entry => entry.1 == name with
  | none => .error .notFound
  | some (_, .file content) => .ok (.inFile content)
  | some (_, .directory) => .ok .below

/-- Follow one part of a path. -/
def follow (directory : Directory) (place : DirectoryPlace) (part : String) :
    Except ReadFault DirectoryPlace :=
  match place with
  | .inFile _ => .error .notDirectory
  | .outside => if ["", ".", ".."].contains part then .ok .outside else .error .notFound
  | .top =>
    if ["", "."].contains part then .ok .top
    else if part == ".." then .ok .outside
    else directory.enter part
  | .below =>
    if ["", "."].contains part then .ok .below
    else if part == ".." then .ok .top
    else .error .notFound

/-- The text of the file at a path. -/
def read (directory : Directory) : Listing.Files := fun path =>
  let start : DirectoryPlace := if path.startsWith "/" then .outside else .top
  if path.isEmpty then .error .notFound
  else
    match (path.splitOn "/").foldlM directory.follow start with
    | .error fault => .error fault
    | .ok (.inFile content) =>
      match String.fromUTF8? content with
      | none => .error .notUtf8
      | some text => .ok text
    | .ok _ => .error .isDirectory

end Directory

end InsnEncoding
