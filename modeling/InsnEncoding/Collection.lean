import InsnEncoding.Session

/-!
# Collections: lists of descriptions that are built from texts

A collection begins empty and grows by lines, listings and files that are read into it at the end; it may be
sorted, and descriptions may be taken out of it. What cannot be read adds nothing.
-/

namespace InsnEncoding

namespace Collection

/-- One step of building a collection. -/
inductive Edit where
  | addLine (text : String)
  | addListing (strict : Bool) (text : String)
  | addFiles (strict : Bool) (files : Listing.Files) (paths : List String)
  | sort
  | remove (index : Nat)

namespace Edit

/-- The edit asks for valid manual formats. -/
def isStrict : Edit → Bool
  | .addListing strict _ | .addFiles strict _ _ => strict
  | .addLine _ | .sort | .remove _ => false

/-- The descriptions that the edit reads, none if the reading fails. -/
def added : Edit → List Description
  | .addLine text => (Description.ofLine text).toOption.toList
  | .addListing strict text => (Listing.read strict none text).toOption.getD []
  | .addFiles strict files paths => (Listing.readFiles strict files paths).toOption.getD []
  | .sort | .remove _ => []

/-- The collection after the edit. -/
def apply (descriptions : List Description) : Edit → List Description
  | .sort => Description.sortByWord descriptions
  | .remove index => descriptions.eraseIdx index
  | edit => descriptions ++ edit.added

end Edit

/-- The collection after some edits. -/
def extend (descriptions : List Description) (edits : List Edit) : List Description :=
  edits.foldl Edit.apply descriptions

/-- The collection that the edits build. -/
def build (edits : List Edit) : List Description :=
  extend [] edits

end Collection

/-- What a step does to the descriptions of a session; `none` if it may put other descriptions into it than
    those that are read. -/
def Session.Step.edits? : Session.Step → Option (List Collection.Edit)
  | .addLine text => some [.addLine text]
  | .addListing strict text => some [.addListing strict text]
  | .sort => some [.sort]
  | .remove index => some [.remove index]
  | .catalog | .setWord _ | .encode .. | .insert .. | .extract .. | .disassemble | .validate => some []
  | .change .. => none

end InsnEncoding
