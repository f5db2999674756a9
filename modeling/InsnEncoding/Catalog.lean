import InsnEncoding.Description.Basic

/-!
# Catalogs of formats

A catalog counts how many descriptions use each format. Formats count as the same if they have the
same text, and entries are in ascending order of that text.
-/

namespace InsnEncoding

/-- What a catalog knows of one text. -/
structure CatalogEntry where
  /-- The first format with that text. -/
  format : Format
  /-- The number of descriptions whose format has that text. -/
  uses : Nat
  deriving DecidableEq

/-- The entries of a catalog by the text of their formats. -/
abbrev Catalog := Std.ExtTreeMap String CatalogEntry

namespace Catalog

/-- Count one more use of a format. -/
def add (catalog : Catalog) (format : Format) : Catalog :=
  catalog.alter format.repr fun
    | none => some ⟨format, 1⟩
    | some entry => some { entry with uses := entry.uses + 1 }

/-- The catalog of the formats of some descriptions. -/
def gather (descriptions : List Description) : Catalog :=
  descriptions.foldl (fun catalog description => catalog.add description.format) ∅

end Catalog

end InsnEncoding
