/-!
# Metadata of an archive

An archive carries attribution sources, page images and namespaced tags. A source
and a tag are identified by all their parts. An image is identified by its page
within the archive. A collection that metadata leaves out is not touched; an empty
one means that the archive now has none.
-/

set_option autoImplicit false

namespace GalleryCatalog

/-- Where an archive was obtained from. -/
structure Source where
  name : Option String := none
  url : Option String := none
  deriving DecidableEq, Repr

/-- A classification tag: a name within a name space. -/
structure Tag where
  space : String
  name : String
  deriving DecidableEq, Repr

/-- The file that shows one page. Dimensions are known only after import. -/
structure Image where
  filename : String
  page : Int
  width : Option Int := none
  height : Option Int := none
  deriving DecidableEq, Repr

structure Metadata where
  sources : Option (List Source) := none
  images : Option (List Image) := none
  tags : Option (List Tag) := none
  deriving DecidableEq, Repr

/-- The name space of tags that name none. -/
def Tag.defaultSpace : String := "tag"

/-- The text of a tag. Tags with colons in their parts may share one. -/
def Tag.composite (t : Tag) : String :=
  t.space ++ ":" ++ t.name

/-- A tag without a name space gets the default one. -/
def Tag.normal (t : Tag) : Tag :=
  if t.space = "" then { t with space := Tag.defaultSpace } else t

/-- The name of a source unless it is absent or empty. -/
def Source.givenName (s : Source) : Option String :=
  s.name.filter (· ≠ "")

theorem Tag.normal_space_ne (t : Tag) : t.normal.space ≠ "" := by
  unfold Tag.normal
  split
  · simp [Tag.defaultSpace]
  · assumption

end GalleryCatalog
