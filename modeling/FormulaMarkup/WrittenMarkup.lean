import FormulaMarkup.Dictionaries
import FormulaMarkup.MarkupEscaping
import FormulaMarkup.MarkupTags

/-!
# Markup around written content

The builders of this file put tags around content that is already text.  They
fix the spelling of a start tag and which attributes an element brings along:
an element's own attributes come first, and the caller's attributes may
replace their values.
-/

namespace FormulaMarkup

/-- The own attributes of a space. -/
def spaceAttributes (width : String) (extra : Attributes) : Attributes :=
  (Dictionary.singleton "width" width).merge extra

/-- The own attributes of an enclosure. -/
def enclosureAttributes (kind : String) (extra : Attributes) : Attributes :=
  (Dictionary.singleton "notation" kind).merge extra

/-- The own attributes of a table; a centered one has none. -/
def Alignment.attributes (alignment : Alignment) (extra : Attributes) : Attributes :=
  match alignment with
  | .centered => extra
  | .left => (Dictionary.singleton "columnalign" "left").merge extra
  | .rightLeft => (Dictionary.singleton "columnalign" "right left").merge extra

namespace Written

/-- One attribute of a start tag.  It is left out if nothing of its name can be used. -/
def attributeText (name value : String) : String :=
  let usable := usableName name
  if usable.isEmpty then "" else " " ++ usable ++ "=\"" ++ escapeValue value ++ "\""

def startTag (tag : Tag) (attributes : Attributes) : String :=
  "<" ++ tag.name ++
    String.join (attributes.entries.map fun entry => attributeText entry.1 entry.2) ++ ">"

def endTag (tag : Tag) : String := "</" ++ tag.name ++ ">"

/-- Puts the tags around content that is taken as it is. -/
def enclose (tag : Tag) (attributes : Attributes) (content : String) : String :=
  startTag tag attributes ++ content ++ endTag tag

/-- Puts the tags around several pieces of content. -/
def encloseAll (tag : Tag) (attributes : Attributes) (contents : List String) : String :=
  enclose tag attributes (String.join contents)

/-- Puts the tags around text, which is escaped. -/
def leaf (tag : Tag) (attributes : Attributes) (text : String) : String :=
  enclose tag attributes (escapeText text)

/-- The empty identifier, which stands where an argument is empty. -/
def placeholder : String := leaf (.text .identifier) ∅ ""

def space (width : String) (extra : Attributes) : String :=
  enclose (.layout .space) (spaceAttributes width extra) ""

def enclosure (kind : String) (extra : Attributes) (content : String) : String :=
  enclose (.layout .enclosure) (enclosureAttributes kind extra) content

def table (alignment : Alignment) (extra : Attributes) (rows : String) : String :=
  enclose (.layout .table) (alignment.attributes extra) rows

def tableRow (cells : String) : String := enclose (.layout .tableRow) ∅ cells

/-- A table cell.  An empty one holds the placeholder. -/
def tableCell (content : String) : String :=
  enclose (.layout .tableCell) ∅ (if content.isEmpty then placeholder else content)

/-- Content together with a text that says the same in another encoding. -/
def semantics (content encoding note : String) : String :=
  encloseAll (.layout .semantics) ∅
    [content, leaf (.text .annotationText) (Dictionary.singleton "encoding" encoding) note]

end Written
end FormulaMarkup
