/-!
# Tags of the markup

The elements that a formula is laid out in.  They come in two kinds: those
that hold text, which is escaped when it is written, and those that hold other
elements.  Keeping the kinds apart in the types is what makes every tree of
elements well formed.
-/

namespace FormulaMarkup

/-- Elements that hold text. -/
inductive TextTag where
  | identifier
  | number
  | operator
  | plainText
  | annotationText
deriving Repr, DecidableEq

/-- Elements that hold elements. -/
inductive LayoutTag where
  | math
  | semantics
  | row
  | space
  | superscript
  | subscript
  | over
  | under
  | enclosure
  | fraction
  | root
  | table
  | tableRow
  | tableCell
deriving Repr, DecidableEq

inductive Tag where
  | text (tag : TextTag)
  | layout (tag : LayoutTag)
deriving Repr, DecidableEq

def TextTag.name : TextTag → String
  | .identifier => "mi"
  | .number => "mn"
  | .operator => "mo"
  | .plainText => "mtext"
  | .annotationText => "annotation"

def LayoutTag.name : LayoutTag → String
  | .math => "math"
  | .semantics => "semantics"
  | .row => "mrow"
  | .space => "mspace"
  | .superscript => "msup"
  | .subscript => "msub"
  | .over => "mover"
  | .under => "munder"
  | .enclosure => "menclose"
  | .fraction => "mfrac"
  | .root => "msqrt"
  | .table => "mtable"
  | .tableRow => "mtr"
  | .tableCell => "mtd"

namespace Tag

def name : Tag → String
  | .text tag => tag.name
  | .layout tag => tag.name

def all : List Tag :=
  [.text .identifier, .text .number, .text .operator, .text .plainText, .text .annotationText,
   .layout .math, .layout .semantics, .layout .row, .layout .space, .layout .superscript,
   .layout .subscript, .layout .over, .layout .under, .layout .enclosure, .layout .fraction,
   .layout .root, .layout .table, .layout .tableRow, .layout .tableCell]

def ofName? (name : String) : Option Tag := all.find? fun tag => tag.name == name

theorem mem_all (tag : Tag) : tag ∈ all := by
  cases tag with
  | text tag => cases tag <;> decide
  | layout tag => cases tag <;> decide

theorem ofName?_name (tag : Tag) : ofName? tag.name = some tag := by
  cases tag with
  | text tag => cases tag <;> decide
  | layout tag => cases tag <;> decide

end Tag

/-- The side of its base on which a mark or a script stands. -/
inductive Side where
  | over
  | under
deriving Repr, DecidableEq

namespace Side

/-- Names of stacking commands begin with the side they stack on: those that
begin with an `o` go over their base, all others under it. -/
def ofName (name : String) : Side :=
  if name.toList.head? = some 'o' then .over else .under

/-- The element that stacks a mark on a base. -/
def stackTag : Side → LayoutTag
  | .over => .over
  | .under => .under

/-- The element that attaches a script to a base. -/
def scriptTag : Side → LayoutTag
  | .over => .superscript
  | .under => .subscript

end Side

/-- The typefaces that a text element can ask for. -/
inductive Variant where
  | normal
  | bold
  | italic
  | boldItalic
  | doubleStruck
  | script
  | fraktur
  | sansSerif
  | monospace
deriving Repr, DecidableEq

namespace Variant

def name : Variant → String
  | .normal => "normal"
  | .bold => "bold"
  | .italic => "italic"
  | .boldItalic => "bold-italic"
  | .doubleStruck => "double-struck"
  | .script => "script"
  | .fraktur => "fraktur"
  | .sansSerif => "sans-serif"
  | .monospace => "monospace"

def all : List Variant :=
  [.normal, .bold, .italic, .boldItalic, .doubleStruck, .script, .fraktur, .sansSerif, .monospace]

def ofName? (name : String) : Option Variant := all.find? fun variant => variant.name == name

theorem ofName?_name (variant : Variant) : ofName? variant.name = some variant := by
  cases variant <;> decide

end Variant

/-- How the columns of a table are aligned. -/
inductive Alignment where
  | centered
  | left
  /-- Right and left in turns, for equations aligned at a relation. -/
  | rightLeft
deriving Repr, DecidableEq

end FormulaMarkup
