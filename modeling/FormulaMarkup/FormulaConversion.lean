import FormulaMarkup.BuiltinCommands
import FormulaMarkup.CanonicalText
import FormulaMarkup.FormulaLayout
import FormulaMarkup.FormulaParser

/-!
# Conversion of formulas

A formula is converted to its canonical text or to a `math` element.  Errors
of the layout know only the command that they are about; they are given the
place where that command is first found in the formula.
-/

namespace FormulaMarkup

structure Settings where
  /-- Whether chemical notation is allowed. -/
  chemistry : Bool := false
  /-- Whether the `math` element names its XML namespace. -/
  xmlNamespace : Bool := false
  /-- Whether the canonical text is kept beside the layout. -/
  annotated : Bool := false
  /-- Attributes of every `math` element. -/
  mathAttributes : Attributes := ∅

/-- Whether a formula stands in a line of text or in a block of its own. -/
inductive Display where
  | inline
  | block
deriving Repr, DecidableEq

inductive OutputForm where
  | text
  | markup
deriving Repr, DecidableEq

/-- Whether the characters begin with the name of a command.  A name that ends
in a letter must not go on with another one. -/
def beginsWithCommand (name cs : List Char) : Bool :=
  name.isPrefixOf cs &&
    !(name.getLast?.any Char.isAlpha && (cs.drop name.length).head?.any Char.isAlpha)

/-- The first place of a command, given the offset of the first character. -/
def findCommand (name : List Char) (position : Nat) : List Char → Option Span
  | [] => none
  | c :: rest =>
      if beginsWithCommand name (c :: rest) then some ⟨position, position + byteLength name⟩
      else findCommand name (position + c.utf8Size) rest

/-- Gives an error of the layout its place in the formula. -/
def LayoutError.locate (error : LayoutError) (formula : String) : FormulaError where
  span := (findCommand error.commandName.toList 0 formula.toList).getD (.zeroWidth 0)
  cause := .layout error

def mathNamespace : String := "http://www.w3.org/1998/Math/MathML"

def texEncoding : String := "application/x-tex"

namespace Settings

/-- The attributes of the `math` element, of which the settings have the last word. -/
def outerAttributes (settings : Settings) (display : Display) : Attributes :=
  (Dictionary.ofList
    ((if settings.xmlNamespace then [("xmlns", mathNamespace)] else []) ++
      (if display = .block then [("display", "block")] else []))).merge settings.mathAttributes

/-- The `math` element around the layout of a tree. -/
def mathElement (settings : Settings) (display : Display) (tree : Node)
    (elements : List Element) : Element :=
  let content :=
    if settings.annotated then
      [Element.semantics [.row ∅ elements] texEncoding tree.canonicalText]
    else elements
  .layout .math (settings.outerAttributes display) content

def parse (settings : Settings) (formula : String) : Except FormulaError Node :=
  parseFormula settings.chemistry formula

/-- The canonical text of a formula. -/
def canonicalText (settings : Settings) (formula : String) : Except FormulaError String :=
  match settings.parse formula with
  | .error error => .error error
  | .ok tree => .ok tree.canonicalText

/-- The `math` element of a formula.  The attributes go to what the outermost
nodes of the formula designate. -/
def markup (settings : Settings) (formula : String) (display : Display)
    (attributes : Attributes) : Except FormulaError String :=
  match settings.parse formula with
  | .error error => .error error
  | .ok tree =>
      match tree.layout .builtin { attributes } with
      | .error error => .error (error.locate formula)
      | .ok elements => .ok (settings.mathElement display tree elements).write

def convert (settings : Settings) (formula : String) (form : OutputForm) (display : Display)
    (attributes : Attributes) : Except FormulaError String :=
  match form with
  | .text => settings.canonicalText formula
  | .markup => settings.markup formula display attributes

end Settings
end FormulaMarkup
