import FormulaMarkup.ChemicalNotation
import FormulaMarkup.CommandRegistry
import FormulaMarkup.TextArguments

/-!
# Handlers

A handler is given the entry and the name of its command and the operands,
which it may lay out in any context.  It decides which of the elements that it
makes carries the attributes of the context; everything it lays out without
being asked for attributes gets none.  A handler whose operands or whose entry
do not fit answers with an invalid argument.
-/

namespace FormulaMarkup

/-- An argument of a command. -/
structure Operand where
  node : Node
  /-- The elements of the argument. -/
  layout : Layoutable
  /-- The elements of the argument, put in a row if the argument is a sequence of several items. -/
  single : Layoutable
  /-- The items of the argument. -/
  pieces : List Piece

/-- The arguments of a command, or the cells of a table. -/
inductive Operands where
  | none
  | one (argument : Operand)
  | two (first second : Operand)
  | grid (rows : List (List Layoutable))

def invalidArgument (name : String) : Layout := .error (.invalidArgument name)

/-- The Greek capitals, which are upright unless a typeface is asked for. -/
def isGreekCapital (c : Char) : Bool := decide (0x391 ≤ c.toNat) && decide (c.toNat ≤ 0x3A9)

def identifierLayout (entry : Entry) (name : String) (context : Context) : Layout :=
  match entry.codepoint with
  | some c =>
      let default := if isGreekCapital c then some Variant.normal else none
      .ok [.identifier (context.textAttributes default) c.toString]
  | none => invalidArgument name

def operatorLayout (entry : Entry) (name : String) (context : Context) : Layout :=
  match entry.codepoint with
  | some c => .ok [.operator context.attributes c.toString]
  | none => invalidArgument name

/-- The name of a command without its backslash. -/
def bareName (name : String) : String :=
  match name.toList with
  | '\\' :: rest => String.ofList rest
  | _ => name

def functionNameLayout (name : String) (context : Context) : Layout :=
  .ok [.identifier (context.textAttributes none) (bareName name)]

def spaceLayout (entry : Entry) (name : String) (context : Context) : Layout :=
  match entry.family with
  | .space width => .ok [.space width context.attributes]
  | _ => invalidArgument name

def accentLayout (entry : Entry) (name : String) (argument : Operand) (context : Context) :
    Layout :=
  match entry.family with
  | .accent stretchy =>
      match argument.single context with
      | .error error => .error error
      | .ok base =>
          match entry.codepoint with
          | some c =>
              let stretch := if stretchy then "true" else "false"
              let mark := Element.operator (Dictionary.singleton "stretchy" stretch) c.toString
              .ok [.layout .over (Dictionary.singleton "accent" "true") (base ++ [mark])]
          | none => invalidArgument name
  | _ => invalidArgument name

/-- A base that carries scripts is put in a row, so that the mark covers them. -/
def markLayout (entry : Entry) (name : String) (argument : Operand) (context : Context) :
    Layout :=
  match entry.family with
  | .stack side =>
      match argument.single context with
      | .error error => .error error
      | .ok elements =>
          let base := if argument.node.peel.isScript then [.row ∅ elements] else elements
          match entry.codepoint with
          | some c =>
              let mark := Element.operator (Dictionary.singleton "stretchy" "true") c.toString
              .ok [.row ∅ [.layout side.stackTag ∅ (base ++ [mark])]]
          | none => invalidArgument name
  | _ => invalidArgument name

/-- Puts the first argument on the second. -/
def stackLayout (entry : Entry) (name : String) (mark base : Operand) (context : Context) :
    Layout :=
  match entry.family with
  | .stack side =>
      match base.single context.withoutAttributes with
      | .error error => .error error
      | .ok baseElements =>
          match mark.single context.withoutAttributes with
          | .error error => .error error
          | .ok markElements =>
              .ok [.layout side.stackTag context.attributes (baseElements ++ markElements)]
  | _ => invalidArgument name

def fenceAttributes : Attributes := .ofList [("fence", "true"), ("stretchy", "true")]

def fence : Option Char → List Element
  | some c => [.operator fenceAttributes c.toString]
  | none => []

/-- The attributes of a table: a table in a table is not displayed, and a small one has the size
of a script. -/
def TableStyle.attributes (style : TableStyle) (context : Context) : Attributes :=
  (Dictionary.ofList
    ((if context.insideTable then [("displaystyle", "false")] else []) ++
      (if style.small then [("scriptlevel", "1")] else []))).merge context.attributes

def cellLayout (context : Context) (cell : Layoutable) : Layout :=
  match cell context with
  | .error error => .error error
  | .ok elements => .ok [.tableCell elements]

def rowLayout (context : Context) (row : List Layoutable) : Layout :=
  match layoutAll (cellLayout context) row with
  | .error error => .error error
  | .ok cells => .ok [.tableRow cells]

def tableLayout (entry : Entry) (name : String) (rows : List (List Layoutable))
    (context : Context) : Layout :=
  match entry.family with
  | .table style =>
      match layoutAll (rowLayout context.withoutAttributes.inTable) rows with
      | .error error => .error error
      | .ok rowElements =>
          let table := Element.table style.alignment (style.attributes context) rowElements
          if style.opening.isNone && style.closing.isNone then .ok [table]
          else .ok [.row ∅ (fence style.opening ++ [table] ++ fence style.closing)]
  | _ => invalidArgument name

def boldSymbolLayout (argument : Operand) (context : Context) : Layout :=
  argument.single (context.withVariant .boldItalic)

def fontLayout (entry : Entry) (name : String) (argument : Operand) (context : Context) :
    Layout :=
  match entry.family with
  | .font variant => argument.single (context.withVariant variant)
  | _ => invalidArgument name

def enclosureLayout (entry : Entry) (name : String) (argument : Operand) (context : Context) :
    Layout :=
  match entry.family with
  | .enclosure kind =>
      match argument.single context.withoutAttributes with
      | .error error => .error error
      | .ok elements => .ok [.enclosure kind context.attributes elements]
  | _ => invalidArgument name

/-- The fraction of a numerator and a denominator that are laid out. -/
def fractionElement (style : FractionStyle) (attributes : Attributes) (parts : List Element) :
    Element :=
  match style with
  | .inherited => .layout .fraction attributes parts
  | .display =>
      .layout .fraction ((Dictionary.singleton "displaystyle" "true").merge attributes) parts
  | .text =>
      .layout .fraction ((Dictionary.singleton "displaystyle" "false").merge attributes) parts
  | .binomial =>
      .row attributes
        [.operator ∅ "(", .layout .fraction (Dictionary.singleton "linethickness" "0") parts,
         .operator ∅ ")"]

def fractionLayout (entry : Entry) (name : String) (numerator denominator : Operand)
    (context : Context) : Layout :=
  match entry.family with
  | .fraction style =>
      match numerator.single context.withoutAttributes with
      | .error error => .error error
      | .ok upper =>
          match denominator.single context.withoutAttributes with
          | .error error => .error error
          | .ok lower => .ok [fractionElement style context.attributes (upper ++ lower)]
  | _ => invalidArgument name

def rootLayout (argument : Operand) (context : Context) : Layout :=
  match argument.layout context.withoutAttributes with
  | .error error => .error error
  | .ok elements => .ok [.layout .root context.attributes elements]

def textLayout (entry : Entry) (name : String) (argument : Operand) (context : Context) :
    Layout :=
  match entry.family with
  | .text variant =>
      match argument.node.plainText? true with
      | some raw => .ok [.plainText (context.textAttributes variant) (shownText raw)]
      | none => invalidArgument name
  | _ => invalidArgument name

/-- A name of one letter would be slanted, so it is upright unless a typeface is asked for. -/
def operatorNameLayout (name : String) (argument : Operand) (context : Context) : Layout :=
  match argument.node.plainText? false with
  | some text =>
      if text.isEmpty then invalidArgument name
      else
        let default := if text.length = 1 then some Variant.normal else none
        .ok [.identifier (context.textAttributes default) text]
  | none => invalidArgument name

/-- The text of a delimiter.  A point stands for no delimiter at all. -/
def delimiterText (registry : Registry) (name value : String) :
    Except LayoutError (Option String) :=
  match LiteralClass.of value with
  | .symbol => .ok (if value = "." then none else some value)
  | .command =>
      match registry.get? value with
      | none => .error (.unknownCommand value)
      | some entry =>
          match entry.codepoint with
          | some c => .ok (some c.toString)
          | none => .error (.invalidArgument name)
  | _ => .error (.invalidArgument name)

def delimiterLayout (registry : Registry) (name : String) (argument : Operand)
    (context : Context) : Layout :=
  match argument.node.literal? with
  | some value =>
      match delimiterText registry name value with
      | .error error => .error error
      | .ok none => .ok []
      | .ok (some text) => .ok [.operator (fenceAttributes.merge context.attributes) text]
  | none => invalidArgument name

/-- Lays a command out. -/
def Handler.layout (registry : Registry) (handler : Handler) (entry : Entry) (name : String)
    (operands : Operands) (context : Context) : Layout :=
  match handler, operands with
  | .identifier, _ => identifierLayout entry name context
  | .operator, _ => operatorLayout entry name context
  | .functionName, _ => functionNameLayout name context
  | .space, _ => spaceLayout entry name context
  | .accent, .one argument => accentLayout entry name argument context
  | .mark, .one argument => markLayout entry name argument context
  | .stack, .two first second => stackLayout entry name first second context
  | .table, .grid rows => tableLayout entry name rows context
  | .boldSymbol, .one argument => boldSymbolLayout argument context
  | .font, .one argument => fontLayout entry name argument context
  | .enclosure, .one argument => enclosureLayout entry name argument context
  | .fraction, .two first second => fractionLayout entry name first second context
  | .root, .one argument => rootLayout argument context
  | .text, .one argument => textLayout entry name argument context
  | .operatorName, .one argument => operatorNameLayout name argument context
  | .delimiter, .one argument => delimiterLayout registry name argument context
  | .chemistry, .one argument => chemicalLayout argument.pieces context
  | _, _ => invalidArgument name

/-- Lays a command out by the entry of its name. -/
def commandLayout (registry : Registry) (name : String) (operands : Operands)
    (context : Context) : Layout :=
  match registry.get? name with
  | none => .error (.unknownCommand name)
  | some entry => entry.handler.layout registry entry name operands context

/-- Lays an environment out by its entry. -/
def environmentLayout (registry : Registry) (environment : Environment)
    (rows : List (List Layoutable)) (context : Context) : Layout :=
  match registry.environments environment with
  | none => .error (.unknownCommand environment.name)
  | some entry => entry.handler.layout registry entry environment.name (.grid rows) context

end FormulaMarkup
