import FormulaMarkup.CommandShapes
import FormulaMarkup.LiteralClasses
import FormulaMarkup.MarkupTags
import FormulaMarkup.TableEnvironments

/-!
# Trees of formulas

A formula is a tree of six kinds of nodes.  The tree keeps what is needed to
write the formula again: whether a sequence stood in braces, and whether a
command was written with its argument in braces.  Nothing forbids trees that
no formula is read as; all that is said about trees holds for those too,
unless it says otherwise.
-/

namespace FormulaMarkup

/-- How the single argument of a command is written. -/
inductive ArgumentStyle where
  | braced
  | bare
deriving Repr, DecidableEq

inductive Node where
  /-- One letter or symbol, a number, a control sequence, or raw text. -/
  | literal (value : String)
  /-- Nodes one after the other; `curly` if they stood in braces. -/
  | sequence (curly : Bool) (items : List Node)
  /-- A superscript (over) or a subscript (under). -/
  | script (side : Side) (base attached : Node)
  /-- A command with one argument. -/
  | unary (style : ArgumentStyle) (name : String) (argument : Node)
  /-- A command with two arguments in braces. -/
  | binary (name : String) (first second : Node)
  /-- Rows of cells; the reader makes every cell a sequence that is not curly. -/
  | table (environment : Environment) (rows : List (List Node))
deriving Repr, Inhabited

namespace Node

/-- The literal of one character. -/
def ofChar (c : Char) : Node := .literal c.toString

/-- The name of the command of a node. -/
def name? : Node → Option String
  | .unary _ name _ => some name
  | .binary name _ _ => some name
  | _ => none

/-- The argument of a command with one argument. -/
def argument? : Node → Option Node
  | .unary _ _ argument => some argument
  | _ => none

/-- The arguments of a command with two arguments. -/
def arguments? : Node → Option (Node × Node)
  | .binary _ first second => some (first, second)
  | _ => none

def literal? : Node → Option String
  | .literal value => some value
  | _ => none

/-- The number of items of a sequence. -/
def itemCount? : Node → Option Nat
  | .sequence _ items => some items.length
  | _ => none

def isEmptySequence : Node → Bool
  | .sequence _ [] => true
  | _ => false

def isCurly : Node → Bool
  | .sequence curly _ => curly
  | _ => false

def isScript : Node → Bool
  | .script _ _ _ => true
  | _ => false

/-- Looks through sequences of exactly one item. -/
def peel : Node → Node
  | .sequence _ [only] => only.peel
  | node => node

/-- The items of a sequence; any other node is its own single item. -/
def items : Node → List Node
  | .sequence _ items => items
  | node => [node]

end Node
end FormulaMarkup
