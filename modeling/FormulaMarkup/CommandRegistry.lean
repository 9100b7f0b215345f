import FormulaMarkup.Dictionaries
import FormulaMarkup.FormulaNodes

/-!
# What is known about commands

A registry maps the name of a command to an entry, which says who lays the
command out and with what data: a character, and the details that only some
handlers need.  The handlers form a closed set; what an entry can change is
the data.  Environments have entries of their own.
-/

namespace FormulaMarkup

inductive FractionStyle where
  /-- As large as the surroundings ask for. -/
  | inherited
  | display
  | text
  /-- Without a bar and in parentheses. -/
  | binomial
deriving Repr, DecidableEq

structure TableStyle where
  opening : Option Char
  closing : Option Char
  alignment : Alignment
  /-- Whether the table is set in the size of a script. -/
  small : Bool
deriving Repr, DecidableEq

/-- The data of an entry that only some handlers look at. -/
inductive Family where
  | plain
  | accent (stretchy : Bool)
  | stack (side : Side)
  | enclosure (kind : String)
  | font (variant : Variant)
  | text (variant : Option Variant)
  | table (style : TableStyle)
  | fraction (style : FractionStyle)
  | space (width : String)
deriving Repr, DecidableEq

/-- The ways in which a command or an environment can be laid out. -/
inductive Handler where
  /-- A character as an identifier. -/
  | identifier
  /-- A character as an operator. -/
  | operator
  /-- The name of the command itself, as for a sine. -/
  | functionName
  | space
  /-- A small mark over the argument. -/
  | accent
  /-- A mark over or under the argument, as wide as the argument. -/
  | mark
  /-- One argument over or under the other. -/
  | stack
  | table
  /-- Bold italic letters. -/
  | boldSymbol
  /-- Letters of the typeface that the entry names. -/
  | font
  | enclosure
  | fraction
  | root
  | text
  /-- An operator whose name is the argument. -/
  | operatorName
  /-- A fence that stretches. -/
  | delimiter
  | chemistry
deriving Repr, DecidableEq

structure Entry where
  handler : Handler
  codepoint : Option Char
  family : Family
deriving Repr, DecidableEq

structure Registry where
  /-- The entries of the commands, by name. -/
  commands : List (String × Entry)
  environments : Environment → Option Entry

namespace Registry

def empty : Registry where
  commands := []
  environments := fun _ => none

def get? (registry : Registry) (name : String) : Option Entry := registry.commands.lookup name

/-- Adds an entry or replaces the one of the same name. -/
def insert (registry : Registry) (name : String) (entry : Entry) : Registry :=
  { registry with commands := writeEntry name entry registry.commands }

/-- The number of commands. -/
def size (registry : Registry) : Nat := registry.commands.length

def isEmpty (registry : Registry) : Bool := registry.commands.isEmpty

/-- The side on which a node has a mark that scripts of that side are stacked on. -/
def stackingSide? (registry : Registry) : Node → Option Side
  | .unary .bare name _ =>
      match registry.get? name with
      | some ⟨_, _, .stack side⟩ => some side
      | _ => none
  | _ => none

end Registry
end FormulaMarkup
