import FormulaMarkup.AlphabeticCharacters

/-!
# Classes of literals

What a literal is laid out as depends on its first character, and for a
backslash on there being a second one.
-/

namespace FormulaMarkup

inductive LiteralClass where
  | letter
  | digit
  | symbol
  /-- A control word or a control symbol, whose layout is looked up by name. -/
  | command
deriving Repr, DecidableEq

/-- The class of a text that begins with a character other than a backslash
that starts a command. -/
def LiteralClass.ofChar (c : Char) : LiteralClass :=
  if c.isDigit then .digit else if isAlphabetic c then .letter else .symbol

def LiteralClass.ofCharacters : List Char → LiteralClass
  | [] => .symbol
  | [c] => .ofChar c
  | c :: _ :: _ => if c = '\\' then .command else .ofChar c

def LiteralClass.of (text : String) : LiteralClass := .ofCharacters text.toList

/-- Control words need a blank after them when they are written out; control
symbols do not. -/
def isControlWord (text : String) : Bool :=
  text.toList.head? == some '\\' && (text.toList.getLast?.any Char.isAlpha)

end FormulaMarkup
