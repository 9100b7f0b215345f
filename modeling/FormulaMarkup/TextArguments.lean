import FormulaMarkup.ByteSpans
import FormulaMarkup.FormulaNodes

/-!
# Arguments that are text

Some commands take the text of their argument and not its layout.  A tree has
a text if it is made of literals and sequences only.

In a text box a few characters can be written with a backslash before them,
and blanks at its edges, which would get lost, become no-break spaces.
-/

namespace FormulaMarkup

mutual

/-- The text of a tree of literals.  Control sequences have a text, which is
their name, only if they are allowed. -/
def Node.plainText? (allowCommands : Bool) : Node → Option String
  | .literal value =>
      if allowCommands || LiteralClass.of value != .command then some value else none
  | .sequence _ items => plainTexts? allowCommands items
  | _ => none

def plainTexts? (allowCommands : Bool) : List Node → Option String
  | [] => some ""
  | node :: rest =>
      match node.plainText? allowCommands, plainTexts? allowCommands rest with
      | some text, some others => some (text ++ others)
      | _, _ => none

end

/-- The characters that can be written with a backslash in a text box. -/
def isEscapable (c : Char) : Bool :=
  c == '{' || c == '}' || c == '$' || c == '%' || c == '&' || c == '#' || c == '_' || c == ' '

/-- Takes away the backslash before an escapable character; all other
backslashes stay. -/
def unescapeText : List Char → List Char
  | [] => []
  | '\\' :: c :: rest =>
      if isEscapable c then c :: unescapeText rest else '\\' :: unescapeText (c :: rest)
  | c :: rest => c :: unescapeText rest

def isSpace (c : Char) : Bool := c == ' '

def noBreakSpace : Char := '\xa0'

def dropTrailingSpaces (cs : List Char) : List Char := (cs.reverse.dropWhile isSpace).reverse

/-- Replaces each space at either edge by a no-break space.  The spaces are
counted by the bytes that are saved without them. -/
def protectEdgeSpaces (cs : List Char) : List Char :=
  let core := dropTrailingSpaces (cs.dropWhile isSpace)
  let leading := byteLength cs - byteLength (cs.dropWhile isSpace)
  -- If there is nothing else, all spaces have been counted at the front.
  let trailing := if core.isEmpty then 0 else byteLength cs - byteLength (dropTrailingSpaces cs)
  List.replicate leading noBreakSpace ++ core ++ List.replicate trailing noBreakSpace

/-- The text that a text box shows. -/
def shownText (raw : String) : String :=
  String.ofList (protectEdgeSpaces (unescapeText raw.toList))

end FormulaMarkup
