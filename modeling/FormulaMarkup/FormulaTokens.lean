import FormulaMarkup.ByteSpans
import FormulaMarkup.MarkupTags

/-!
# Tokens

A formula is read as a list of lexemes, which are tokens with their spans.
Where the characters make no token there is a malformed one that says why; the
list ends with it.
-/

namespace FormulaMarkup

/-- Why the characters at some place make no token. -/
inductive LexicalFault where
  /-- A closing brace without an opening one. -/
  | unmatchedClose
  /-- An opening brace without a closing one. -/
  | unclosedGroup
  /-- An environment that is begun and not ended. -/
  | unclosedEnvironment (name : String)
  /-- A begin or end without a name in braces. -/
  | unclosedEnvironmentName
  /-- A text box without its closing brace. -/
  | unclosedText
  | disallowedCharacter (c : Char)
  /-- A backslash at the end. -/
  | incompleteCommand
deriving Repr, DecidableEq

inductive Token where
  | endOfInput
  /-- The beginning of an environment, with its name. -/
  | beginning (name : String)
  /-- The end of an environment, with its name. -/
  | ending (name : String)
  | openBrace
  | closeBrace
  /-- A circumflex (over) or an underscore (under). -/
  | script (side : Side)
  /-- An ampersand. -/
  | nextCell
  /-- Two backslashes. -/
  | nextRow
  /-- A control word or a control symbol, with its backslash. -/
  | command (name : String)
  | digit (c : Char)
  | letter (c : Char)
  | symbol (c : Char)
  /-- The content of a text box, without its braces. -/
  | rawText (content : String)
  | malformed (fault : LexicalFault)
deriving Repr, DecidableEq

/-- Whether a token ends the list of tokens. -/
def Token.isLast : Token → Bool
  | .endOfInput => true
  | .malformed _ => true
  | _ => false

/-- Whether a token closes something or parts what an environment holds, so
that a sequence of nodes ends before it. -/
def Token.endsSequence : Token → Bool
  | .endOfInput => true
  | .closeBrace => true
  | .nextCell => true
  | .nextRow => true
  | .ending _ => true
  | _ => false

structure Lexeme where
  token : Token
  span : Span
deriving Repr, DecidableEq

end FormulaMarkup
