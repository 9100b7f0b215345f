import FormulaMarkup.FormulaTokens
import FormulaMarkup.TableEnvironments

/-!
# Errors of formulas

An error says where in the formula it is and what its cause is.  The wording
of a cause is decided here and nowhere else: a message for the first line of a
report and a shorter label for the place itself.
-/

namespace FormulaMarkup

/-- Tokens that have a meaning only inside some construct. -/
inductive Misplaced where
  | ampersand
  | rowBreak
  | environmentEnd
  | closeBrace
deriving Repr, DecidableEq

/-- Why a tree has no layout. -/
inductive LayoutError where
  /-- Nothing is known about a command. -/
  | unknownCommand (name : String)
  /-- A command cannot be laid out with the argument that it has. -/
  | invalidArgument (name : String)
deriving Repr, DecidableEq

inductive Cause where
  | lexical (fault : LexicalFault)
  /-- An argument is missing before a token that closes something. -/
  | argumentBeforeClose
  /-- An argument is missing at the end of the formula. -/
  | argumentAtEnd
  | bracedArgumentMissing (command : String)
  | delimiterMissing (command : String)
  /-- A script mark directly after a script mark. -/
  | doubledScript
  | chemistryDisabled
  | unknownEnvironment (name : String)
  | mismatchedEnvironment (expected found : Environment)
  | misplaced (token : Misplaced)
  /-- Nested too deep, or too many scripts on one base. -/
  | limitExceeded
  | layout (error : LayoutError)
deriving Repr, DecidableEq

structure FormulaError where
  span : Span
  cause : Cause
deriving Repr, DecidableEq

/-- A character in a message.  Printable ASCII characters stand for themselves,
except quotes and the backslash, which get a backslash; all others are given by
number. -/
def quotedCharacter (c : Char) : String :=
  match c with
  | '\t' => "\\t"
  | '\r' => "\\r"
  | '\n' => "\\n"
  | '\x27' => "\\'"
  | '\x22' => "\\\""
  | '\\' => "\\\\"
  | c =>
      if 0x20 ≤ c.toNat ∧ c.toNat ≤ 0x7E then c.toString
      else "\\u\x7b" ++ String.ofList (Nat.toDigits 16 c.toNat) ++ "\x7d"

namespace Misplaced

def spelling : Misplaced → String
  | .ampersand => "&"
  | .rowBreak => "\\\\"
  | .environmentEnd => "\\end\x7b...\x7d"
  | .closeBrace => "\x7d"

def properPlace : Misplaced → String
  | .closeBrace => "in the group where the matching \"\x7b\" was opened"
  | _ => "inside a matrix-like environment"

end Misplaced

namespace LexicalFault

def message : LexicalFault → String
  | .unmatchedClose => "Unmatched closing token: \"\x7d\"."
  | .unclosedGroup => "Expected token \"\x7d\", but not found."
  | .unclosedEnvironment name =>
      "Expected \"\\end\x7b" ++ name ++ "\x7d\", but reached end of input."
  | .unclosedEnvironmentName => "Unterminated environment name."
  | .unclosedText => "Unterminated text argument."
  | .disallowedCharacter c => "Disallowed character: '" ++ quotedCharacter c ++ "'."
  | .incompleteCommand => "Backslash at end of input."

def label : LexicalFault → String
  | .unmatchedClose => "unmatched \"\x7d\""
  | .unclosedGroup => "expected \"\x7d\" to close this group"
  | .unclosedEnvironment name => "\"" ++ name ++ "\" is opened here"
  | .unclosedEnvironmentName => "unterminated name"
  | .unclosedText => "unterminated text"
  | .disallowedCharacter _ => "disallowed character"
  | .incompleteCommand => "incomplete command"

end LexicalFault

namespace LayoutError

def commandName : LayoutError → String
  | .unknownCommand name => name
  | .invalidArgument name => name

/-- The wording when there is no formula to point into. -/
def description : LayoutError → String
  | .unknownCommand name => "unknown function \"" ++ name ++ "\""
  | .invalidArgument name => "invalid argument for \"" ++ name ++ "\""

def message : LayoutError → String
  | .unknownCommand name => "Unknown function \"" ++ name ++ "\"."
  | .invalidArgument name => "Invalid argument for \"" ++ name ++ "\"."

def label : LayoutError → String
  | .unknownCommand _ => "unknown function"
  | .invalidArgument _ => "invalid argument"

end LayoutError

namespace Cause

def message : Cause → String
  | .lexical fault => fault.message
  | .argumentBeforeClose =>
      "Expected argument but got closing token (`\x7d`, `&`, `\\\\`, `\\end`)."
  | .argumentAtEnd => "Expected argument but reached end of input."
  | .bracedArgumentMissing command => "Expected a braced argument after \"" ++ command ++ "\"."
  | .delimiterMissing command =>
      "There must be a delimiter after \"" ++ command ++ "\", but not found."
  | .doubledScript => "'^' or '_' directly followed by '^' or '_'."
  | .chemistryDisabled => "Chemistry markup (\\ce) is not enabled."
  | .unknownEnvironment name => "Unknown environment \"" ++ name ++ "\"."
  | .mismatchedEnvironment expected found =>
      "Expected \"\\end\x7b" ++ expected.name ++ "\x7d\", but got \"\\end\x7b" ++ found.name ++
        "\x7d\"."
  | .misplaced token =>
      "Got \"" ++ token.spelling ++ "\", which may only appear " ++ token.properPlace ++ "."
  | .limitExceeded => "Hard limit exceeded. Please simplify your formula."
  | .layout error => error.message

def label : Cause → String
  | .lexical fault => fault.label
  | .argumentBeforeClose => "expected an argument here"
  | .argumentAtEnd => "expected an argument here"
  | .bracedArgumentMissing _ => "expected \"\x7b\" here"
  | .delimiterMissing command => "expected a delimiter after \"" ++ command ++ "\""
  | .doubledScript => "unexpected bound"
  | .chemistryDisabled => "chemistry markup is disabled"
  | .unknownEnvironment _ => "unknown environment"
  | .mismatchedEnvironment expected _ => "expected \"\\end\x7b" ++ expected.name ++ "\x7d\" here"
  | .misplaced token => "may only appear " ++ token.properPlace
  | .limitExceeded => "limit exceeded"
  | .layout error => error.label

/-- The command that an error is about. -/
def command? : Cause → Option String
  | .bracedArgumentMissing command => some command
  | .delimiterMissing command => some command
  | .chemistryDisabled => some "\\ce"
  | .layout error => some error.commandName
  | _ => none

end Cause

namespace FormulaError

def message (error : FormulaError) : String := error.cause.message

/-- The message with the offset at which the error begins. -/
def located (error : FormulaError) : String :=
  toString error.span.start ++ ": " ++ error.message

/-- The first line of a report. -/
def headline (error : FormulaError) : String :=
  String.ofList (("Error: " ++ error.message).toList.takeWhile (· != '\n'))

end FormulaError
end FormulaMarkup
