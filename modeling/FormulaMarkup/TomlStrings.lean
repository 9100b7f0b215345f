/-!
# Strings and keys of TOML

A string is read from the characters after its opening quotes, and the result
is its content with the characters that are left.  Basic strings have escapes,
literal strings have none; each comes in a form for one line and in one for
several lines.  There is no result for text that is not allowed.

The readers of basic strings and of strings of several lines take a number of
steps, for which the number of characters is always enough.
-/

namespace FormulaMarkup.Toml

abbrev Read (α : Type) := Option (α × List Char)

/-- Control characters other than the tab, which no text may hold as they are. -/
def isForbidden (c : Char) : Bool := (c.toNat < 0x20 && c != '\t') || c == '\x7f'

def isGap (c : Char) : Bool := c == ' ' || c == '\t'

/-- Takes a line break, which is a line feed with or without a carriage return before it. -/
def takeLineBreak : List Char → Option (List Char)
  | '\n' :: rest => some rest
  | '\r' :: '\n' :: rest => some rest
  | _ => none

def hexValue? (c : Char) : Option Nat :=
  if '0' ≤ c ∧ c ≤ '9' then some (c.toNat - '0'.toNat)
  else if 'a' ≤ c ∧ c ≤ 'f' then some (c.toNat - 'a'.toNat + 10)
  else if 'A' ≤ c ∧ c ≤ 'F' then some (c.toNat - 'A'.toNat + 10)
  else none

/-- Reads the given number of hexadecimal digits. -/
def readHex : Nat → Nat → List Char → Read Nat
  | 0, value, rest => some (value, rest)
  | _ + 1, _, [] => none
  | digits + 1, value, c :: rest =>
      match hexValue? c with
      | some digit => readHex digits (value * 16 + digit) rest
      | none => none

/-- The character of a number, if it is that of one. -/
def characterOfNumber? (value : Nat) : Option Char :=
  if value.isValidChar then some (Char.ofNat value) else none

def readCodePoint (digits : Nat) (rest : List Char) : Read Char :=
  match readHex digits 0 rest with
  | some (value, after) => (characterOfNumber? value).map fun c => (c, after)
  | none => none

/-- Reads an escape after its backslash. -/
def readEscape : List Char → Read Char
  | 'b' :: rest => some ('\x08', rest)
  | 't' :: rest => some ('\t', rest)
  | 'n' :: rest => some ('\n', rest)
  | 'f' :: rest => some ('\x0c', rest)
  | 'r' :: rest => some ('\r', rest)
  | 'e' :: rest => some ('\x1b', rest)
  | '\x22' :: rest => some ('\x22', rest)
  | '\\' :: rest => some ('\\', rest)
  | 'x' :: rest => readCodePoint 2 rest
  | 'u' :: rest => readCodePoint 4 rest
  | 'U' :: rest => readCodePoint 8 rest
  | _ => none

def prepend (c : Char) : Read (List Char) → Read (List Char)
  | some (content, rest) => some (c :: content, rest)
  | none => none

def readBasicSteps : Nat → List Char → Read (List Char)
  | 0, _ => none
  | _ + 1, [] => none
  | _ + 1, '\x22' :: rest => some ([], rest)
  | steps + 1, '\\' :: rest =>
      match readEscape rest with
      | some (c, after) => prepend c (readBasicSteps steps after)
      | none => none
  | steps + 1, c :: rest =>
      if isForbidden c then none else prepend c (readBasicSteps steps rest)

/-- Reads a basic string of one line. -/
def readBasic (cs : List Char) : Read String :=
  (readBasicSteps (cs.length + 1) cs).map fun (content, rest) => (String.ofList content, rest)

def readLiteralFrom : List Char → Read (List Char)
  | [] => none
  | '\x27' :: rest => some ([], rest)
  | c :: rest => if isForbidden c then none else prepend c (readLiteralFrom rest)

/-- Reads a literal string of one line. -/
def readLiteral (cs : List Char) : Read String :=
  (readLiteralFrom cs).map fun (content, rest) => (String.ofList content, rest)

/-- The end of a string of several lines, if three quotes come next.  Up to two further quotes
belong to the content. -/
def closingQuotes (quote : Char) (cs : List Char) : Read (List Char) :=
  match (cs.takeWhile (· == quote)).length with
  | 0 => none
  | 1 => none
  | 2 => none
  | 3 => some ([], cs.drop 3)
  | 4 => some ([quote], cs.drop 4)
  | _ => some ([quote, quote], cs.drop 5)

/-- Passes over gaps and line breaks. -/
def skipBlankLines : List Char → List Char
  | ' ' :: rest => skipBlankLines rest
  | '\t' :: rest => skipBlankLines rest
  | '\n' :: rest => skipBlankLines rest
  | '\r' :: '\n' :: rest => skipBlankLines rest
  | cs => cs

/-- What is left after a backslash that ends its line: the next character that
is neither a gap nor a line break. -/
def continuedLine (cs : List Char) : Option (List Char) :=
  (takeLineBreak (cs.dropWhile isGap)).map skipBlankLines

def readLinesSteps (quote : Char) (escapes : Bool) : Nat → List Char → Read (List Char)
  | 0, _ => none
  | _ + 1, [] => none
  | steps + 1, c :: rest =>
      match closingQuotes quote (c :: rest) with
      | some result => some result
      | none =>
          if escapes && c == '\\' then
            match continuedLine rest with
            | some after => readLinesSteps quote escapes steps after
            | none =>
                match readEscape rest with
                | some (escaped, after) =>
                    prepend escaped (readLinesSteps quote escapes steps after)
                | none => none
          else if c == '\n' || (c == '\r' && rest.head? == some '\n') || !isForbidden c then
            prepend c (readLinesSteps quote escapes steps rest)
          else none

/-- Reads a string of several lines, whose first line break is left out. -/
def readLines (quote : Char) (escapes : Bool) (cs : List Char) : Read String :=
  let content := (takeLineBreak cs).getD cs
  (readLinesSteps quote escapes (content.length + 1) content).map
    fun (content, rest) => (String.ofList content, rest)

/-- Reads a string of any form. -/
def readString : List Char → Read String
  | '\x22' :: '\x22' :: '\x22' :: rest => readLines '\x22' true rest
  | '\x27' :: '\x27' :: '\x27' :: rest => readLines '\x27' false rest
  | '\x22' :: rest => readBasic rest
  | '\x27' :: rest => readLiteral rest
  | _ => none

def isBareKeyCharacter (c : Char) : Bool := c.isAlphanum || c == '_' || c == '-'

/-- Reads one part of a key. -/
def readKeyPart : List Char → Read String
  | '\x22' :: rest => readBasic rest
  | '\x27' :: rest => readLiteral rest
  | cs =>
      match cs.takeWhile isBareKeyCharacter with
      | [] => none
      | word => some (String.ofList word, cs.dropWhile isBareKeyCharacter)

def readKeySteps : Nat → List Char → Read (List String)
  | 0, _ => none
  | steps + 1, cs =>
      match readKeyPart cs with
      | none => none
      | some (part, rest) =>
          match rest.dropWhile isGap with
          | '.' :: after =>
              (readKeySteps steps (after.dropWhile isGap)).map
                fun (parts, last) => (part :: parts, last)
          | after => some ([part], after)

/-- The number of tables and arrays that may stand inside each other in a value, and the number
of parts that a key may have. -/
def depthLimit : Nat := 80

/-- Reads a key, whose parts are separated by points, and the gap after it. -/
def readKey (cs : List Char) : Read (List String) :=
  match readKeySteps (cs.length + 1) cs with
  | some (parts, rest) => if parts.length ≤ depthLimit then some (parts, rest) else none
  | none => none

end FormulaMarkup.Toml
