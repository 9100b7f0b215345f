import FormulaMarkup.UnprintedCharacters

/-!
# Quoted text

Text between quotes on one line.  The quote and the backslash get a backslash,
the usual control characters have a letter, and every other character that is
not printed is given by its number.
-/

namespace FormulaMarkup

/-- The letter that stands for a control character after a backslash. -/
def controlLetter? : Char → Option Char
  | '\x00' => some '0'
  | '\t' => some 't'
  | '\n' => some 'n'
  | '\r' => some 'r'
  | _ => none

/-- A character by its number in base sixteen. -/
def numberedCharacter (c : Char) : String :=
  "\\u\x7b" ++ String.ofList (Nat.toDigits 16 c.toNat) ++ "\x7d"

/-- A character as it stands between the given quotes. -/
def characterInQuotes (quote c : Char) : String :=
  if c = quote ∨ c = '\\' then String.ofList ['\\', c]
  else
    match controlLetter? c with
    | some letter => String.ofList ['\\', letter]
    | none => if isPrinted c then c.toString else numberedCharacter c

/-- A text with quotes around it. -/
def textInQuotes (quote : Char) (text : String) : String :=
  quote.toString ++ String.join (text.toList.map (characterInQuotes quote)) ++ quote.toString

end FormulaMarkup
