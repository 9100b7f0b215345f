import FormulaMarkup.CharacterRanges

/-!
# Blank characters

The characters that separate tokens and that are dropped at the end of a
formula given on the command line.  They are the twenty-five characters with
the Unicode property `White_Space`, which is more than the ASCII blanks: it
includes the no-break spaces and the line and paragraph separators, and it
excludes the zero-width ones.
-/

namespace FormulaMarkup

def blankRanges : CharacterRanges :=
  [(0x9, 0xD), (0x20, 0x20), (0x85, 0x85), (0xA0, 0xA0), (0x1680, 0x1680),
   (0x2000, 0x200A), (0x2028, 0x2029), (0x202F, 0x202F), (0x205F, 0x205F),
   (0x3000, 0x3000)]

def isBlank (c : Char) : Bool := blankRanges.covers c.toNat

/-- Removes every blank at the end. -/
def dropTrailingBlanks (text : String) : String :=
  String.ofList (text.toList.reverse.dropWhile isBlank).reverse

theorem blankRanges_increasing : blankRanges.increasing = true := by decide

end FormulaMarkup
