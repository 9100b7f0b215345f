import FormulaMarkup.ByteSpans

/-!
# Escaping of markup

Text between tags has three characters that could be taken for markup, and an
attribute value has two more, the quotes.  Each of them is replaced by an
entity, and all other characters stand for themselves.  Attribute names come
from the outside too; of a name only the characters that a name may hold are
kept.

A text is long and has few of its three characters.  They are searched for
among the bytes of its UTF-8 form, and what lies between them is written in one
piece.
-/

namespace FormulaMarkup

/-- The bytes of the ampersand and of the two angle brackets. -/
def isMarkByte (byte : UInt8) : Bool := byte == 38 || byte == 60 || byte == 62

/-- The offset of the first of these bytes.  No more of the text is encoded than
has to be searched. -/
def markOffset? : List Char → Option Nat
  | [] => none
  | c :: rest =>
      match (String.utf8EncodeChar c).findIdx? isMarkByte with
      | some offset => some offset
      | none => (markOffset? rest).map (· + c.utf8Size)

/-- The entity for a piece of text that was found by its byte. -/
def markEntity (mark : List Char) : String :=
  if mark = ['&'] then "&amp;" else if mark = ['<'] then "&lt;" else "&gt;"

theorem length_lt_of_cutAt? {offset : Nat} {rest before after mark tail : List Char}
    (hcut : cutAt? offset rest = some (before, after))
    (hmark : cutAt? 1 after = some (mark, tail)) : tail.length < rest.length := by
  obtain ⟨rfl, _⟩ := eq_append_of_cutAt? hcut
  obtain ⟨rfl, hsize⟩ := eq_append_of_cutAt? hmark
  cases mark with
  | nil => cases hsize
  | cons c others =>
      simp only [List.length_append, List.length_cons]
      omega

/-- Writes what comes before the next character of markup, then its entity, and
goes on behind it.  A text that cannot be cut there is written as it stands. -/
def appendRest (output : String) (rest : List Char) : String :=
  match markOffset? rest with
  | none => output ++ String.ofList rest
  | some offset =>
      match _hcut : cutAt? offset rest with
      | none => output ++ String.ofList rest
      | some (before, after) =>
          match _hmark : cutAt? 1 after with
          | none => output ++ String.ofList before ++ String.ofList rest
          | some (mark, tail) =>
              appendRest (output ++ String.ofList before ++ markEntity mark) tail
termination_by rest.length
decreasing_by exact length_lt_of_cutAt? _hcut _hmark

/-- The output with the escaped text written after it. -/
def appendText (output text : String) : String := appendRest output text.toList

def valueEntity : Char → String
  | '&' => "&amp;"
  | '\x22' => "&quot;"
  | '\x27' => "&#39;"
  | '<' => "&lt;"
  | '>' => "&gt;"
  | c => c.toString

/-- The output with the escaped attribute value written after it. -/
def appendValue (output value : String) : String :=
  value.toList.foldl (fun written c => written ++ valueEntity c) output

def escapeText (text : String) : String := appendText "" text

def escapeValue (value : String) : String := appendValue "" value

def isNameCharacter (c : Char) : Bool :=
  c.isAlphanum || c == '-' || c == '_' || c == ':' || c == '.'

/-- What is left of an attribute name. -/
def usableName (name : String) : String :=
  String.ofList (name.toList.filter isNameCharacter)

end FormulaMarkup
