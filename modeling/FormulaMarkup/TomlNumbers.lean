/-!
# Numbers of TOML

Whether a word is a number.  The configuration has no use for numbers, but a
file that holds a malformed one anywhere is malformed.  Integers must fit into
sixty-four bits, with or without a sign, and the value of a float must not be
beyond the largest double.
-/

namespace FormulaMarkup.Toml

/-- Whether there are digits, with single underscores between them. -/
def isDigitRun (isDigit : Char → Bool) : List Char → Bool
  | [] => false
  | [c] => isDigit c
  | c :: '_' :: rest => isDigit c && isDigitRun isDigit rest
  | c :: rest => isDigit c && isDigitRun isDigit rest

/-- Whether there is a decimal number without a leading zero. -/
def isDecimal (cs : List Char) : Bool :=
  isDigitRun Char.isDigit cs && (cs.head? != some '0' || cs.length == 1)

/-- The value of digits in a base, leaving out underscores. -/
def digitsValue (base : Nat) (cs : List Char) : Nat :=
  cs.foldl (fun value c =>
    if c == '_' then value
    else if c.isDigit then value * base + (c.toNat - '0'.toNat)
    else value * base + (c.toLower.toNat - 'a'.toNat + 10)) 0

def isHexDigit (c : Char) : Bool :=
  c.isDigit || ('a' ≤ c && c ≤ 'f') || ('A' ≤ c && c ≤ 'F')

def withoutSign : List Char → List Char
  | '+' :: rest => rest
  | '-' :: rest => rest
  | cs => cs

def isInteger (cs : List Char) : Bool :=
  match cs with
  | '0' :: 'x' :: digits => isDigitRun isHexDigit digits && digitsValue 16 digits < Nat.pow 2 64
  | '0' :: 'o' :: digits =>
      isDigitRun (fun c => '0' ≤ c && c ≤ '7') digits && digitsValue 8 digits < Nat.pow 2 64
  | '0' :: 'b' :: digits =>
      isDigitRun (fun c => c == '0' || c == '1') digits && digitsValue 2 digits < Nat.pow 2 64
  | '-' :: digits => isDecimal digits && digitsValue 10 digits ≤ Nat.pow 2 63
  | '+' :: digits => isDecimal digits && digitsValue 10 digits < Nat.pow 2 64
  | digits => isDecimal digits && digitsValue 10 digits < Nat.pow 2 64

/-- A float as it is written: the digits before and after the point, and what
follows the mark of the exponent. -/
structure FloatParts where
  whole : List Char
  fraction? : Option (List Char)
  exponent? : Option (List Char)
  /-- What belongs to none of the parts. -/
  remainder : List Char

def isDigitOrUnderscore (c : Char) : Bool := c.isDigit || c == '_'

def floatParts (cs : List Char) : FloatParts :=
  let whole := cs.takeWhile isDigitOrUnderscore
  let exponentOf (fraction? : Option (List Char)) : List Char → FloatParts
    | 'e' :: rest => ⟨whole, fraction?, some rest, []⟩
    | 'E' :: rest => ⟨whole, fraction?, some rest, []⟩
    | rest => ⟨whole, fraction?, none, rest⟩
  match cs.dropWhile isDigitOrUnderscore with
  | '.' :: rest =>
      exponentOf (some (rest.takeWhile isDigitOrUnderscore)) (rest.dropWhile isDigitOrUnderscore)
  | rest => exponentOf none rest

namespace FloatParts

def isWellFormed (parts : FloatParts) : Bool :=
  isDecimal parts.whole && parts.fraction?.all (isDigitRun Char.isDigit) &&
    parts.exponent?.all (fun digits => isDigitRun Char.isDigit (withoutSign digits)) &&
    parts.remainder.isEmpty && (parts.fraction?.isSome || parts.exponent?.isSome)

/-- Whether the value rounds to a finite double.  The bound is halfway between
the largest double and the next power of two.  Exponents beyond the number of
digits need not be computed with. -/
def isFinite (parts : FloatParts) : Bool :=
  let digits := parts.whole ++ parts.fraction?.getD []
  let mantissa := digitsValue 10 digits
  let places := (parts.fraction?.getD []).countP Char.isDigit
  let exponent := digitsValue 10 (withoutSign (parts.exponent?.getD []))
  let bound := Nat.pow 2 1024 - Nat.pow 2 970
  if mantissa == 0 then true
  else if (parts.exponent?.getD []).head? == some '-' then
    mantissa < bound * Nat.pow 10 (places + min exponent digits.length)
  else exponent ≤ 400 + places && mantissa * Nat.pow 10 exponent < bound * Nat.pow 10 places

end FloatParts

/-- Whether there is a float: a decimal number with a fraction, an exponent or both. -/
def isFloat (cs : List Char) : Bool :=
  let body := withoutSign cs
  body == ['i', 'n', 'f'] || body == ['n', 'a', 'n'] ||
    ((floatParts body).isWellFormed && (floatParts body).isFinite)

end FormulaMarkup.Toml
