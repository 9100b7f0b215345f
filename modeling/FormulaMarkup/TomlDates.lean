import FormulaMarkup.TomlNumbers
import FormulaMarkup.TomlStrings

/-!
# Dates and times of TOML

A date, a time of day, or both of them with or without an offset from
universal time.  The seconds may be left out, and only seconds have a
fraction, of which nine digits are kept.

A date is written in one way whatever it was read from: with capital letters,
without zeros at the end of a fraction, and with a positive sign for the offset
of no minutes.
-/

namespace FormulaMarkup.Toml

structure Date where
  year : Nat
  month : Nat
  day : Nat
deriving Repr, DecidableEq

structure TimeOfDay where
  hour : Nat
  minute : Nat
  second? : Option Nat
  nanosecond? : Option Nat
deriving Repr, DecidableEq

/-- The distance from universal time. -/
inductive TimeOffset where
  /-- None, given by a letter. -/
  | universal
  | minutes (east : Int)
deriving Repr, DecidableEq

inductive DateTime where
  | date (day : Date)
  | time (clock : TimeOfDay)
  | moment (day : Date) (clock : TimeOfDay) (offset? : Option TimeOffset)
deriving Repr, DecidableEq

/-! ## Reading -/

def isLeapYear (year : Nat) : Bool := year % 4 == 0 && (year % 100 != 0 || year % 400 == 0)

def daysInMonth (year month : Nat) : Nat :=
  if month = 2 then if isLeapYear year then 29 else 28
  else if month = 4 ∨ month = 6 ∨ month = 9 ∨ month = 11 then 30
  else 31

def Date.isValid (date : Date) : Bool :=
  1 ≤ date.month && date.month ≤ 12 && 1 ≤ date.day && date.day ≤ daysInMonth date.year date.month

/-- Whether there is such a time, where a minute may have a leap second. -/
def TimeOfDay.isValid (time : TimeOfDay) : Bool :=
  time.hour ≤ 23 && time.minute ≤ 59 && time.second?.all (· ≤ 60)

/-- Reads exactly so many digits. -/
def readDigits (count : Nat) (cs : List Char) : Read Nat :=
  let digits := cs.take count
  if digits.length = count ∧ digits.all Char.isDigit then
    some (digitsValue 10 digits, cs.drop count)
  else none

/-- Reads a separator and two digits. -/
def readPart (separator : Char) : List Char → Read Nat
  | c :: rest => if c = separator then readDigits 2 rest else none
  | [] => none

def readDate (cs : List Char) : Option (Date × List Char) := do
  let (year, afterYear) ← readDigits 4 cs
  let (month, afterMonth) ← readPart '-' afterYear
  let (day, rest) ← readPart '-' afterMonth
  let date : Date := ⟨year, month, day⟩
  if date.isValid then some (date, rest) else none

/-- The nanoseconds of a fraction of a second, whose further digits are left out. -/
def nanoseconds (digits : List Char) : Nat :=
  digitsValue 10 ((digits ++ List.replicate 9 '0').take 9)

/-- Reads a fraction of a second, if there is one. -/
def readFraction : List Char → Read (Option Nat)
  | '.' :: rest =>
      match rest.takeWhile Char.isDigit with
      | [] => none
      | digits => some (some (nanoseconds digits), rest.dropWhile Char.isDigit)
  | cs => some (none, cs)

/-- Reads the seconds with their fraction, if there are any. -/
def readSeconds : List Char → Option ((Option Nat × Option Nat) × List Char)
  | ':' :: rest => do
      let (second, afterSecond) ← readDigits 2 rest
      let (nanosecond?, last) ← readFraction afterSecond
      some ((some second, nanosecond?), last)
  | cs => some ((none, none), cs)

def readTime (cs : List Char) : Option (TimeOfDay × List Char) := do
  let (hour, afterHour) ← readDigits 2 cs
  let (minute, afterMinute) ← readPart ':' afterHour
  let ((second?, nanosecond?), rest) ← readSeconds afterMinute
  let time : TimeOfDay := ⟨hour, minute, second?, nanosecond?⟩
  if time.isValid then some (time, rest) else none

/-- The offset in minutes of a sign, hours and minutes. -/
def signedOffset? (negative : Bool) (cs : List Char) : Option TimeOffset := do
  let (hours, afterHours) ← readDigits 2 cs
  let (minutes, rest) ← readPart ':' afterHours
  let east : Int := hours * 60 + minutes
  if hours ≤ 23 ∧ minutes ≤ 59 ∧ rest = [] then
    some (.minutes (if negative then -east else east))
  else none

/-- The offset that is written after a time, which may be missing. -/
def offset? : List Char → Option (Option TimeOffset)
  | [] => some none
  | ['Z'] => some (some .universal)
  | ['z'] => some (some .universal)
  | '+' :: rest => (signedOffset? false rest).map some
  | '-' :: rest => (signedOffset? true rest).map some
  | _ => none

/-- Whether a character may stand between a date and a time. -/
def joinsDateAndTime (c : Char) : Bool := c == 'T' || c == 't' || c == ' '

/-- The date or time that a word is. -/
def dateTime? (word : List Char) : Option DateTime :=
  match readDate word with
  | some (date, []) => some (.date date)
  | some (date, c :: rest) =>
      if joinsDateAndTime c then do
        let (time, last) ← readTime rest
        let offset? ← offset? last
        some (.moment date time offset?)
      else none
  | none =>
      match readTime word with
      | some (time, []) => some (.time time)
      | _ => none

/-- Whether a word is a date without a time. -/
def isDate (word : List Char) : Bool := (readDate word).any fun read => read.2.isEmpty

/-! ## Writing -/

/-- A number with zeros before it up to the given width. -/
def padded (width value : Nat) : String :=
  let digits := Nat.toDigits 10 value
  String.ofList (List.replicate (width - digits.length) '0' ++ digits)

/-- A fraction of a second without zeros at its end, of which it keeps one if there is nothing else. -/
def fractionText (nanosecond : Nat) : String :=
  match (padded 9 nanosecond).toList.reverse.dropWhile (· == '0') with
  | [] => "0"
  | digits => String.ofList digits.reverse

def Date.text (date : Date) : String :=
  padded 4 date.year ++ "-" ++ padded 2 date.month ++ "-" ++ padded 2 date.day

def TimeOfDay.text (time : TimeOfDay) : String :=
  padded 2 time.hour ++ ":" ++ padded 2 time.minute ++
    (match time.second? with
    | some second => ":" ++ padded 2 second
    | none => "") ++
    (match time.nanosecond? with
    | some nanosecond => "." ++ fractionText nanosecond
    | none => "")

def TimeOffset.text : TimeOffset → String
  | .universal => "Z"
  | .minutes east =>
      (if east < 0 then "-" else "+") ++ padded 2 (east.natAbs / 60) ++ ":" ++
        padded 2 (east.natAbs % 60)

def DateTime.text : DateTime → String
  | .date day => day.text
  | .time clock => clock.text
  | .moment day clock offset? =>
      day.text ++ "T" ++ clock.text ++ (offset?.map TimeOffset.text).getD ""

end FormulaMarkup.Toml
