import FormulaMarkup.Dictionaries
import FormulaMarkup.TomlDates

/-!
# TOML documents

A document is read into a table.  Tables can be opened by a header, grow out of
a header or a key with several parts, or be written in line, and the way in
which a table came about decides whether it may be extended later.  So a table
remembers its origin while the document is read.

Values nest at most `depthLimit` deep.  The loops over the characters take a
number of steps, for which the number of characters is always enough.
-/

namespace FormulaMarkup.Toml

/-- How a table came about. -/
inductive TableOrigin where
  /-- Opened by a header of its own. -/
  | header
  /-- Implied by the header of a table inside it. -/
  | implied
  /-- Made by a key with several parts. -/
  | dotted
  /-- Written in line, and so complete. -/
  | inline
deriving Repr, DecidableEq

inductive Value where
  | string (content : String)
  | boolean (value : Bool)
  | number (word : String)
  | dateTime (value : DateTime)
  | array (items : List Value)
  | tableArray (tables : List (List (String × Value)))
  | table (origin : TableOrigin) (entries : List (String × Value))
deriving Inhabited

abbrev Table := List (String × Value)

/-! ## Writing into tables -/

/-- Changes the table at the end of a path, making tables on the way.  A path
leads through tables that are open to it and through the last table of an
array.  A table that was only implied becomes one made by a key when a key
leads through it. -/
def changeAt (dotted : Bool) :
    List String → (TableOrigin → Table → Option Table) → TableOrigin → Table → Option Table
  | [], change, origin, table => change origin table
  | part :: parts, change, _, table =>
      let fresh : TableOrigin := if dotted then .dotted else .implied
      match table.lookup part with
      | none =>
          (changeAt dotted parts change fresh []).map fun inner =>
            writeEntry part (.table fresh inner) table
      | some (.table origin inner) =>
          if origin = .inline ∨ (dotted ∧ origin = .header) then none
          else
            let passed := if dotted then fresh else origin
            (changeAt dotted parts change passed inner).map fun changed =>
              writeEntry part (.table passed changed) table
      | some (.tableArray tables) =>
          match tables.getLast? with
          | none => none
          | some last =>
              (changeAt dotted parts change .header last).map fun changed =>
                writeEntry part (.tableArray (tables.dropLast ++ [changed])) table
      | some _ => none

def insertNew (name : String) (value : Value) (table : Table) : Option Table :=
  if (table.lookup name).isSome then none else some (table ++ [(name, value)])

/-- Enters a value under a key.  The table at the end of a key with several parts must have been
made by such a key. -/
def enterValue (key : List String) (value : Value) (origin : TableOrigin) (table : Table) :
    Option Table :=
  match key.getLast? with
  | none => none
  | some name =>
      changeAt true key.dropLast
        (fun innerOrigin inner =>
          if key.length = 1 ∨ innerOrigin = .dotted then insertNew name value inner else none)
        origin table

/-- Opens the table of a header.  It must be new or implied. -/
def openTable (path : List String) (root : Table) : Option Table :=
  match path.getLast? with
  | none => none
  | some name =>
      changeAt false path.dropLast
        (fun _ table =>
          match table.lookup name with
          | none => some (table ++ [(name, .table .header [])])
          | some (.table .implied inner) => some (writeEntry name (.table .header inner) table)
          | some _ => none)
        .header root

/-- Opens a further table of an array. -/
def openArrayTable (path : List String) (root : Table) : Option Table :=
  match path.getLast? with
  | none => none
  | some name =>
      changeAt false path.dropLast
        (fun _ table =>
          match table.lookup name with
          | none => some (table ++ [(name, .tableArray [[]])])
          | some (.tableArray tables) =>
              some (writeEntry name (.tableArray (tables ++ [[]])) table)
          | some _ => none)
        .header root

/-! ## Reading values -/

/-- Takes a comment, which ends before a line break. -/
def takeComment : List Char → Option (List Char)
  | [] => some []
  | '\n' :: rest => some ('\n' :: rest)
  | '\r' :: '\n' :: rest => some ('\r' :: '\n' :: rest)
  | c :: rest => if isForbidden c then none else takeComment rest

def skipFillerSteps : Nat → List Char → Option (List Char)
  | 0, _ => none
  | steps + 1, cs =>
      match cs.dropWhile isGap with
      | '#' :: rest =>
          match takeComment rest with
          | some after => skipFillerSteps steps after
          | none => none
      | rest =>
          match takeLineBreak rest with
          | some after => skipFillerSteps steps after
          | none => some rest

/-- Passes over gaps, line breaks and comments. -/
def skipFiller (cs : List Char) : Option (List Char) := skipFillerSteps (cs.length + 1) cs

/-- Whether a character ends a word. -/
def endsWord (c : Char) : Bool :=
  isGap c || c == '\n' || c == '\r' || c == '#' || c == ',' || c == ']' || c == '}'

/-- Takes a word.  A date and a time may have a space between them. -/
def takeWord (cs : List Char) : List Char × List Char :=
  let word := cs.takeWhile (!endsWord ·)
  match cs.dropWhile (!endsWord ·) with
  | ' ' :: c :: rest =>
      if isDate word && c.isDigit then
        (word ++ ' ' :: (c :: rest).takeWhile (!endsWord ·), (c :: rest).dropWhile (!endsWord ·))
      else (word, ' ' :: c :: rest)
  | rest => (word, rest)

/-- The value of a word. -/
def wordValue? (word : List Char) : Option Value :=
  if word == "true".toList then some (.boolean true)
  else if word == "false".toList then some (.boolean false)
  else if isInteger word || isFloat word then some (.number (String.ofList word))
  else (dateTime? word).map .dateTime

/-- Reads the items of an array after its bracket, given a reader of values. -/
def readItems (readValue : List Char → Read Value) : Nat → List Char → Read (List Value)
  | 0, _ => none
  | steps + 1, cs =>
      match skipFiller cs with
      | none => none
      | some (']' :: rest) => some ([], rest)
      | some start =>
          match readValue start with
          | none => none
          | some (value, after) =>
              match skipFiller after with
              | some (',' :: rest) =>
                  (readItems readValue steps rest).map fun (values, last) => (value :: values, last)
              | some (']' :: rest) => some ([value], rest)
              | _ => none

/-- Passes over a gap. -/
def skipGap (cs : List Char) : Option (List Char) := some (cs.dropWhile isGap)

/-- Reads a key, an equals sign and a value, given what may stand around the sign. -/
def readPair (skip : List Char → Option (List Char)) (readValue : List Char → Read Value)
    (cs : List Char) : Read (List String × Value) :=
  match readKey cs with
  | none => none
  | some (key, afterKey) =>
      match skip afterKey with
      | some ('=' :: afterSign) =>
          match skip afterSign with
          | some start => (readValue start).map fun (value, rest) => ((key, value), rest)
          | none => none
      | _ => none

/-- Reads the entries of a table in line after its brace. -/
def readEntries (readValue : List Char → Read Value) : Nat → Table → List Char → Read Table
  | 0, _, _ => none
  | steps + 1, table, cs =>
      match skipFiller cs with
      | none => none
      | some ('}' :: rest) => some (table, rest)
      | some start =>
          match readPair skipFiller readValue start with
          | none => none
          | some ((key, value), after) =>
              match enterValue key value .header table with
              | none => none
              | some entered =>
                  match skipFiller after with
                  | some (',' :: rest) => readEntries readValue steps entered rest
                  | some ('}' :: rest) => some (entered, rest)
                  | _ => none

/-- Reads a value that nests at most so deep. -/
def readValue : Nat → List Char → Read Value
  | depth, cs =>
      match cs with
      | '[' :: rest =>
          match depth with
          | 0 => none
          | deeper + 1 =>
              (readItems (readValue deeper) (rest.length + 1) rest).map
                fun (values, after) => (.array values, after)
      | '{' :: rest =>
          match depth with
          | 0 => none
          | deeper + 1 =>
              (readEntries (readValue deeper) (rest.length + 1) [] rest).map
                fun (entries, after) => (.table .inline entries, after)
      | '\x22' :: _ => (readString cs).map fun (content, rest) => (.string content, rest)
      | '\x27' :: _ => (readString cs).map fun (content, rest) => (.string content, rest)
      | _ => (wordValue? (takeWord cs).1).map fun value => (value, (takeWord cs).2)

/-! ## Reading documents -/

/-- What is left of a line after its content: nothing but a gap and a comment. -/
def finishLine (cs : List Char) : Option (List Char) :=
  match cs.dropWhile isGap with
  | [] => some []
  | '#' :: rest => takeComment rest
  | rest => if (takeLineBreak rest).isSome then some rest else none

/-- Reads the path of a header and the brackets that close it. -/
def readHeader (closing : List Char) (cs : List Char) : Read (List String) :=
  match readKey (cs.dropWhile isGap) with
  | some (path, rest) =>
      if closing.isPrefixOf rest then some (path, rest.drop closing.length) else none
  | none => none

/-- Enters a value into the table whose header was read last. -/
def enterBelow (path key : List String) (value : Value) (root : Table) : Option Table :=
  changeAt false path (enterValue key value) .header root

/-- One line of a document: a comment, a header or a value.  The path is that of the last header. -/
def readLine (path : List String) (root : Table) (cs : List Char) :
    Read (List String × Table) :=
  match cs with
  | '[' :: '[' :: rest =>
      match readHeader [']', ']'] rest with
      | some (header, after) =>
          (openArrayTable header root).map fun table => ((header, table), after)
      | none => none
  | '[' :: rest =>
      match readHeader [']'] rest with
      | some (header, after) => (openTable header root).map fun table => ((header, table), after)
      | none => none
  | _ =>
      match readPair skipGap (readValue depthLimit) cs with
      | some ((key, value), after) =>
          (enterBelow path key value root).map fun table => ((path, table), after)
      | none => none

def readDocumentSteps : Nat → List String → Table → List Char → Option Table
  | 0, _, _, _ => none
  | steps + 1, path, root, cs =>
      match skipFiller cs with
      | none => none
      | some [] => some root
      | some start =>
          match readLine path root start with
          | none => none
          | some ((nextPath, table), after) =>
              match finishLine after with
              | some rest => readDocumentSteps steps nextPath table rest
              | none => none

/-- The table of a document.  A byte order mark at its beginning is passed over. -/
def readDocument (text : String) : Option Table :=
  let cs :=
    match text.toList with
    | '\ufeff' :: rest => rest
    | cs => cs
  readDocumentSteps (cs.length + 1) [] [] cs

end FormulaMarkup.Toml
