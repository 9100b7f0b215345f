import FormulaMarkup.WrittenMarkup

/-!
# Trees of elements

A layout is a list of elements.  An element holds text or further elements,
according to its tag, so there is no way to build a tree that is not well
formed; text becomes markup only here, in `Element.write`, where it is
escaped.

Each builder of a tree is followed by the statement that it is written out as
the builder of the same name writes it around written content.
-/

namespace FormulaMarkup

inductive Element where
  | text (tag : TextTag) (attributes : Attributes) (content : String)
  | layout (tag : LayoutTag) (attributes : Attributes) (children : List Element)

mutual

def Element.write : Element → String
  | .text tag attributes content => Written.leaf (.text tag) attributes content
  | .layout tag attributes children =>
      Written.enclose (.layout tag) attributes (writeElements children)

def writeElements : List Element → String
  | [] => ""
  | element :: rest => element.write ++ writeElements rest

end

@[simp] theorem writeElements_nil : writeElements [] = "" := by
  rw [writeElements]

@[simp] theorem writeElements_cons (element : Element) (rest : List Element) :
    writeElements (element :: rest) = element.write ++ writeElements rest := by
  rw [writeElements]

@[simp] theorem write_text (tag : TextTag) (attributes : Attributes) (content : String) :
    (Element.text tag attributes content).write =
      Written.leaf (.text tag) attributes content := by
  rw [Element.write]

@[simp] theorem write_layout (tag : LayoutTag) (attributes : Attributes)
    (children : List Element) :
    (Element.layout tag attributes children).write =
      Written.enclose (.layout tag) attributes (writeElements children) := by
  rw [Element.write]

@[simp] theorem writeElements_append (first second : List Element) :
    writeElements (first ++ second) = writeElements first ++ writeElements second := by
  induction first with
  | nil => simp
  | cons element rest ih => simp [ih, String.append_assoc]

namespace Element

def identifier (attributes : Attributes) (content : String) : Element :=
  .text .identifier attributes content

def number (attributes : Attributes) (content : String) : Element :=
  .text .number attributes content

def operator (attributes : Attributes) (content : String) : Element :=
  .text .operator attributes content

def plainText (attributes : Attributes) (content : String) : Element :=
  .text .plainText attributes content

/-- The empty identifier, which stands where an argument is empty. -/
def placeholder : Element := .identifier ∅ ""

def row (attributes : Attributes) (children : List Element) : Element :=
  .layout .row attributes children

def space (width : String) (extra : Attributes) : Element :=
  .layout .space (spaceAttributes width extra) []

def enclosure (kind : String) (extra : Attributes) (children : List Element) : Element :=
  .layout .enclosure (enclosureAttributes kind extra) children

def table (alignment : Alignment) (extra : Attributes) (rows : List Element) : Element :=
  .layout .table (alignment.attributes extra) rows

def tableRow (cells : List Element) : Element := .layout .tableRow ∅ cells

/-- A table cell.  An empty one holds the placeholder. -/
def tableCell (children : List Element) : Element :=
  .layout .tableCell ∅ (if children.isEmpty then [placeholder] else children)

/-- Content together with a text that says the same in another encoding. -/
def semantics (children : List Element) (encoding note : String) : Element :=
  .layout .semantics ∅
    (children ++ [.text .annotationText (Dictionary.singleton "encoding" encoding) note])

@[simp] theorem write_placeholder : placeholder.write = Written.placeholder := by
  simp [placeholder, identifier, Written.placeholder]

@[simp] theorem write_space (width : String) (extra : Attributes) :
    (space width extra).write = Written.space width extra := by
  simp [space, Written.space]

@[simp] theorem write_enclosure (kind : String) (extra : Attributes) (children : List Element) :
    (enclosure kind extra children).write =
      Written.enclosure kind extra (writeElements children) := by
  simp [enclosure, Written.enclosure]

@[simp] theorem write_table (alignment : Alignment) (extra : Attributes) (rows : List Element) :
    (table alignment extra rows).write =
      Written.table alignment extra (writeElements rows) := by
  simp [table, Written.table]

@[simp] theorem write_tableRow (cells : List Element) :
    (tableRow cells).write = Written.tableRow (writeElements cells) := by
  simp [tableRow, Written.tableRow]

theorem write_ne_empty (element : Element) : element.write ≠ "" := by
  have hopen (tag : Tag) (attributes : Attributes) (content : String) :
      Written.enclose tag attributes content ≠ "" := by
    intro h
    have hlist := congrArg String.toList h
    simp [Written.enclose, Written.startTag] at hlist
  cases element with
  | text tag attributes content => simpa [Written.leaf] using hopen _ _ _
  | layout tag attributes children => simpa using hopen _ _ _

theorem writeElements_eq_empty_iff (elements : List Element) :
    writeElements elements = "" ↔ elements = [] := by
  cases elements with
  | nil => simp
  | cons element rest => simp [write_ne_empty element]

theorem write_tableCell (children : List Element) :
    (tableCell children).write = Written.tableCell (writeElements children) := by
  cases children with
  | nil => simp [tableCell, Written.tableCell]
  | cons element rest =>
      have hne : element.write ++ writeElements rest ≠ "" := by
        simp [write_ne_empty element]
      simp [tableCell, Written.tableCell, hne]

@[simp] theorem write_semantics (children : List Element) (encoding note : String) :
    (semantics children encoding note).write =
      Written.semantics (writeElements children) encoding note := by
  simp [semantics, Written.semantics, Written.encloseAll, String.join]

end Element
end FormulaMarkup
