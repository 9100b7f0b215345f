import FormulaMarkup.Proofs.OwnAttributes

/-!
# Tables in tables

A table in a cell of another table is not displayed, whatever stands between
the two: scripts, fractions, typefaces or chemical notation.  Seen from the
elements, a table that stands in another one is marked, and no other table is;
seen from the tree, each of its tables is written once, row by row and cell by
cell.

The context tells a table whether it stands in another one.  So the elements of
a portion are compared with its tables for a context that is inside a table and
for one that is not, and only the cells of a table change from one to the
other.
-/

namespace FormulaMarkup

/-- A table with its attributes and its rows, and whether it stands in another table. -/
structure PlacedTable where
  nested : Bool
  attributes : Attributes
  rows : List Element

mutual

def Element.placedTables (nested : Bool) : Element → List PlacedTable
  | .text _ _ _ => []
  | .layout tag attributes children =>
      if tag = .table then ⟨nested, attributes, children⟩ :: tablesOfElements true children
      else tablesOfElements nested children

/-- The tables of the elements, in the order of their start tags. -/
def tablesOfElements (nested : Bool) : List Element → List PlacedTable
  | [] => []
  | element :: rest => element.placedTables nested ++ tablesOfElements nested rest

end

@[simp] theorem tablesOfElements_nil (nested : Bool) : tablesOfElements nested [] = [] := by
  rw [tablesOfElements]

@[simp] theorem tablesOfElements_append (nested : Bool) (first second : List Element) :
    tablesOfElements nested (first ++ second) =
      tablesOfElements nested first ++ tablesOfElements nested second := by
  induction first with
  | nil => simp
  | cons element rest ih => simp [tablesOfElements, ih]

@[simp] theorem tablesOfElements_text (nested : Bool) (tag : TextTag) (attributes : Attributes)
    (content : String) : tablesOfElements nested [.text tag attributes content] = [] := by
  simp [tablesOfElements, Element.placedTables]

theorem tablesOfElements_table (nested : Bool) (attributes : Attributes) (rows : List Element) :
    tablesOfElements nested [.layout .table attributes rows] =
      ⟨nested, attributes, rows⟩ :: tablesOfElements true rows := by
  simp [tablesOfElements, Element.placedTables]

theorem tablesOfElements_layout (nested : Bool) {tag : LayoutTag} (htag : tag ≠ .table)
    (attributes : Attributes) (children : List Element) :
    tablesOfElements nested [.layout tag attributes children] =
      tablesOfElements nested children := by
  simp [tablesOfElements, Element.placedTables, htag]

/-! ## What a table shows -/

/-- The cell holds the layout of the node, in a context that is inside a table. -/
def Element.IsCellOf (node : Node) (cell : Element) : Prop :=
  ∃ context content, context.insideTable = true ∧ node.layout .builtin context = .ok content ∧
    cell = .tableCell content

def Element.IsRowOf (nodes : List Node) (row : Element) : Prop :=
  ∃ cells, row = .tableRow cells ∧ List.Forall₂ IsCellOf nodes cells

/-- The table has the rows of the grid, and it is marked if it stands in another table. -/
structure PlacedTable.Shows (grid : List (List Node)) (table : PlacedTable) : Prop where
  rows : List.Forall₂ Element.IsRowOf grid table.rows
  display : table.attributes.get? "displaystyle" = some "false" ↔ table.nested = true

/-- The grids are the tables of the elements in some order, and no cell is empty. -/
structure TablesMatch (nested : Bool) (grids : List (List (List Node)))
    (elements : List Element) : Prop where
  shown : ∃ order, order.Perm grids ∧
    List.Forall₂ PlacedTable.Shows order (tablesOfElements nested elements)
  filled : ∀ element ∈ allElements elements, ∀ attributes children,
    element = .layout .tableCell attributes children → children ≠ []

namespace TablesMatch

variable {nested : Bool} {grids others : List (List (List Node))}
  {elements first second children : List Element}

theorem nil : TablesMatch nested [] [] := by
  constructor
  · exact ⟨[], .refl _, by simp⟩
  · simp

theorem append (hfirst : TablesMatch nested grids first)
    (hsecond : TablesMatch nested others second) :
    TablesMatch nested (grids ++ others) (first ++ second) := by
  obtain ⟨order, hperm, hshown⟩ := hfirst.shown
  obtain ⟨later, hlater, hrest⟩ := hsecond.shown
  constructor
  · refine ⟨order ++ later, hperm.append hlater, ?_⟩
    rw [tablesOfElements_append]
    exact List.rel_append hshown hrest
  · intro element hmem
    rw [allElements_append, List.mem_append] at hmem
    exact hmem.elim (hfirst.filled element) (hsecond.filled element)

theorem text (tag : TextTag) (attributes : Attributes) (content : String) :
    TablesMatch nested [] [.text tag attributes content] := by
  constructor
  · exact ⟨[], .refl _, by simp⟩
  · simp

theorem layout {tag : LayoutTag} (htag : tag ∉ [LayoutTag.table, .tableCell])
    (attributes : Attributes) (hchildren : TablesMatch nested grids children) :
    TablesMatch nested grids [.layout tag attributes children] := by
  simp only [List.mem_cons, List.not_mem_nil, or_false, not_or] at htag
  constructor
  · rw [tablesOfElements_layout nested htag.1]
    exact hchildren.shown
  · intro element hmem
    simp only [allElements_cons, withInner_layout, allElements_nil, List.append_nil,
      List.mem_cons] at hmem
    rcases hmem with rfl | hmem
    · intro attributes others hcell
      exact absurd (Element.layout.inj hcell).1 htag.2
    · exact hchildren.filled element hmem

theorem row (attributes : Attributes) (hchildren : TablesMatch nested grids children) :
    TablesMatch nested grids [.row attributes children] :=
  layout (by simp) attributes hchildren

/-- Text that is put on a base brings no table. -/
theorem mark (hbase : TablesMatch nested grids elements) (attributes : Attributes)
    (content : String) : TablesMatch nested grids (elements ++ [.operator attributes content]) := by
  have hmarked := hbase.append (text .operator attributes content)
  rwa [List.append_nil] at hmarked

theorem stack (side : Side) (attributes : Attributes)
    (hchildren : TablesMatch nested grids children) :
    TablesMatch nested grids [.layout side.stackTag attributes children] :=
  layout (by cases side <;> simp [Side.stackTag]) attributes hchildren

theorem fence (delimiter : Option Char) : TablesMatch nested [] (fence delimiter) := by
  cases delimiter with
  | none => exact nil
  | some c => exact text .operator fenceAttributes c.toString

theorem fractionElement (style : FractionStyle) (attributes : Attributes)
    (hparts : TablesMatch nested grids elements) :
    TablesMatch nested grids [fractionElement style attributes elements] := by
  have hfraction (attributes : Attributes) :
      TablesMatch nested grids [.layout .fraction attributes elements] :=
    layout (by simp) attributes hparts
  cases style with
  | inherited => exact hfraction _
  | display => exact hfraction _
  | text => exact hfraction _
  | binomial =>
      have hopen : TablesMatch nested [] [.operator ∅ "("] := text .operator ∅ "("
      exact row attributes ((hopen.append (hfraction _)).mark ∅ ")")

theorem tableCell (hcontent : TablesMatch nested grids elements) :
    TablesMatch nested grids [.tableCell elements] := by
  have hplaceholder : TablesMatch nested [] [.placeholder] := text .identifier ∅ ""
  have hchildren : TablesMatch nested grids
      (if elements.isEmpty then [.placeholder] else elements) := by
    split
    · next hempty =>
      rw [List.isEmpty_iff] at hempty
      subst hempty
      simpa using hcontent.append hplaceholder
    · exact hcontent
  constructor
  · rw [Element.tableCell, tablesOfElements_layout nested (by simp)]
    exact hchildren.shown
  · intro element hmem
    simp only [Element.tableCell, allElements_cons, withInner_layout, allElements_nil,
      List.append_nil, List.mem_cons] at hmem
    rcases hmem with rfl | hmem
    · intro attributes children hcell
      rw [← (Element.layout.inj hcell).2.2]
      split
      · simp
      · next hne => simpa using hne
    · exact hchildren.filled element hmem

end TablesMatch

/-- Without attributes from outside, only a table in a table is not displayed. -/
theorem TableStyle.displaystyle_iff (style : TableStyle) {context : Context}
    (hcontext : context.attributes = ∅) :
    (style.alignment.attributes (style.attributes context)).get? "displaystyle" = some "false" ↔
      context.insideTable = true := by
  rw [TableStyle.attributes, hcontext]
  cases context.insideTable <;> cases style.alignment <;> cases style.small <;>
    simp [Alignment.attributes, Dictionary.merge, Dictionary.ofList, Dictionary.get?,
      Dictionary.singleton, Dictionary.empty, writeEntry, List.lookup_cons]

theorem TablesMatch.table (style : TableStyle) {context : Context}
    (hcontext : context.attributes = ∅) {grid : List (List Node)} {rows : List Element}
    (hrows : List.Forall₂ Element.IsRowOf grid rows)
    (hinner : TablesMatch true (tablesOfRows grid) rows) :
    TablesMatch context.insideTable (grid :: tablesOfRows grid)
      [.table style.alignment (style.attributes context) rows] := by
  obtain ⟨order, hperm, hshown⟩ := hinner.shown
  constructor
  · refine ⟨grid :: order, hperm.cons grid, ?_⟩
    rw [Element.table, tablesOfElements_table]
    exact .cons ⟨hrows, style.displaystyle_iff hcontext⟩ hshown
  · intro element hmem
    simp only [Element.table, allElements_cons, withInner_layout, allElements_nil,
      List.append_nil, List.mem_cons] at hmem
    rcases hmem with rfl | hmem
    · intro attributes children hcell
      cases hcell
    · exact hinner.filled element hmem

/-! ## The tables of a tree -/

def Portion.tables : Portion → List (List (List Node))
  | .inline node => node.tables
  | .single node => node.tables
  | .items nodes => tablesOfAll nodes
  | .attached node => node.tables
  | .cells nodes => tablesOfAll nodes
  | .rows grid => tablesOfRows grid
  | .segments parts => parts.flatMap (ChemicalSegment.collect Node.tables)

mutual

theorem Node.tables_of_plainText? {allowCommands : Bool} {text : String} (node : Node)
    (htext : node.plainText? allowCommands = some text) : node.tables = [] := by
  match node with
  | .literal value => rfl
  | .sequence curly items =>
      rw [Node.tables, tablesOfAll_of_plainTexts? items htext]
  | .script .. | .unary .. | .binary .. | .table .. => simp [Node.plainText?] at htext

theorem tablesOfAll_of_plainTexts? {allowCommands : Bool} {text : String} (nodes : List Node)
    (htext : plainTexts? allowCommands nodes = some text) : tablesOfAll nodes = [] := by
  match nodes with
  | [] => rfl
  | node :: rest =>
      rw [plainTexts?] at htext
      split at htext
      · next hnode hrest =>
        rw [tablesOfAll, node.tables_of_plainText? hnode, tablesOfAll_of_plainTexts? rest hrest]
        rfl
      · cases htext

end

end FormulaMarkup
