import FormulaMarkup.CanonicalText

/-!
# Trees with braced scripts

The canonical text of a tree has all its scripts in braces, so it cannot be
read as the same tree if a script of the tree is no group.  What it can be read
as is the tree with braces around these scripts.  The two trees have the same
text, whatever the tree is.

A tree can be read only if it is not too deep, and if none of its tables ends
in a blank row, which the reader leaves out.  Both are said here of the tree
alone.
-/

namespace FormulaMarkup

/-- The node in braces.  A curly sequence has its own. -/
def Node.enclosed (node : Node) : Node :=
  if node.isCurly then node else .sequence true [node]

mutual

/-- The tree in which every script is a curly sequence. -/
def Node.braceScripts : Node → Node
  | .literal value => .literal value
  | .sequence curly items => .sequence curly (braceScriptsOfAll items)
  | .script side base attached =>
      .script side base.braceScripts attached.braceScripts.enclosed
  | .unary style name argument => .unary style name argument.braceScripts
  | .binary name first second => .binary name first.braceScripts second.braceScripts
  | .table environment rows => .table environment (braceScriptsOfRows rows)

def braceScriptsOfAll : List Node → List Node
  | [] => []
  | node :: rest => node.braceScripts :: braceScriptsOfAll rest

def braceScriptsOfRows : List (List Node) → List (List Node)
  | [] => []
  | row :: rest => braceScriptsOfAll row :: braceScriptsOfRows rest

end

mutual

/-- How many groups, commands with a shape and environments stand in each
other.  The braces of a text box make no group. -/
def Node.nesting : Node → Nat
  | .literal _ => 0
  | .sequence curly items => nestingOfAll items + curly.toNat
  | .script _ base attached => max base.nesting attached.nesting
  | .unary _ name argument =>
      if shape? name = some .rawText then 1 else argument.nesting + 1
  | .binary _ first second => max first.nesting second.nesting + 1
  | .table _ rows => nestingOfRows rows + 1

def nestingOfAll : List Node → Nat
  | [] => 0
  | node :: rest => max node.nesting (nestingOfAll rest)

def nestingOfRows : List (List Node) → Nat
  | [] => 0
  | row :: rest => max (nestingOfAll row) (nestingOfRows rest)

end

mutual

/-- The rows of every table in a tree. -/
def Node.tables : Node → List (List (List Node))
  | .literal _ => []
  | .sequence _ items => tablesOfAll items
  | .script _ base attached => base.tables ++ attached.tables
  | .unary _ _ argument => argument.tables
  | .binary _ first second => first.tables ++ second.tables
  | .table _ rows => rows :: tablesOfRows rows

def tablesOfAll : List Node → List (List (List Node))
  | [] => []
  | node :: rest => node.tables ++ tablesOfAll rest

def tablesOfRows : List (List Node) → List (List (List Node))
  | [] => []
  | row :: rest => tablesOfAll row ++ tablesOfRows rest

end

/-- There are other rows before a last row of one empty cell. -/
def endsInBlankRow (rows : List (List Node)) : Bool :=
  2 ≤ rows.length && rows.getLast?.any fun row =>
    row.length == 1 && row.all Node.isEmptySequence

@[simp] theorem braceScriptsOfAll_eq_map (nodes : List Node) :
    braceScriptsOfAll nodes = nodes.map Node.braceScripts := by
  induction nodes with
  | nil => rfl
  | cons node rest ih => simp [braceScriptsOfAll, ih]

@[simp] theorem braceScriptsOfRows_eq_map (rows : List (List Node)) :
    braceScriptsOfRows rows = rows.map (List.map Node.braceScripts) := by
  induction rows with
  | nil => rfl
  | cons row rest ih => simp [braceScriptsOfRows, ih]

@[simp] theorem nodeTexts_eq_map (nodes : List Node) (mode : TextMode) :
    nodeTexts nodes mode = nodes.map fun node => node.text mode := by
  induction nodes with
  | nil => rfl
  | cons node rest ih => simp [nodeTexts, ih]

@[simp] theorem rowTexts_eq_map (rows : List (List Node)) :
    rowTexts rows =
      rows.map fun row => String.intercalate "&" (row.map fun cell => cell.text .canonical) := by
  induction rows with
  | nil => rfl
  | cons row rest ih => simp [rowTexts, ih]

/-! ## The text of a tree with braced scripts -/

@[simp] theorem Node.isCurly_braceScripts (node : Node) :
    node.braceScripts.isCurly = node.isCurly := by
  cases node <;> rfl

theorem Node.isCurly_enclosed (node : Node) : node.enclosed.isCurly = true := by
  unfold enclosed
  split
  · assumption
  · rfl

theorem Node.bracing_text (node : Node) :
    node.bracing (node.text .canonical) = node.enclosed.text .canonical := by
  unfold bracing enclosed
  split
  · rfl
  · simp [Node.text, String.join_cons]

theorem Node.bracing_of_isCurly {node : Node} (hcurly : node.isCurly = true) (text : String) :
    node.bracing text = text := by
  rw [bracing, if_pos hcurly]

theorem Node.bracing_braceScripts (node : Node) (text : String) :
    node.braceScripts.bracing text = node.bracing text := by
  simp only [bracing, isCurly_braceScripts]

mutual

theorem Node.text_braceScripts (node : Node) (mode : TextMode) :
    node.braceScripts.text mode = node.text mode := by
  match node with
  | .literal value => rfl
  | .sequence curly items =>
      simp only [Node.braceScripts, Node.text, texts_braceScriptsOfAll items mode]
  | .script side base attached =>
      have hbase := base.text_braceScripts .canonical
      have hattached := attached.text_braceScripts .canonical
      have hcurly := attached.braceScripts.isCurly_enclosed
      simp only [Node.braceScripts, Node.text, hbase, Node.bracing_of_isCurly hcurly]
      rw [← Node.bracing_text, Node.bracing_braceScripts, hattached]
  | .unary style name argument =>
      have hcanonical := argument.text_braceScripts .canonical
      have hverbatim := argument.text_braceScripts .verbatim
      cases style with
      | braced =>
          simp only [Node.braceScripts, Node.text, Node.bracing_braceScripts, hcanonical,
            hverbatim]
      | bare => simp only [Node.braceScripts, Node.text, hcanonical]
  | .binary name first second =>
      have hfirst := first.text_braceScripts .canonical
      have hsecond := second.text_braceScripts .canonical
      simp only [Node.braceScripts, Node.text, Node.bracing_braceScripts, hfirst, hsecond]
  | .table environment rows =>
      simp only [Node.braceScripts, Node.text, rowTexts_braceScriptsOfRows rows]

theorem texts_braceScriptsOfAll (nodes : List Node) (mode : TextMode) :
    nodeTexts (braceScriptsOfAll nodes) mode = nodeTexts nodes mode := by
  match nodes with
  | [] => rfl
  | node :: rest =>
      rw [braceScriptsOfAll, nodeTexts, nodeTexts, node.text_braceScripts mode,
        texts_braceScriptsOfAll rest mode]

theorem rowTexts_braceScriptsOfRows (rows : List (List Node)) :
    rowTexts (braceScriptsOfRows rows) = rowTexts rows := by
  match rows with
  | [] => rfl
  | row :: rest =>
      rw [braceScriptsOfRows, rowTexts, rowTexts, texts_braceScriptsOfAll row .canonical,
        rowTexts_braceScriptsOfRows rest]

end

/-! ## Trees that can be read -/

theorem nestingOfAll_le_iff {nodes : List Node} {depth : Nat} :
    nestingOfAll nodes ≤ depth ↔ ∀ node ∈ nodes, node.nesting ≤ depth := by
  induction nodes with
  | nil => simp [nestingOfAll]
  | cons node rest ih => rw [nestingOfAll, Nat.max_le, ih, List.forall_mem_cons]

theorem nestingOfRows_le_iff {rows : List (List Node)} {depth : Nat} :
    nestingOfRows rows ≤ depth ↔ ∀ row ∈ rows, ∀ cell ∈ row, cell.nesting ≤ depth := by
  induction rows with
  | nil => simp [nestingOfRows]
  | cons row rest ih =>
      rw [nestingOfRows, Nat.max_le, nestingOfAll_le_iff, ih, List.forall_mem_cons]

theorem mem_tablesOfAll {nodes : List Node} {rows : List (List Node)} :
    rows ∈ tablesOfAll nodes ↔ ∃ node ∈ nodes, rows ∈ node.tables := by
  induction nodes with
  | nil => simp [tablesOfAll]
  | cons node rest ih => simp [tablesOfAll, ih]

theorem mem_tablesOfRows {grid rows : List (List Node)} :
    rows ∈ tablesOfRows grid ↔ ∃ row ∈ grid, ∃ cell ∈ row, rows ∈ cell.tables := by
  induction grid with
  | nil => simp [tablesOfRows]
  | cons row rest ih => simp [tablesOfRows, mem_tablesOfAll, ih]

theorem Node.braceScripts_enclosed (node : Node) :
    node.enclosed.braceScripts = node.braceScripts.enclosed := by
  unfold enclosed
  rw [isCurly_braceScripts]
  split
  · rfl
  · rfl

theorem Node.tables_enclosed (node : Node) : node.enclosed.tables = node.tables := by
  unfold enclosed
  split
  · rfl
  · simp [tables, tablesOfAll]

/-- Read again, no row of the tree is left out, and it needs at most so many
groups, commands and environments in each other. -/
structure Node.Fits (node : Node) (depth : Nat) : Prop where
  tables : ∀ rows ∈ node.tables, endsInBlankRow rows = false
  nesting : node.braceScripts.nesting ≤ depth

namespace Node.Fits

variable {depth : Nat}

theorem exists_below {count : Nat} (hcount : count + 1 ≤ depth) :
    ∃ below, depth = below + 1 ∧ count ≤ below :=
  ⟨depth - 1, by omega, by omega⟩

theorem items
    {nodes : List Node} (hfits : (Node.sequence false nodes).Fits depth) :
    ∀ node ∈ nodes, node.Fits depth := by
  obtain ⟨htables, hnesting⟩ := hfits
  simp only [Node.braceScripts, braceScriptsOfAll_eq_map, Node.nesting, Bool.toNat_false,
    Nat.add_zero, nestingOfAll_le_iff, List.forall_mem_map] at hnesting
  intro node hnode
  refine ⟨fun rows hrows => htables rows ?_, hnesting node hnode⟩
  exact mem_tablesOfAll.mpr ⟨node, hnode, hrows⟩

theorem group
    {nodes : List Node} (hfits : (Node.sequence true nodes).Fits depth) :
    ∃ below, depth = below + 1 ∧ (Node.sequence false nodes).Fits below := by
  obtain ⟨htables, hnesting⟩ := hfits
  simp only [Node.braceScripts, Node.nesting, Bool.toNat_true] at hnesting
  obtain ⟨below, rfl, hbelow⟩ := exists_below hnesting
  exact ⟨below, rfl, htables, hbelow⟩

theorem base
    {side : Side} {base attached : Node}
    (hfits : (Node.script side base attached).Fits depth) :
    base.Fits depth := by
  obtain ⟨htables, hnesting⟩ := hfits
  simp only [Node.tables, List.mem_append] at htables
  simp only [Node.braceScripts, Node.nesting, Nat.max_le] at hnesting
  exact ⟨fun rows hrows => htables rows (.inl hrows), hnesting.1⟩

theorem attached
    {side : Side} {base attached : Node}
    (hfits : (Node.script side base attached).Fits depth) :
    attached.enclosed.Fits depth := by
  obtain ⟨htables, hnesting⟩ := hfits
  simp only [Node.tables, List.mem_append] at htables
  simp only [Node.braceScripts, Node.nesting, Nat.max_le] at hnesting
  constructor
  · intro rows hrows
    rw [Node.tables_enclosed] at hrows
    exact htables rows (.inr hrows)
  · rw [Node.braceScripts_enclosed]
    exact hnesting.2

theorem exists_below_of_unary
    {style : ArgumentStyle} {name : String} {argument : Node}
    (hfits : (Node.unary style name argument).Fits depth) :
    ∃ below, depth = below + 1 := by
  have hnesting := hfits.nesting
  simp only [Node.braceScripts, Node.nesting] at hnesting
  split at hnesting
  · obtain ⟨below, hdepth, _⟩ := exists_below hnesting
    exact ⟨below, hdepth⟩
  · obtain ⟨below, hdepth, _⟩ := exists_below hnesting
    exact ⟨below, hdepth⟩

theorem argument
    {style : ArgumentStyle} {name : String} {argument : Node}
    (hfits : (Node.unary style name argument).Fits depth)
    (hshape : shape? name ≠ some .rawText) :
    ∃ below, depth = below + 1 ∧ argument.Fits below := by
  obtain ⟨below, rfl⟩ := hfits.exists_below_of_unary
  obtain ⟨htables, hnesting⟩ := hfits
  simp only [Node.braceScripts, Node.nesting, if_neg hshape, Nat.add_le_add_iff_right] at hnesting
  exact ⟨below, rfl, htables, hnesting⟩

theorem arguments
    {name : String} {first second : Node} (hfits : (Node.binary name first second).Fits depth) :
    ∃ below, depth = below + 1 ∧ first.Fits below ∧ second.Fits below := by
  obtain ⟨htables, hnesting⟩ := hfits
  simp only [Node.tables, List.mem_append] at htables
  simp only [Node.braceScripts, Node.nesting] at hnesting
  obtain ⟨below, rfl, hbelow⟩ := exists_below hnesting
  rw [Nat.max_le] at hbelow
  exact ⟨below, rfl, ⟨fun rows hrows => htables rows (.inl hrows), hbelow.1⟩,
    ⟨fun rows hrows => htables rows (.inr hrows), hbelow.2⟩⟩

theorem cells
    {environment : Environment} {rows : List (List Node)}
    (hfits : (Node.table environment rows).Fits depth) :
    ∃ below, depth = below + 1 ∧ endsInBlankRow rows = false ∧
      ∀ row ∈ rows, ∀ cell ∈ row, cell.Fits below := by
  obtain ⟨htables, hnesting⟩ := hfits
  simp only [Node.tables, List.mem_cons, forall_eq_or_imp] at htables
  simp only [Node.braceScripts, Node.nesting] at hnesting
  obtain ⟨below, rfl, hbelow⟩ := exists_below hnesting
  rw [braceScriptsOfRows_eq_map, nestingOfRows_le_iff] at hbelow
  simp only [List.forall_mem_map] at hbelow
  refine ⟨below, rfl, htables.1, ?_⟩
  intro row hrow cell hcell
  refine ⟨fun found hfound => htables.2 found ?_, hbelow row hrow cell hcell⟩
  exact mem_tablesOfRows.mpr ⟨row, hrow, cell, hcell, hfound⟩

end Node.Fits

end FormulaMarkup
