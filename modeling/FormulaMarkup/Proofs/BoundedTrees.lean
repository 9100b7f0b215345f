import FormulaMarkup.Proofs.GrammarReading
import FormulaMarkup.Proofs.LayoutConditions

/-!
# Bounded trees

However long a formula is, its tree is not deep.  On the way from the root to a
leaf, each group, command with a shape and environment takes one of the levels
that may be entered, and between two levels there are only the scripts of one
base and maybe the cell of a table.
-/

namespace FormulaMarkup

namespace Node

/-- The path leads from the node down to a leaf. -/
inductive IsPath : Node → List Node → Prop
  | leaf {node : Node} (hparts : node.parts = []) : IsPath node [node]
  | step {node part : Node} {path : List Node} (hpart : part ∈ node.parts)
      (hpath : part.IsPath path) : IsPath node (node :: path)

def isTextBox : Node → Bool
  | .unary _ name _ => shape? name = some .rawText
  | _ => false

/-- Groups, commands with arguments and tables. -/
def takesLevel : Node → Bool
  | .literal _ => false
  | .sequence curly _ => curly
  | .script _ _ _ => false
  | .unary _ _ _ => true
  | .binary _ _ _ => true
  | .table _ _ => true

/-- The number of scripts that stand on one another. -/
def scriptChain : Node → Nat
  | .script _ base _ => base.scriptChain + 1
  | _ => 0

end Node

/-- The number of levels that the nodes on a path take.  The group of a text
box takes none; whether the path begins in a text box is given. -/
def levelsOnPath (inBox : Bool) : List Node → Nat
  | [] => 0
  | node :: rest =>
      (if node.takesLevel && !inBox then 1 else 0) + levelsOnPath node.isTextBox rest

/-- Bounds for the levels on a path, for its length and for the chains of scripts. -/
structure Node.Bounded (levels length : Nat) (node : Node) : Prop where
  levels : ∀ path, node.IsPath path → levelsOnPath false path ≤ levels
  length : ∀ path, node.IsPath path → path.length ≤ length
  chains : ∀ found, node.ContainsAnywhere found → found.scriptChain ≤ nestingLimit

namespace Node.Bounded

variable {node : Node} {levels length : Nat}

theorem mono {moreLevels longer : Nat} (hnode : node.Bounded levels length)
    (hlevels : levels ≤ moreLevels) (hlength : length ≤ longer) :
    node.Bounded moreLevels longer where
  levels path hpath := Nat.le_trans (hnode.levels path hpath) hlevels
  length path hpath := Nat.le_trans (hnode.length path hpath) hlength
  chains := hnode.chains

theorem of_parts (hbox : node.isTextBox = false) (hchain : node.scriptChain ≤ nestingLimit)
    (hparts : ∀ part ∈ node.parts, part.Bounded levels length) :
    node.Bounded (levels + if node.takesLevel then 1 else 0) (length + 1) := by
  constructor
  · intro path hpath
    cases hpath with
    | leaf => simp [levelsOnPath]
    | step hpart hpath =>
        have hrest := (hparts _ hpart).levels _ hpath
        simp only [levelsOnPath, hbox, Bool.not_false, Bool.and_true]
        omega
  · intro path hpath
    cases hpath with
    | leaf => simp
    | step hpart hpath =>
        have hrest := (hparts _ hpart).length _ hpath
        simp only [List.length_cons]
        omega
  · intro found hfound
    cases hfound with
    | self => exact hchain
    | inPart _ hpart hfound => exact (hparts _ hpart).chains found hfound

theorem literal (value : String) : (Node.literal value).Bounded levels (length + 1) := by
  have hparts : ∀ part ∈ (Node.literal value).parts, part.Bounded levels length := by
    simp [Node.parts]
  exact of_parts rfl (Nat.zero_le _) hparts

/-- A text box takes one level, whatever its text is. -/
theorem textBox {style : ArgumentStyle} {name : String} {items : List Node}
    (hshape : shape? name = some .rawText)
    (hitems : ∀ item ∈ items, ∃ value, item = .literal value) :
    (Node.unary style name (.sequence true items)).Bounded 1 3 := by
  have hgroup {path : List Node} (hpath : (Node.sequence true items).IsPath path) :
      levelsOnPath true path = 0 ∧ path.length ≤ 2 := by
    cases hpath with
    | leaf => simp [levelsOnPath]
    | step hpart hpath =>
        obtain ⟨value, rfl⟩ := hitems _ hpart
        cases hpath with
        | leaf => simp [levelsOnPath, Node.takesLevel]
        | step hpart _ => cases hpart
  have hbox : (Node.unary style name (.sequence true items)).isTextBox = true := by
    simp [Node.isTextBox, hshape]
  constructor
  · intro path hpath
    cases hpath with
    | leaf hparts => cases hparts
    | step hpart hpath =>
        obtain rfl := List.mem_singleton.mp hpart
        rw [levelsOnPath, hbox, (hgroup hpath).1]
        simp [Node.takesLevel]
  · intro path hpath
    cases hpath with
    | leaf hparts => cases hparts
    | step hpart hpath =>
        obtain rfl := List.mem_singleton.mp hpart
        have hlength := (hgroup hpath).2
        simp only [List.length_cons]
        omega
  · intro found hfound
    cases hfound with
    | self => exact Nat.zero_le _
    | inPart _ hpart hfound =>
        obtain rfl := List.mem_singleton.mp hpart
        cases hfound with
        | self => exact Nat.zero_le _
        | inPart _ hpart hfound =>
            obtain ⟨value, rfl⟩ := hitems _ hpart
            rw [Node.eq_of_contains_literal hfound]
            exact Nat.zero_le _

end Node.Bounded

/-! ## Phrases -/

/-- The number of nodes from one level to the next: a group or a table, a cell,
and the scripts of one base. -/
def levelHeight : Nat := nestingLimit + 2

/-- What a phrase gives to the bounds of the trees that it is part of. -/
def Phrase.Bounded (depth : Nat) : Phrase → Prop
  | .primary node => node.Bounded depth (levelHeight * depth + 1) ∧ node.scriptChain = 0
  | .group node => node.Bounded depth (levelHeight * depth) ∧ node.scriptChain = 0
  | .scripts count base node =>
      ∀ length, levelHeight * depth + 1 ≤ length → base.Bounded depth length →
        base.scriptChain + count ≤ nestingLimit → node.Bounded depth (length + count)
  | .items nodes => ∀ node ∈ nodes, node.Bounded depth (levelHeight * depth + 1 + nestingLimit)
  | .sequence nodes => ∀ node ∈ nodes, node.Bounded depth (levelHeight * depth + 1 + nestingLimit)
  | .rows _ grid =>
      ∀ row ∈ grid, ∀ cell ∈ row, cell.Bounded depth (levelHeight * depth + 2 + nestingLimit)

theorem Node.Bounded.group {nodes : List Node} {depth length : Nat}
    (hnodes : ∀ node ∈ nodes, node.Bounded depth length) :
    (Node.sequence true nodes).Bounded (depth + 1) (length + 1) := by
  have hparts : ∀ part ∈ (Node.sequence true nodes).parts, part.Bounded depth length := hnodes
  exact .of_parts rfl (Nat.zero_le _) hparts

theorem Node.Bounded.plainSequence {nodes : List Node} {depth length : Nat}
    (hnodes : ∀ node ∈ nodes, node.Bounded depth length) :
    (Node.sequence false nodes).Bounded depth (length + 1) := by
  have hparts : ∀ part ∈ (Node.sequence false nodes).parts, part.Bounded depth length := hnodes
  exact .of_parts rfl (Nat.zero_le _) hparts

/-- A command around arguments that are read one level further down. -/
theorem Node.Bounded.command {node : Node} {depth length : Nat} (hbox : node.isTextBox = false)
    (hchain : node.scriptChain = 0) (hlevel : node.takesLevel = true)
    (hlength : length ≤ levelHeight * depth + levelHeight)
    (hparts : ∀ part ∈ node.parts, part.Bounded depth length) :
    node.Bounded (depth + 1) (levelHeight * (depth + 1) + 1) := by
  have hnode := Node.Bounded.of_parts hbox (hchain ▸ Nat.zero_le _) hparts
  rw [hlevel] at hnode
  refine hnode.mono (Nat.le_refl _) ?_
  rw [Nat.mul_succ]
  omega

theorem Derives.bounded {chemistry : Bool} {depth : Nat} {phrase : Phrase}
    {input rest : List Lexeme} (hderives : Derives chemistry depth phrase input rest) :
    phrase.Bounded depth := by
  have hbox {style : ArgumentStyle} {name : String} {argument : Node} {shape : ArgumentShape}
      (hshape : shape? name = some shape) (htext : shape ≠ .rawText) :
      (Node.unary style name argument).isTextBox = false := by
    simpa [Node.isTextBox, hshape] using htext
  have hroom (depth : Nat) : levelHeight * depth + 1 ≤ levelHeight * depth + levelHeight :=
    Nat.add_le_add_left (by decide) _
  have htext {depth : Nat} {name : String} {items : List Node}
      (hshape : shape? name = some .rawText)
      (hitems : ∀ item ∈ items, ∃ value, item = .literal value) :
      (Phrase.primary (.unary .braced name (.sequence true items))).Bounded (depth + 1) := by
    refine ⟨(Node.Bounded.textBox hshape hitems).mono (Nat.le_add_left 1 _) ?_, rfl⟩
    simp only [levelHeight, nestingLimit]
    omega
  have hcell {depth : Nat} {nodes : List Node} (hnodes : (Phrase.sequence nodes).Bounded depth) :
      (Node.sequence false nodes).Bounded depth (levelHeight * depth + 2 + nestingLimit) :=
    (Node.Bounded.plainSequence hnodes).mono (Nat.le_refl _) (by omega)
  induction hderives with
  | letter | symbol | number | command => exact ⟨.literal _, rfl⟩
  | inBraces _ ih => exact ⟨ih.1.mono (Nat.le_refl _) (Nat.le_succ _), ih.2⟩
  | braced hshape _ ih =>
      refine ⟨.command (hbox hshape (by simp)) rfl rfl (Nat.le_add_right _ _) ?_, rfl⟩
      simpa [Node.parts] using ih.1
  | chemical _ hshape _ ih =>
      refine ⟨.command (hbox hshape (by simp)) rfl rfl (Nat.le_add_right _ _) ?_, rfl⟩
      simpa [Node.parts] using ih.1
  | bare hshape _ ih =>
      refine ⟨.command (hbox hshape (by simp)) rfl rfl (hroom _) ?_, rfl⟩
      simpa [Node.parts] using ih.1
  | twoBraced _ _ _ ihfirst ihsecond =>
      refine ⟨.command rfl rfl rfl (Nat.le_add_right _ _) ?_, rfl⟩
      simpa [Node.parts] using ⟨ihfirst.1, ihsecond.1⟩
  | emptyText hshape => exact htext hshape (by simp)
  | text hshape => exact htext hshape (by simp)
  | symbolDelimiter hshape =>
      refine ⟨.command (hbox hshape (by simp)) rfl rfl (hroom _) ?_, rfl⟩
      simpa [Node.parts, Node.ofChar] using Node.Bounded.literal _
  | commandDelimiter hshape =>
      refine ⟨.command (hbox hshape (by simp)) rfl rfl (hroom _) ?_, rfl⟩
      simpa [Node.parts] using Node.Bounded.literal _
  | @environment depth _ _ _ kept _ _ _ hkept ih =>
      have hcells : ∀ row ∈ kept, ∀ cell ∈ row,
          cell.Bounded depth (levelHeight * depth + 2 + nestingLimit) := by
        rcases hkept with ⟨_, rfl⟩ | ⟨rfl, _⟩
        · exact fun row hrow => ih row (List.mem_append_left _ hrow)
        · exact ih
      have hlength :
          levelHeight * depth + 2 + nestingLimit ≤ levelHeight * depth + levelHeight := by
        simp only [levelHeight]
        omega
      refine ⟨.command rfl rfl rfl hlength ?_, rfl⟩
      intro part hpart
      obtain ⟨row, hrow, hcell⟩ := List.mem_flatten.mp hpart
      exact hcells row hrow part hcell
  | group _ ih =>
      refine ⟨(Node.Bounded.group ih).mono (Nat.le_refl _) ?_, rfl⟩
      rw [Nat.mul_succ]
      simp only [levelHeight]
      omega
  | noScript =>
      intro length _ hbase _
      exact hbase
  | @script depth count side base attached node _ _ _ _ _ _ ihattached ihscripts =>
      -- The script is the base of the scripts after it, and longer by one than its own base.
      intro length hlength hbase hchain
      have hparts : ∀ part ∈ (Node.script side base attached).parts, part.Bounded depth length := by
        simpa [Node.parts] using ⟨hbase, ihattached.1.mono (Nat.le_refl _) hlength⟩
      have hscript : (Node.script side base attached).scriptChain = base.scriptChain + 1 := rfl
      have hnode := Node.Bounded.of_parts rfl (by omega) hparts
      have hall := ihscripts (length + 1) (by omega) hnode (by omega)
      rwa [Nat.add_right_comm, Nat.add_assoc] at hall
  | noItem => exact fun node hnode => absurd hnode List.not_mem_nil
  | item _ hcount _ _ ihbase ihscripts ihnodes =>
      refine List.forall_mem_cons.mpr ⟨?_, ihnodes⟩
      have hnode := ihscripts _ (Nat.le_refl _) ihbase.1 (by rw [ihbase.2]; omega)
      exact hnode.mono (Nat.le_refl _) (by omega)
  | sequence _ ih => exact ih
  | @sequenceOfScripts depth _ _ _ _ _ _ _ hcount _ _ ihscripts ihnodes =>
      refine List.forall_mem_cons.mpr ⟨?_, ihnodes⟩
      have hempty : (Node.sequence false []).Bounded depth (levelHeight * depth + 1) :=
        .plainSequence fun node hnode => absurd hnode List.not_mem_nil
      have hnode := ihscripts _ (Nat.le_refl _) hempty (by simpa [Node.scriptChain] using hcount)
      exact hnode.mono (Nat.le_refl _) (by omega)
  | lastCell _ ih => simpa [Phrase.Bounded] using hcell ih
  | nextCell _ _ ihcell ihrows =>
      simp only [Phrase.Bounded, List.forall_mem_cons] at ihrows ⊢
      exact ⟨⟨hcell ihcell, ihrows.1⟩, ihrows.2⟩
  | nextRow _ _ ihcell ihrows =>
      simp only [Phrase.Bounded, List.forall_mem_cons] at ihrows ⊢
      exact ⟨⟨hcell ihcell, by simp⟩, ihrows⟩

/-- The root adds the scripts of one base to the levels. -/
theorem bounded_of_parseFormula {chemistry : Bool} {formula : String} {tree : Node}
    (hparse : parseFormula chemistry formula = .ok tree) :
    tree.Bounded nestingLimit ((nestingLimit + 1) * levelHeight) := by
  obtain ⟨nodes, rfl, hderives⟩ := readTokens_eq_ok_iff.mp hparse
  exact .plainSequence hderives.bounded

end FormulaMarkup
