import FormulaMarkup.CanonicalText
import FormulaMarkup.Proofs.CommandTables
import FormulaMarkup.TextArguments

/-!
# Trees that have a layout

Three things are asked of a tree that is to be laid out.  The control sequences
that stand for themselves are known, the names of operators are made of
letters, and delimiters can be drawn.  They are stated here for every tree, by
the nodes that the tree contains; whether a node has a layout then follows from
its parts.
-/

namespace FormulaMarkup

namespace Node

/-- The nodes directly below a node. -/
def parts : Node → List Node
  | .literal _ => []
  | .sequence _ items => items
  | .script _ base attached => [base, attached]
  | .unary _ _ argument => [argument]
  | .binary _ first second => [first, second]
  | .table _ rows => rows.flatten

/-- The second node is found in the first one, below nodes that are open only. -/
inductive Contains (isOpen : Node → Prop) : Node → Node → Prop
  | self (node : Node) : Contains isOpen node node
  | inPart {node part found : Node} (hopen : isOpen node) (hpart : part ∈ node.parts)
      (hfound : Contains isOpen part found) : Contains isOpen node found

/-- The second node is found anywhere in the first one. -/
abbrev ContainsAnywhere : Node → Node → Prop := Contains fun _ => True

/-- Text boxes, names of operators and delimiters, whose arguments are not laid
out as formulas. -/
def IsTextual : Node → Prop
  | .unary _ name _ =>
      shape? name = some .rawText ∨ name ∈ operatorNameCommands ∨ name ∈ delimiterCommands
  | _ => False

theorem not_isTextual {style : ArgumentStyle} {name : String} {argument : Node}
    {shape : ArgumentShape} (hshape : shape? name = some shape) (htext : shape ≠ .rawText)
    (hdelimiter : shape ≠ .delimiter) (hoperator : name ∉ operatorNameCommands) :
    ¬ (unary style name argument).IsTextual := by
  rintro (hraw | hname | hname)
  · rw [hshape] at hraw
    exact htext (Option.some.inj hraw)
  · exact hoperator hname
  · exact not_mem_delimiterCommands hshape hdelimiter hname

/-- A group, or a literal that is no control sequence. -/
def IsLettering : Node → Prop
  | .literal value => LiteralClass.of value ≠ .command
  | .sequence _ _ => True
  | _ => False

/-- The argument has a text of letters, digits and symbols. -/
structure NamesOperator (argument : Node) : Prop where
  lettering : ∀ found, argument.ContainsAnywhere found → found.IsLettering
  text : argument.text .verbatim ≠ ""

/-- The delimiter is a symbol, or a control sequence that stands for a character. -/
inductive Delimits : Node → Prop
  | symbol {value : String} (hclass : LiteralClass.of value = .symbol) : Delimits (.literal value)
  | command {value : String} {entry : Entry} {c : Char}
      (hclass : LiteralClass.of value = .command)
      (hentry : Registry.builtin.get? value = some entry) (hcodepoint : entry.codepoint = some c) :
      Delimits (.literal value)

/-- What is asked of a tree that is to be laid out. -/
structure HasLayout (tree : Node) : Prop where
  commands : ∀ value, tree.Contains (fun node => ¬ node.IsTextual) (.literal value) →
    LiteralClass.of value = .command → Registry.builtin.get? value ≠ none
  operatorNames : ∀ style name argument, tree.ContainsAnywhere (.unary style name argument) →
    name ∈ operatorNameCommands → argument.NamesOperator
  delimiters : ∀ style name argument, tree.ContainsAnywhere (.unary style name argument) →
    name ∈ delimiterCommands → argument.Delimits

/-! ## Layouts of parts -/

theorem hasLayout_iff_parts (node : Node) (hliteral : ∀ value, node ≠ .literal value)
    (htextual : ¬ node.IsTextual) :
    node.HasLayout ↔ ∀ part ∈ node.parts, part.HasLayout := by
  constructor
  · intro hnode part hpart
    constructor
    · intro value hfound
      exact hnode.commands value (.inPart htextual hpart hfound)
    · intro style name argument hfound
      exact hnode.operatorNames style name argument (.inPart trivial hpart hfound)
    · intro style name argument hfound
      exact hnode.delimiters style name argument (.inPart trivial hpart hfound)
  · intro hparts
    constructor
    · intro value hfound
      cases hfound with
      | self => exact absurd rfl (hliteral value)
      | inPart _ hpart hfound => exact (hparts _ hpart).commands value hfound
    · intro style name argument hfound hname
      cases hfound with
      | self => exact absurd (.inr (.inl hname)) htextual
      | inPart _ hpart hfound => exact (hparts _ hpart).operatorNames style name argument hfound hname
    · intro style name argument hfound hname
      cases hfound with
      | self => exact absurd (.inr (.inr hname)) htextual
      | inPart _ hpart hfound => exact (hparts _ hpart).delimiters style name argument hfound hname

theorem hasLayout_literal_iff {value : String} :
    (literal value).HasLayout ↔
      (LiteralClass.of value = .command → Registry.builtin.get? value ≠ none) := by
  constructor
  · intro hnode
    exact hnode.commands value (.self _)
  · intro hknown
    constructor
    · intro other hfound
      cases hfound with
      | self => exact hknown
      | inPart _ hpart _ => cases hpart
    · intro style name argument hfound
      cases hfound with
      | inPart _ hpart _ => cases hpart
    · intro style name argument hfound
      cases hfound with
      | inPart _ hpart _ => cases hpart

theorem hasLayout_sequence_iff {curly : Bool} {items : List Node} :
    (sequence curly items).HasLayout ↔ ∀ item ∈ items, item.HasLayout :=
  hasLayout_iff_parts _ nofun id

theorem hasLayout_script_iff {side : Side} {base attached : Node} :
    (script side base attached).HasLayout ↔ base.HasLayout ∧ attached.HasLayout := by
  have hparts := hasLayout_iff_parts (script side base attached) nofun id
  simpa [parts] using hparts

theorem hasLayout_unary_iff {style : ArgumentStyle} {name : String} {argument : Node}
    (htextual : ¬ (unary style name argument).IsTextual) :
    (unary style name argument).HasLayout ↔ argument.HasLayout := by
  have hparts := hasLayout_iff_parts (unary style name argument) nofun htextual
  simpa [parts] using hparts

theorem hasLayout_binary_iff {name : String} {first second : Node} :
    (binary name first second).HasLayout ↔ first.HasLayout ∧ second.HasLayout := by
  have hparts := hasLayout_iff_parts (binary name first second) nofun id
  simpa [parts] using hparts

theorem hasLayout_table_iff {environment : Environment} {rows : List (List Node)} :
    (table environment rows).HasLayout ↔ ∀ row ∈ rows, ∀ cell ∈ row, cell.HasLayout := by
  have hparts := hasLayout_iff_parts (table environment rows) nofun id
  rw [hparts, parts]
  exact List.forall_mem_flatten

/-- Below a textual node there are no commands to be known, so all is said by
what its name asks of its argument. -/
theorem hasLayout_of_isTextual {style : ArgumentStyle} {name : String} {argument : Node}
    (htextual : (unary style name argument).IsTextual)
    (hargument : ∀ found, argument.ContainsAnywhere found →
      ∀ style name other, found ≠ .unary style name other)
    (hoperator : name ∈ operatorNameCommands → argument.NamesOperator)
    (hdelimiter : name ∈ delimiterCommands → argument.Delimits) :
    (unary style name argument).HasLayout := by
  constructor
  · intro value hfound
    cases hfound with
    | inPart hopen _ _ => exact absurd htextual hopen
  · intro otherStyle otherName other hfound
    cases hfound with
    | self => exact hoperator
    | inPart _ hpart hfound =>
        obtain rfl := List.mem_singleton.mp hpart
        exact absurd rfl (hargument _ hfound _ _ _)
  · intro otherStyle otherName other hfound
    cases hfound with
    | self => exact hdelimiter
    | inPart _ hpart hfound =>
        obtain rfl := List.mem_singleton.mp hpart
        exact absurd rfl (hargument _ hfound _ _ _)

theorem hasLayout_operatorName_iff {style : ArgumentStyle} {name : String} {argument : Node}
    (hname : name ∈ operatorNameCommands) :
    (unary style name argument).HasLayout ↔ argument.NamesOperator := by
  constructor
  · intro hnode
    exact hnode.operatorNames style name argument (.self _) hname
  · intro hargument
    refine hasLayout_of_isTextual (.inr (.inl hname)) ?_ (fun _ => hargument) ?_
    · rintro found hfound otherStyle otherName other rfl
      exact hargument.lettering _ hfound
    · intro hdelimiter
      have hshape := shape?_of_mem_operatorNameCommands hname
      exact absurd hdelimiter (not_mem_delimiterCommands hshape nofun)

theorem eq_of_contains_literal {isOpen : Node → Prop} {value : String} {found : Node}
    (hfound : (literal value).Contains isOpen found) : found = .literal value := by
  cases hfound with
  | self => rfl
  | inPart _ hpart _ => cases hpart

theorem hasLayout_delimiter_iff {style : ArgumentStyle} {name value : String}
    (hname : name ∈ delimiterCommands) :
    (unary style name (.literal value)).HasLayout ↔ (literal value).Delimits := by
  constructor
  · intro hnode
    exact hnode.delimiters style name _ (.self _) hname
  · intro hargument
    refine hasLayout_of_isTextual (.inr (.inr hname)) ?_ ?_ (fun _ => hargument)
    · intro found hfound
      rw [eq_of_contains_literal hfound]
      exact nofun
    · intro hoperator
      have hshape := shape?_of_mem_delimiterCommands hname
      exact absurd hoperator (not_mem_operatorNameCommands hshape nofun)

/-! ## Texts of trees of literals -/

theorem forall_contains_literal_iff {value : String} :
    (∀ found, (literal value).ContainsAnywhere found → found.IsLettering) ↔
      LiteralClass.of value ≠ .command := by
  constructor
  · intro hletters
    exact hletters _ (.self _)
  · intro hclass found hfound
    rw [eq_of_contains_literal hfound]
    exact hclass

theorem forall_contains_sequence_iff {curly : Bool} {items : List Node} :
    (∀ found, (sequence curly items).ContainsAnywhere found → found.IsLettering) ↔
      ∀ item ∈ items, ∀ found, item.ContainsAnywhere found → found.IsLettering := by
  constructor
  · intro hletters item hitem found hfound
    exact hletters found (.inPart trivial hitem hfound)
  · intro hitems found hfound
    cases hfound with
    | self => trivial
    | inPart _ hpart hfound => exact hitems _ hpart found hfound

end Node

mutual

/-- The text of a tree of literals is the text that it is written with. -/
theorem Node.plainText?_eq_some_iff (node : Node) (text : String) :
    node.plainText? false = some text ↔
      (∀ found, node.ContainsAnywhere found → found.IsLettering) ∧ node.text .verbatim = text := by
  have hother (hlettering : ¬ node.IsLettering) :
      ¬ ((∀ found, node.ContainsAnywhere found → found.IsLettering) ∧
        node.text .verbatim = text) :=
    fun hletters => hlettering (hletters.1 _ (.self _))
  match node with
  | .literal value =>
      rw [Node.forall_contains_literal_iff]
      simp [Node.plainText?, Node.text, literalText]
  | .sequence curly items =>
      rw [Node.forall_contains_sequence_iff, Node.plainText?, plainTexts?_eq_some_iff items text]
      simp [Node.text]
  | .script .. | .unary .. | .binary .. | .table .. =>
      simp only [Node.plainText?, reduceCtorEq, false_iff]
      exact hother id

theorem plainTexts?_eq_some_iff (nodes : List Node) (text : String) :
    plainTexts? false nodes = some text ↔
      (∀ node ∈ nodes, ∀ found, node.ContainsAnywhere found → found.IsLettering) ∧
        String.join (nodeTexts nodes .verbatim) = text := by
  match nodes with
  | [] => simp [plainTexts?, nodeTexts]
  | node :: rest =>
      have hnode := node.plainText?_eq_some_iff
      have hrest := plainTexts?_eq_some_iff rest
      rw [plainTexts?, nodeTexts, String.join_cons, List.forall_mem_cons]
      constructor
      · intro htexts
        split at htexts
        · next first others hfirst hothers =>
            cases htexts
            obtain ⟨hletters, rfl⟩ := (hnode _).mp hfirst
            obtain ⟨hrestLetters, rfl⟩ := (hrest _).mp hothers
            exact ⟨⟨hletters, hrestLetters⟩, rfl⟩
        · cases htexts
      · rintro ⟨⟨hletters, hrestLetters⟩, rfl⟩
        rw [(hnode _).mpr ⟨hletters, rfl⟩, (hrest _).mpr ⟨hrestLetters, rfl⟩]

end

end FormulaMarkup
