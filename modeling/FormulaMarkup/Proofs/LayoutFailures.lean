import FormulaMarkup.Proofs.BracedLayouts
import FormulaMarkup.Proofs.LayoutConditions
import FormulaMarkup.Proofs.LayoutStructure
import FormulaMarkup.Proofs.ReadTrees

/-!
# Formulas that have a layout

A formula that was read can be laid out with the commands that are known from
the start, unless it has an unknown control sequence, the name of an operator
that is no name, or a delimiter that cannot be drawn.  The reason that is given
is one of these, and no context makes a difference.

Nothing else can fail, since the tables of commands agree: reading brings every
handler the arguments that it takes.
-/

namespace FormulaMarkup

/-! ## Layouts that a condition decides -/

/-- The reasons for which the layout of a formula can fail. -/
inductive LayoutError.IsExpected : LayoutError → Prop
  | unknownCommand {name : String} (hname : Registry.builtin.get? name = none) :
      IsExpected (.unknownCommand name)
  | operatorName {name : String} (hname : name ∈ operatorNameCommands) :
      IsExpected (.invalidArgument name)
  | delimiter {name : String} (hname : name ∈ delimiterCommands) :
      IsExpected (.invalidArgument name)

/-- There is a layout if the condition holds, and an expected error if not. -/
inductive Decided (condition : Prop) : Layout → Prop
  | success (hcondition : condition) (elements : List Element) : Decided condition (.ok elements)
  | failure (hcondition : ¬ condition) {error : LayoutError} (herror : error.IsExpected) :
      Decided condition (.error error)

namespace Decided

variable {condition other : Prop} {layout : Layout}

theorem congr (hlayout : Decided condition layout) (hiff : condition ↔ other) :
    Decided other layout :=
  propext hiff ▸ hlayout

theorem exists_iff (hlayout : Decided condition layout) :
    (∃ elements, layout = .ok elements) ↔ condition := by
  cases hlayout with
  | success hcondition elements => exact ⟨fun _ => hcondition, fun _ => ⟨elements, rfl⟩⟩
  | failure hcondition herror => exact ⟨nofun, fun htrue => absurd htrue hcondition⟩

theorem isExpected (hlayout : Decided condition layout) {error : LayoutError}
    (herror : layout = .error error) : error.IsExpected := by
  cases hlayout with
  | success => cases herror
  | failure _ hexpected =>
      cases herror
      exact hexpected

/-- What is made of a layout and a further one. -/
theorem bind {next : List Element → Layout} :
    Decided condition layout → (∀ elements, Decided other (next elements)) →
    Decided (condition ∧ other)
      (match layout with
        | .error error => .error error
        | .ok elements => next elements) := by
  intro hlayout hnext
  cases hlayout with
  | success hcondition elements => exact (hnext elements).congr (by simp [hcondition])
  | failure hcondition herror => exact .failure (fun hboth => hcondition hboth.1) herror

/-- What is made of the elements of a layout. -/
theorem map {f : List Element → List Element} :
    Decided condition layout →
    Decided condition
      (match layout with
        | .error error => .error error
        | .ok elements => .ok (f elements)) := by
  intro hlayout
  cases hlayout with
  | success hcondition elements => exact .success hcondition _
  | failure hcondition herror => exact .failure hcondition herror

theorem layoutAll {α : Type} {conditions : α → Prop} {layouts : α → Layout} {members : List α}
    (hmembers : ∀ member ∈ members, Decided (conditions member) (layouts member)) :
    Decided (∀ member ∈ members, conditions member) (layoutAll layouts members) := by
  induction members with
  | nil => exact .success (by simp) _
  | cons member rest ih =>
      rw [List.forall_mem_cons] at hmembers
      rw [List.forall_mem_cons]
      exact hmembers.1.bind fun elements => (ih hmembers.2).map

end Decided

/-- The operand is laid out if the condition holds, in any context. -/
structure Operand.IsDecided (condition : Prop) (operand : Operand) : Prop where
  layout : ∀ context, Decided condition (operand.layout context)
  single : ∀ context, Decided condition (operand.single context)

/-- The node is laid out if it has what is asked of it. -/
def Node.IsDecided (node : Node) : Prop :=
  (node.operand .builtin).IsDecided node.HasLayout

theorem Operand.isDecided_ofNode {condition : Prop} {node : Node} {layout : Layoutable}
    (hlayout : ∀ context, Decided condition (layout context)) :
    (Operand.ofNode node layout).IsDecided condition :=
  ⟨hlayout, hlayout⟩

/-! ## Handlers -/

section Handlers

variable {entry : Entry} {name : String} {first second : Prop} {argument other : Operand}

theorem Entry.StandsAlone.exists_layout (hentry : entry.StandsAlone) (name : String)
    (context : Context) :
    ∃ elements, entry.handler.layout .builtin entry name .none context = .ok elements := by
  cases hentry with
  | identifier | operator | functionName | space => exact ⟨_, rfl⟩

theorem Entry.TakesOne.decided (hentry : entry.TakesOne) (hargument : argument.IsDecided first)
    (context : Context) :
    Decided first (entry.handler.layout .builtin entry name (.one argument) context) := by
  cases hentry with
  | accent | mark | enclosure => exact (hargument.single _).map
  | boldSymbol | font => exact hargument.single _
  | root => exact (hargument.layout _).map

theorem Entry.TakesTwo.decided (hentry : entry.TakesTwo) (hargument : argument.IsDecided first)
    (hother : other.IsDecided second) (context : Context) :
    Decided (first ∧ second)
      (entry.handler.layout .builtin entry name (.two argument other) context) := by
  cases hentry with
  | stack =>
      rw [and_comm]
      exact (hother.single _).bind fun elements => (hargument.single _).map
  | fraction =>
      exact (hargument.single _).bind fun elements => (hother.single _).map

theorem decided_operatorNameLayout (argument : Operand) (hname : name ∈ operatorNameCommands)
    (context : Context) :
    Decided argument.node.NamesOperator (operatorNameLayout name argument context) := by
  have htext := argument.node.plainText?_eq_some_iff
  unfold operatorNameLayout
  cases hplain : argument.node.plainText? false with
  | none =>
      refine .failure ?_ (.operatorName hname)
      intro hargument
      rw [(htext _).mpr ⟨hargument.lettering, rfl⟩] at hplain
      cases hplain
  | some text =>
      obtain ⟨hletters, rfl⟩ := (htext _).mp hplain
      by_cases hempty : argument.node.text .verbatim = ""
      · simp only [String.isEmpty_iff, if_pos hempty]
        exact .failure (fun hargument => hargument.text hempty) (.operatorName hname)
      · simp only [String.isEmpty_iff, if_neg hempty]
        exact .success ⟨hletters, hempty⟩ _

theorem decided_delimiterLayout (argument : Operand) {value : String}
    (hname : name ∈ delimiterCommands) (hargument : argument.node = .literal value)
    (hclass : LiteralClass.of value = .symbol ∨ LiteralClass.of value = .command)
    (context : Context) :
    Decided argument.node.Delimits (delimiterLayout .builtin name argument context) := by
  rw [hargument]
  simp only [delimiterLayout, hargument, Node.literal?]
  rcases hclass with hsymbol | hcommand
  · have hdelimits : (Node.literal value).Delimits := .symbol hsymbol
    by_cases hpoint : value = "."
    · simp only [delimiterText, hsymbol, if_pos hpoint]
      exact .success hdelimits _
    · simp only [delimiterText, hsymbol, if_neg hpoint]
      exact .success hdelimits _
  · simp only [delimiterText, hcommand]
    cases hentry : Registry.builtin.get? value with
    | none =>
        refine .failure ?_ (.unknownCommand hentry)
        intro hdelimits
        cases hdelimits with
        | symbol hclass => simp [hcommand] at hclass
        | command _ hfound _ => simp [hentry] at hfound
    | some entry =>
        cases hcodepoint : entry.codepoint with
        | none =>
            simp only [hcodepoint]
            refine .failure ?_ (.delimiter hname)
            intro hdelimits
            cases hdelimits with
            | symbol hclass => simp [hcommand] at hclass
            | command _ hfound hdrawn => simp_all
        | some c =>
            simp only [hcodepoint]
            exact .success (.command hcommand hentry hcodepoint) _

end Handlers

/-! ## Chemical notation -/

/-- A piece that is a literal, but no control sequence. -/
def Piece.IsCharacter (piece : Piece) : Prop :=
  ∃ value, piece.node = .literal value ∧ LiteralClass.of value ≠ .command

theorem Piece.isCharacter_of_literal? {piece : Piece} {value : String}
    (hliteral : piece.literal? = some value) (hclass : LiteralClass.of value ≠ .command) :
    piece.IsCharacter := by
  obtain ⟨node, layout⟩ := piece
  cases node with
  | literal other =>
      cases hliteral
      exact ⟨value, rfl, hclass⟩
  | _ => cases hliteral

theorem LiteralClass.ofChar_ne_command (c : Char) : LiteralClass.ofChar c ≠ .command := by
  unfold LiteralClass.ofChar
  repeat' split
  all_goals exact nofun

/-- A control sequence is no single letter. -/
theorem not_isLetter_of_command {text : String} (hcommand : LiteralClass.of text = .command) :
    isCapital text = false ∧ isSmallLetter text = false := by
  unfold LiteralClass.of at hcommand
  cases hchars : text.toList with
  | nil => simp [hchars, LiteralClass.ofCharacters] at hcommand
  | cons c rest =>
      cases rest with
      | nil =>
          rw [hchars] at hcommand
          exact absurd hcommand (LiteralClass.ofChar_ne_command c)
      | cons next rest => simp [isCapital, isSmallLetter, hchars]

theorem isCharacter_or_mem_of_dropLiterals
    {literals : List String} {pieces rest : List Piece} {piece : Piece}
    (hliterals : ∀ value ∈ literals, LiteralClass.of value ≠ .command)
    (hdrop : dropLiterals literals pieces = some rest) (hmem : piece ∈ pieces) :
    piece.IsCharacter ∨ piece ∈ rest := by
  induction literals generalizing pieces with
  | nil =>
      cases hdrop
      exact .inr hmem
  | cons literal literals ih =>
      rw [List.forall_mem_cons] at hliterals
      cases pieces with
      | nil => cases hdrop
      | cons first others =>
          simp only [dropLiterals] at hdrop
          split at hdrop
          · next hfirst =>
              rcases List.mem_cons.mp hmem with rfl | hlater
              · exact .inl (Piece.isCharacter_of_literal? hfirst hliterals.1)
              · exact ih hliterals.2 hdrop hlater
          · cases hdrop

theorem isCharacter_or_mem_of_splitArrow
    {pieces rest : List Piece} {symbol : String} {piece : Piece}
    (hsplit : splitArrow pieces = some (symbol, rest)) (hmem : piece ∈ pieces) :
    piece.IsCharacter ∨ piece ∈ rest := by
  have harrows : ∀ arrow ∈ reactionArrows, ∀ value ∈ arrow.1,
      LiteralClass.of value ≠ .command := by
    decide +kernel
  obtain ⟨⟨literals, arrow⟩, hlisted, harrow⟩ := List.exists_of_findSome?_eq_some hsplit
  obtain ⟨after, hdrop, hafter⟩ := Option.map_eq_some_iff.mp harrow
  cases hafter
  exact isCharacter_or_mem_of_dropLiterals (harrows _ hlisted) hdrop hmem

theorem isCharacter_or_mem_splitSmallLetters
    {pieces : List Piece} {piece : Piece} (hmem : piece ∈ pieces) :
    piece.IsCharacter ∨ piece ∈ (splitSmallLetters pieces).2 := by
  induction pieces with
  | nil => cases hmem
  | cons first others ih =>
      simp only [splitSmallLetters]
      split
      · next text hliteral =>
          split
          · next hsmall =>
              rcases List.mem_cons.mp hmem with rfl | hlater
              · refine .inl (Piece.isCharacter_of_literal? hliteral fun hcommand => ?_)
                simp [not_isLetter_of_command hcommand] at hsmall
              · exact ih hlater
          · exact .inr hmem
      · exact .inr hmem

theorem isCharacter_or_mem_splitCount
    {pieces : List Piece} {piece : Piece} (hmem : piece ∈ pieces) :
    piece.IsCharacter ∨ piece ∈ (splitCount pieces).2 := by
  cases pieces with
  | nil => cases hmem
  | cons first others =>
      simp only [splitCount]
      split
      · next text hliteral =>
          split
          · next hdigit =>
              rcases List.mem_cons.mp hmem with rfl | hlater
              · exact .inl (Piece.isCharacter_of_literal? hliteral (by simp [hdigit]))
              · exact .inr hlater
          · exact .inr hmem
      · exact .inr hmem

/-- A segment takes characters only, unless it is a piece of its own. -/
theorem mem_splitSegment {first piece : Piece} {rest : List Piece} (hmem : piece ∈ first :: rest) :
    (splitSegment first rest).1 = .other piece ∨ piece.IsCharacter ∨
      piece ∈ (splitSegment first rest).2 := by
  unfold splitSegment
  split
  · next harrow => exact .inr (isCharacter_or_mem_of_splitArrow harrow hmem)
  · split
    · next text hliteral =>
        split
        · next hcapital =>
            right
            rcases List.mem_cons.mp hmem with rfl | hlater
            · refine .inl (Piece.isCharacter_of_literal? hliteral fun hcommand => ?_)
              simp [not_isLetter_of_command hcommand] at hcapital
            · rcases isCharacter_or_mem_splitSmallLetters hlater with hcharacter | hafter
              · exact .inl hcharacter
              · exact isCharacter_or_mem_splitCount hafter
        · rcases List.mem_cons.mp hmem with rfl | hlater
          · exact .inl rfl
          · exact .inr (.inr hlater)
    · rcases List.mem_cons.mp hmem with rfl | hlater
      · exact .inl rfl
      · exact .inr (.inr hlater)

theorem mem_chemicalSegments {pieces : List Piece} {piece : Piece} (hmem : piece ∈ pieces) :
    .other piece ∈ chemicalSegments pieces ∨ piece.IsCharacter := by
  fun_induction chemicalSegments pieces with
  | case1 => cases hmem
  | case2 first rest ih =>
      rcases mem_splitSegment hmem with hother | hcharacter | hafter
      · exact .inl (hother ▸ List.mem_cons_self)
      · exact .inr hcharacter
      · rcases ih hafter with hlater | hcharacter
        · exact .inl (List.mem_cons_of_mem _ hlater)
        · exact .inr hcharacter

/-- The node of a segment that is a piece of its own has the property. -/
def ChemicalSegment.Satisfies (property : Node → Prop) : ChemicalSegment → Prop
  | .other piece => property piece.node
  | _ => True

theorem forall_chemicalSegments_iff {property : Node → Prop}
    (hcharacter : ∀ value, LiteralClass.of value ≠ .command → property (.literal value))
    {pieces : List Piece} :
    (∀ segment ∈ chemicalSegments pieces, segment.Satisfies property) ↔
      ∀ piece ∈ pieces, property piece.node := by
  constructor
  · intro hsegments piece hpiece
    rcases mem_chemicalSegments hpiece with hother | ⟨value, hnode, hclass⟩
    · exact hsegments _ hother
    · rw [hnode]
      exact hcharacter value hclass
  · intro hpieces segment hsegment
    cases segment with
    | arrow | atom => trivial
    | other piece => exact hpieces piece (mem_of_chemicalSegments hsegment)

theorem decided_chemicalLayout (pieces : List Piece)
    (hpieces : ∀ piece ∈ pieces, ∀ context, Decided piece.node.HasLayout (piece.layout context))
    (context : Context) :
    Decided (∀ piece ∈ pieces, piece.node.HasLayout) (chemicalLayout pieces context) := by
  have hcharacter (value : String) (hclass : LiteralClass.of value ≠ .command) :
      (Node.literal value).HasLayout := by
    rw [Node.hasLayout_literal_iff]
    exact fun hcommand => absurd hcommand hclass
  rw [← forall_chemicalSegments_iff hcharacter]
  refine Decided.map (Decided.layoutAll ?_)
  intro segment hsegment
  cases segment with
  | arrow symbol => exact .success trivial _
  | atom symbol count => cases count <;> exact .success trivial _
  | other piece => exact hpieces piece (mem_of_chemicalSegments hsegment) _

/-! ## Nodes -/

theorem nodeOperands_eq_map (registry : Registry) (nodes : List Node) :
    nodeOperands registry nodes = nodes.map (Node.operand registry) := by
  induction nodes with
  | nil => rfl
  | cons node rest ih => rw [nodeOperands, ih, List.map_cons]

theorem rowLayoutables_eq_map (registry : Registry) (rows : List (List Node)) :
    rowLayoutables registry rows = rows.map fun row => row.map (Node.layout registry) := by
  induction rows with
  | nil => rfl
  | cons row rest ih =>
      rw [rowLayoutables, ih, nodeOperands_eq_map, List.map_map]
      rfl

theorem Node.pieces_sequence (registry : Registry) (curly : Bool) (nodes : List Node) :
    ((Node.sequence curly nodes).operand registry).pieces =
      nodes.map fun node => ⟨node, (node.operand registry).layout⟩ := by
  simp [Node.operand, nodeOperands_eq_map, Operand.ofItems, Node.operand_node, Function.comp_def]

theorem Operand.IsDecided.asItem {condition : Prop} {operand : Operand}
    (hoperand : operand.IsDecided condition) (context : Context) :
    Decided condition (operand.asItem context) := by
  unfold Operand.asItem
  split
  · exact hoperand.single context
  · exact hoperand.layout context

namespace Node.IsDecided

theorem literal {value : String} (hshape : LiteralClass.of value = .command → shape? value = none) :
    (Node.literal value).IsDecided := by
  apply Operand.isDecided_ofNode
  intro context
  rw [Node.hasLayout_literal_iff]
  unfold literalLayout
  cases hclass : LiteralClass.of value with
  | letter | digit => exact .success nofun _
  | symbol =>
      simp only [symbolLayout]
      repeat' split
      all_goals exact .success nofun _
  | command =>
      cases hentry : Registry.builtin.get? value with
      | none =>
          simp only [commandLayout, hentry]
          exact .failure (fun hknown => hknown trivial rfl) (.unknownCommand hentry)
      | some entry =>
          have hserves := serves_of_get? hentry
          rw [hshape hclass] at hserves
          cases hserves with
          | alone halone =>
              obtain ⟨elements, hlayout⟩ := halone.exists_layout value context
              simp only [commandLayout, hentry, hlayout]
              exact .success nofun elements

theorem sequence {curly : Bool} {items : List Node} (hitems : ∀ item ∈ items, item.IsDecided) :
    (Node.sequence curly items).IsDecided := by
  have hlayout (context : Context) : Decided (∀ item ∈ items, item.HasLayout)
      (itemsLayout (items.map (Node.operand .builtin)) context) := by
    cases items with
    | nil => exact .success (by simp) _
    | cons first rest =>
        rw [List.map_cons, itemsLayout, ← List.map_cons, layoutAll_map]
        · exact .layoutAll fun item hitem => (hitems item hitem).asItem context
        · simp
  unfold Node.IsDecided
  rw [Node.hasLayout_sequence_iff, Node.operand, nodeOperands_eq_map]
  refine ⟨hlayout, ?_⟩
  intro context
  cases items with
  | nil => exact .success (by simp) _
  | cons first rest =>
      cases rest with
      | nil =>
          rw [List.forall_mem_singleton]
          exact (hitems first List.mem_cons_self).single context
      | cons second rest => exact (hlayout context).map

theorem attached {attached : Node} (hattached : attached.IsDecided) (context : Context) :
    Decided attached.HasLayout (attachedLayout (attached.operand .builtin) context) := by
  unfold attachedLayout
  rw [Node.operand_node]
  by_cases hempty : attached.isEmptySequence = true
  · rw [if_pos hempty]
    refine .success ?_ _
    unfold Node.isEmptySequence at hempty
    split at hempty
    · exact Node.hasLayout_sequence_iff.mpr (by simp)
    · cases hempty
  · rw [if_neg hempty]
    exact (hattached.layout _).map

theorem script {side : Side} {base attached : Node} (hbase : base.IsDecided)
    (hattached : attached.IsDecided) : (Node.script side base attached).IsDecided := by
  apply Operand.isDecided_ofNode
  intro context
  rw [Node.hasLayout_script_iff]
  exact (hbase.single context).bind fun elements => (hattached.attached context).map

theorem unary {style : ArgumentStyle} {name : String} {argument : Node} {entry : Entry}
    (hentry : Registry.builtin.get? name = some entry) (htakes : entry.TakesOne)
    (htextual : ¬ (Node.unary style name argument).IsTextual) (hargument : argument.IsDecided) :
    (Node.unary style name argument).IsDecided := by
  apply Operand.isDecided_ofNode
  intro context
  rw [Node.hasLayout_unary_iff htextual]
  simp only [commandLayout, hentry]
  exact htakes.decided hargument context

theorem binary {name : String} {first second : Node} {entry : Entry}
    (hentry : Registry.builtin.get? name = some entry) (htakes : entry.TakesTwo)
    (hfirst : first.IsDecided) (hsecond : second.IsDecided) :
    (Node.binary name first second).IsDecided := by
  apply Operand.isDecided_ofNode
  intro context
  rw [Node.hasLayout_binary_iff]
  simp only [commandLayout, hentry]
  exact htakes.decided hfirst hsecond context

theorem operatorName {style : ArgumentStyle} {name : String} {argument : Node}
    {codepoint : Option Char} {family : Family} (hname : name ∈ operatorNameCommands)
    (hentry : Registry.builtin.get? name = some ⟨.operatorName, codepoint, family⟩) :
    (Node.unary style name argument).IsDecided := by
  apply Operand.isDecided_ofNode
  intro context
  rw [Node.hasLayout_operatorName_iff hname]
  simp only [commandLayout, hentry]
  have hlayout := decided_operatorNameLayout (argument.operand .builtin) hname context
  rwa [Node.operand_node] at hlayout

theorem chemistry {style : ArgumentStyle} {name : String} {curly : Bool} {nodes : List Node}
    (hshape : shape? name = some .chemistry) (hnodes : ∀ node ∈ nodes, node.IsDecided)
    (htextual : ¬ (Node.unary style name (.sequence curly nodes)).IsTextual) :
    (Node.unary style name (.sequence curly nodes)).IsDecided := by
  apply Operand.isDecided_ofNode
  intro context
  have hpieces := Node.pieces_sequence .builtin curly nodes
  have hchemistry := decided_chemicalLayout ((Node.sequence curly nodes).operand .builtin).pieces
    (by simpa [hpieces] using fun node hnode => (hnodes node hnode).layout) context
  rw [Node.hasLayout_unary_iff htextual, Node.hasLayout_sequence_iff]
  obtain ⟨entry, hentry, hserves⟩ := exists_entry_of_shape? hshape
  cases hserves with
  | chemistry =>
      simp only [commandLayout, hentry]
      exact hchemistry.congr (by simp [hpieces])

theorem textBox {style : ArgumentStyle} {name content : String}
    (hshape : shape? name = some .rawText) :
    (Node.unary style name (boxedText content)).IsDecided := by
  apply Operand.isDecided_ofNode
  intro context
  have hcondition : (Node.unary style name (boxedText content)).HasLayout := by
    refine Node.hasLayout_of_isTextual (.inl hshape) ?_ ?_ ?_
    · intro found hfound
      cases hfound with
      | self => exact nofun
      | inPart _ hpart hfound =>
          have hliteral := List.mem_ite_nil_left.mp hpart
          rw [List.mem_singleton.mp hliteral.2] at hfound
          rw [Node.eq_of_contains_literal hfound]
          exact nofun
    · intro hname
      exact absurd hname (not_mem_operatorNameCommands hshape nofun)
    · intro hname
      exact absurd hname (not_mem_delimiterCommands hshape nofun)
  obtain ⟨entry, hentry, hserves⟩ := exists_entry_of_shape? hshape
  cases hserves with
  | text =>
      simp only [commandLayout, hentry, Handler.layout, textLayout, Node.operand_node,
        plainText?_boxedText]
      exact .success hcondition _

theorem delimiter {style : ArgumentStyle} {name value : String}
    (hshape : shape? name = some .delimiter)
    (hclass : LiteralClass.of value = .symbol ∨ LiteralClass.of value = .command) :
    (Node.unary style name (.literal value)).IsDecided := by
  apply Operand.isDecided_ofNode
  intro context
  obtain ⟨entry, hentry, hserves⟩ := exists_entry_of_shape? hshape
  cases hserves with
  | delimiter hname =>
      rw [Node.hasLayout_delimiter_iff hname]
      simp only [commandLayout, hentry]
      exact decided_delimiterLayout ((Node.literal value).operand .builtin) hname rfl hclass context

theorem table {environment : Environment} {rows : List (List Node)}
    (hcells : ∀ row ∈ rows, ∀ cell ∈ row, cell.IsDecided) :
    (Node.table environment rows).IsDecided := by
  apply Operand.isDecided_ofNode
  intro context
  rw [Node.hasLayout_table_iff, rowLayoutables_eq_map]
  have hrow (inner : Context) : ∀ row ∈ rows, Decided (∀ cell ∈ row, cell.HasLayout)
      (rowLayout inner (row.map (Node.layout .builtin))) := by
    intro row hmem
    refine Decided.map ?_
    rw [layoutAll_map]
    exact .layoutAll fun cell hcell => ((hcells row hmem cell hcell).layout inner).map
  have hrows (inner : Context) : Decided (∀ row ∈ rows, ∀ cell ∈ row, cell.HasLayout)
      (layoutAll (rowLayout inner) (rows.map fun row => row.map (Node.layout .builtin))) := by
    rw [layoutAll_map]
    exact .layoutAll (hrow inner)
  rw [← and_true (∀ row ∈ rows, ∀ cell ∈ row, cell.HasLayout)]
  refine (hrows _).bind fun elements => ?_
  split <;> exact .success trivial _

end Node.IsDecided

/-! ## Formulas -/

theorem IsCommand.literalClass {name : String} (hname : IsCommand name) :
    LiteralClass.of name = .command := by
  obtain ⟨word, rfl, hword⟩ := hname
  obtain ⟨c, rest, rfl, _⟩ := hword.head
  simp [LiteralClass.of, LiteralClass.ofCharacters]

theorem IsPlain.literalClass {c : Char} (hplain : IsPlain c) (rest : List Char) :
    LiteralClass.of (String.ofList (c :: rest)) = .ofChar c := by
  have hslash : c ≠ '\\' := by
    rintro rfl
    exact hplain.special (by simp)
  cases rest with
  | nil => simp [LiteralClass.of, LiteralClass.ofCharacters]
  | cons next rest => simp [LiteralClass.of, LiteralClass.ofCharacters, hslash]

theorem LiteralClass.of_toString (c : Char) : LiteralClass.of c.toString = .ofChar c := by
  simp [LiteralClass.of, LiteralClass.ofCharacters]

theorem LiteralClass.ofChar_eq_symbol {c : Char} (htoken : characterToken c = .symbol c) :
    LiteralClass.ofChar c = .symbol := by
  unfold characterToken at htoken
  by_cases hdigit : c.isDigit = true
  · simp only [hdigit, if_true] at htoken
    repeat' split at htoken
    all_goals cases htoken
  · by_cases hletter : isAlphabetic c = true
    · simp only [hletter, if_true] at htoken
      repeat' split at htoken
      all_goals cases htoken
    · rw [LiteralClass.ofChar, if_neg hdigit, if_neg hletter]

/-- What reading ensures about the layouts of a phrase. -/
def Phrase.IsDecided : Phrase → Prop
  | .primary node => node.IsDecided
  | .group node => ∃ nodes, node = .sequence true nodes ∧ ∀ member ∈ nodes, member.IsDecided
  | .scripts _ base node => base.IsDecided → node.IsDecided
  | .items nodes => ∀ node ∈ nodes, node.IsDecided
  | .sequence nodes => ∀ node ∈ nodes, node.IsDecided
  | .rows _ grid => ∀ row ∈ grid, ∀ cell ∈ row, cell.IsDecided

theorem Phrase.IsDecided.of_group {node : Node} (hgroup : (Phrase.group node).IsDecided) :
    node.IsDecided := by
  obtain ⟨nodes, rfl, hnodes⟩ := hgroup
  exact .sequence hnodes

theorem Formed.isDecided {chemistry : Bool} {phrase : Phrase}
    (hformed : Formed chemistry phrase) : phrase.IsDecided := by
  induction hformed with
  | @character c _ _ =>
      refine Node.IsDecided.literal fun hcommand => absurd hcommand ?_
      rw [LiteralClass.of_toString]
      exact LiteralClass.ofChar_ne_command c
  | @number c numerals hplain _ _ =>
      refine Node.IsDecided.literal fun hcommand => absurd hcommand ?_
      rw [hplain.literalClass numerals]
      exact LiteralClass.ofChar_ne_command c
  | command _ hshape => exact .literal fun _ => hshape
  | inBraces _ ih => exact ih.of_group
  | braced _ hshape _ ih =>
      obtain ⟨entry, hentry, hserves⟩ := exists_entry_of_shape? hshape
      cases hserves with
      | braced hname htakes =>
          exact .unary hentry htakes (Node.not_isTextual hshape nofun nofun hname) ih.of_group
      -- The name of an operator need not have a layout, so nothing is used about it.
      | operatorName hname => exact .operatorName hname hentry
  | chemical _ _ hshape _ ih =>
      obtain ⟨nodes, rfl, hnodes⟩ := ih
      have hname := not_mem_operatorNameCommands hshape nofun
      exact .chemistry hshape hnodes (Node.not_isTextual hshape nofun nofun hname)
  | bare _ hshape _ ih =>
      obtain ⟨entry, hentry, hserves⟩ := exists_entry_of_shape? hshape
      have hname := not_mem_operatorNameCommands hshape nofun
      cases hserves with
      | bare htakes => exact .unary hentry htakes (Node.not_isTextual hshape nofun nofun hname) ih
  | twoBraced _ hshape _ _ ihfirst ihsecond =>
      obtain ⟨entry, hentry, hserves⟩ := exists_entry_of_shape? hshape
      cases hserves with
      | twoBraced htakes => exact .binary hentry htakes ihfirst.of_group ihsecond.of_group
  | textBox _ hshape _ => exact .textBox hshape
  | @symbolDelimiter _ c _ hshape _ htoken =>
      refine Node.IsDecided.delimiter hshape (.inl ?_)
      rw [LiteralClass.of_toString, LiteralClass.ofChar_eq_symbol htoken]
  | commandDelimiter _ hshape hdelimiter _ =>
      exact .delimiter hshape (.inr hdelimiter.literalClass)
  | environment _ ih => exact .table ih
  | group _ ih => exact ⟨_, rfl, ih⟩
  | noScript => exact id
  -- Scripts are read from the inside, so what is known about the base is handed on.
  | script _ _ ihattached ihscripts => exact fun hbase => ihscripts (.script hbase ihattached)
  | noItem => exact fun node hnode => absurd hnode List.not_mem_nil
  | item _ _ _ _ ihbase ihscripts ihnodes =>
      exact List.forall_mem_cons.mpr ⟨ihscripts ihbase, ihnodes⟩
  | sequence _ ih => exact ih
  | sequenceOfScripts _ _ _ _ ihscripts ihnodes =>
      have hempty : (Node.sequence false []).IsDecided :=
        .sequence fun node hnode => absurd hnode List.not_mem_nil
      exact List.forall_mem_cons.mpr ⟨ihscripts hempty, ihnodes⟩
  | lastCell _ ih => simpa [Phrase.IsDecided] using Node.IsDecided.sequence ih
  | nextCell _ _ ihcell ihrows =>
      simp only [Phrase.IsDecided, List.forall_mem_cons] at ihrows ⊢
      exact ⟨⟨.sequence ihcell, ihrows.1⟩, ihrows.2⟩
  | nextRow _ _ ihcell ihrows =>
      simp only [Phrase.IsDecided, List.forall_mem_cons] at ihrows ⊢
      exact ⟨⟨.sequence ihcell, by simp⟩, ihrows⟩

/-- A formula that was read has a layout in every context exactly if its
control sequences are known, its operators have names and its delimiters can be
drawn, and if it has none, the error says which of these is missing. -/
theorem exists_layout_iff_hasLayout
    {chemistry : Bool} {formula : String} {tree : Node}
    (hparse : parseFormula chemistry formula = .ok tree) (context : Context) :
    ((∃ elements, tree.layout .builtin context = .ok elements) ↔ tree.HasLayout) ∧
      ∀ error, tree.layout .builtin context = .error error → error.IsExpected := by
  obtain ⟨nodes, rfl, hformed⟩ := formed_of_parseFormula hparse
  have htree : (Node.sequence false nodes).IsDecided := .sequence hformed.isDecided
  have hlayout := htree.layout context
  exact ⟨hlayout.exists_iff, fun error herror => hlayout.isExpected herror⟩

theorem exists_layout_iff_hasLayout_foo :
    (∃ tree,
      parseFormula true
        "\\left\\langle\\operatorname\x7bab\x7d\\text\x7b\\foo\x7d\\right." = .ok tree ∧
      tree.HasLayout) ∧
    ∃ tree, parseFormula true "\\ce\x7bH2\\foo\x7d" = .ok tree ∧ ¬ tree.HasLayout := by
  have hboxed : parseFormula true
      "\\left\\langle\\operatorname\x7bab\x7d\\text\x7b\\foo\x7d\\right." =
        .ok (.sequence false
          [.unary .bare "\\left" (.literal "\\langle"),
            .unary .braced "\\operatorname" (.sequence true [.literal "a", .literal "b"]),
            .unary .braced "\\text" (.sequence true [.literal "\\foo"]),
            .unary .bare "\\right" (.literal ".")]) := by
    with_unfolding_all rfl
  have hformula : parseFormula true "\\ce\x7bH2\\foo\x7d" =
      .ok (.sequence false [.unary .braced "\\ce"
        (.sequence true [.literal "H", .literal "2", .literal "\\foo"])]) := by
    with_unfolding_all rfl
  refine ⟨⟨_, hboxed, ?_⟩, _, hformula, ?_⟩
  · exact (exists_layout_iff_hasLayout hboxed {}).1.mp ⟨_, by with_unfolding_all rfl⟩
  · intro hlayout
    obtain ⟨elements, hok⟩ := (exists_layout_iff_hasLayout hformula {}).1.mpr hlayout
    have herror : (Node.sequence false [.unary .braced "\\ce"
        (.sequence true [.literal "H", .literal "2", .literal "\\foo"])]).layout .builtin {} =
          .error (.unknownCommand "\\foo") := by
      with_unfolding_all rfl
    rw [herror] at hok
    cases hok

end FormulaMarkup
