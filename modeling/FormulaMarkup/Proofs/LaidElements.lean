import FormulaMarkup.Proofs.ReadNodes

/-!
# Layouts, rule by rule

The layout of a tree goes through operands and handlers and may fail in many
places.  A property of the elements that come out of it should not have to go
that way again, so a layout that succeeds is described here by rules: each rule
says which elements a portion of a tree becomes in a context, given the elements
of its parts.  What holds for every rule holds for all elements of all formulas.
-/

namespace FormulaMarkup

/-- What is laid out. -/
inductive Portion where
  | inline (node : Node)
  /-- A node that is kept together. -/
  | single (node : Node)
  | items (nodes : List Node)
  /-- The script of a base. -/
  | attached (node : Node)
  | cells (nodes : List Node)
  | rows (rows : List (List Node))
  | segments (segments : List ChemicalSegment)

/-- The elements that a portion becomes in a context. -/
inductive Laid (known : String → Prop) : Portion → Context → List Element → Prop
  | letter {value : String} {context : Context} (hclass : LiteralClass.of value = .letter) :
      Laid known (.inline (.literal value)) context
        [.identifier (context.textAttributes (if context.chemistry then some .normal else none))
          value]
  | number {value : String} {context : Context} (hclass : LiteralClass.of value = .digit) :
      Laid known (.inline (.literal value)) context
        [.number (context.textAttributes none) value]
  | tie {context : Context} :
      Laid known (.inline (.literal "~")) context [.space "0.333em" context.attributes]
  | symbol {value shown : String} {context : Context} (hclass : LiteralClass.of value = .symbol)
      (hshown : shown = value ∨ shown ∈ ["−", "′", "∗"]) :
      Laid known (.inline (.literal value)) context [.operator context.attributes shown]
  | identifier {value : String} {c : Char} {family : Family} {context : Context}
      (hclass : LiteralClass.of value = .command)
      (hentry : Registry.builtin.get? value = some ⟨.identifier, some c, family⟩) :
      Laid known (.inline (.literal value)) context
        [.identifier (context.textAttributes (if isGreekCapital c then some .normal else none))
          c.toString]
  | operator {value : String} {c : Char} {family : Family} {context : Context}
      (hclass : LiteralClass.of value = .command)
      (hentry : Registry.builtin.get? value = some ⟨.operator, some c, family⟩) :
      Laid known (.inline (.literal value)) context [.operator context.attributes c.toString]
  | functionName {value : String} {codepoint : Option Char} {family : Family} {context : Context}
      (hclass : LiteralClass.of value = .command)
      (hentry : Registry.builtin.get? value = some ⟨.functionName, codepoint, family⟩) :
      Laid known (.inline (.literal value)) context
        [.identifier (context.textAttributes none) (bareName value)]
  | space {value : String} {codepoint : Option Char} {width : String} {context : Context}
      (hclass : LiteralClass.of value = .command)
      (hentry : Registry.builtin.get? value = some ⟨.space, codepoint, .space width⟩) :
      Laid known (.inline (.literal value)) context [.space width context.attributes]
  -- Sequences.
  | noItem {context : Context} : Laid known (.items []) context []
  | plainItem {node : Node} {rest : List Node} {context : Context} {first others : List Element}
      (hcurly : node.isCurly = false) (hfirst : Laid known (.inline node) context first)
      (hothers : Laid known (.items rest) context others) :
      Laid known (.items (node :: rest)) context (first ++ others)
  | curlyItem {node : Node} {rest : List Node} {context : Context} {first others : List Element}
      (hcurly : node.isCurly = true) (hfirst : Laid known (.single node) context first)
      (hothers : Laid known (.items rest) context others) :
      Laid known (.items (node :: rest)) context (first ++ others)
  | noSequence {curly : Bool} {context : Context} :
      Laid known (.inline (.sequence curly [])) context [.placeholder]
  | sequence {curly : Bool} {node : Node} {rest : List Node} {context : Context}
      {elements : List Element} (hitems : Laid known (.items (node :: rest)) context elements) :
      Laid known (.inline (.sequence curly (node :: rest))) context elements
  | alone {node : Node} {context : Context} {elements : List Element}
      (hnode : node.itemCount? = none) (hinline : Laid known (.inline node) context elements) :
      Laid known (.single node) context elements
  | singleNothing {curly : Bool} {context : Context} :
      Laid known (.single (.sequence curly [])) context [.placeholder]
  | singleOnly {curly : Bool} {only : Node} {context : Context} {elements : List Element}
      (honly : Laid known (.single only) context elements) :
      Laid known (.single (.sequence curly [only])) context elements
  | singleSeveral {curly : Bool} {first second : Node} {rest : List Node} {context : Context}
      {elements : List Element}
      (hitems : Laid known (.items (first :: second :: rest)) context elements) :
      Laid known (.single (.sequence curly (first :: second :: rest))) context [.row ∅ elements]
  -- Scripts.
  | noAttached {node : Node} {context : Context} (hempty : node.isEmptySequence = true) :
      Laid known (.attached node) context [.placeholder]
  | attached {node : Node} {context : Context} {elements : List Element}
      (hempty : node.isEmptySequence = false)
      (hinline : Laid known (.inline node) context.withoutAttributes elements) :
      Laid known (.attached node) context [.row ∅ elements]
  | script {side : Side} {base attached : Node} {context : Context} {tag : LayoutTag}
      {baseElements attachedElements : List Element}
      (htag : tag = side.stackTag ∨ tag = side.scriptTag)
      (hbase : Laid known (.single base) context baseElements)
      (hattached : Laid known (.attached attached) context attachedElements) :
      Laid known (.inline (.script side base attached)) context
        [.layout tag ∅ (baseElements ++ attachedElements)]
  -- Commands with one argument.
  | accent {style : ArgumentStyle} {name : String} {argument : Node} {c : Char} {stretchy : Bool}
      {context : Context} {base : List Element}
      (hentry : Registry.builtin.get? name = some ⟨.accent, some c, .accent stretchy⟩)
      (hargument : Laid known (.single argument) context base) :
      Laid known (.inline (.unary style name argument)) context
        [.layout .over (Dictionary.singleton "accent" "true")
          (base ++ [.operator
            (Dictionary.singleton "stretchy" (if stretchy then "true" else "false")) c.toString])]
  | mark {style : ArgumentStyle} {name : String} {argument : Node} {c : Char} {side : Side}
      {context : Context} {elements base : List Element}
      (hentry : Registry.builtin.get? name = some ⟨.mark, some c, .stack side⟩)
      (hargument : Laid known (.single argument) context elements)
      (hbase : base = if argument.peel.isScript then [.row ∅ elements] else elements) :
      Laid known (.inline (.unary style name argument)) context
        [.row ∅ [.layout side.stackTag ∅
          (base ++ [.operator (Dictionary.singleton "stretchy" "true") c.toString])]]
  | boldSymbol {style : ArgumentStyle} {name : String} {argument : Node}
      {codepoint : Option Char} {family : Family} {context : Context} {elements : List Element}
      (hentry : Registry.builtin.get? name = some ⟨.boldSymbol, codepoint, family⟩)
      (hargument : Laid known (.single argument) (context.withVariant .boldItalic) elements) :
      Laid known (.inline (.unary style name argument)) context elements
  | font {style : ArgumentStyle} {name : String} {argument : Node} {codepoint : Option Char}
      {variant : Variant} {context : Context} {elements : List Element}
      (hentry : Registry.builtin.get? name = some ⟨.font, codepoint, .font variant⟩)
      (hargument : Laid known (.single argument) (context.withVariant variant) elements) :
      Laid known (.inline (.unary style name argument)) context elements
  | enclosure {style : ArgumentStyle} {name : String} {argument : Node}
      {codepoint : Option Char} {kind : String} {context : Context} {elements : List Element}
      (hentry : Registry.builtin.get? name = some ⟨.enclosure, codepoint, .enclosure kind⟩)
      (hargument : Laid known (.single argument) context.withoutAttributes elements) :
      Laid known (.inline (.unary style name argument)) context
        [.enclosure kind context.attributes elements]
  | root {style : ArgumentStyle} {name : String} {argument : Node} {codepoint : Option Char}
      {family : Family} {context : Context} {elements : List Element}
      (hentry : Registry.builtin.get? name = some ⟨.root, codepoint, family⟩)
      (hargument : Laid known (.inline argument) context.withoutAttributes elements) :
      Laid known (.inline (.unary style name argument)) context
        [.layout .root context.attributes elements]
  | text {style : ArgumentStyle} {name raw : String} {argument : Node}
      {codepoint : Option Char} {variant : Option Variant} {context : Context}
      (hentry : Registry.builtin.get? name = some ⟨.text, codepoint, .text variant⟩)
      (hraw : argument.plainText? true = some raw) :
      Laid known (.inline (.unary style name argument)) context
        [.plainText (context.textAttributes variant) (shownText raw)]
  | operatorName {style : ArgumentStyle} {name text : String} {argument : Node}
      {codepoint : Option Char} {family : Family} {context : Context}
      (hentry : Registry.builtin.get? name = some ⟨.operatorName, codepoint, family⟩)
      (htext : argument.plainText? false = some text) (hne : text ≠ "") :
      Laid known (.inline (.unary style name argument)) context
        [.identifier (context.textAttributes (if text.length = 1 then some .normal else none))
          text]
  | noDelimiter {style : ArgumentStyle} {name value : String} {codepoint : Option Char}
      {family : Family} {context : Context}
      (hentry : Registry.builtin.get? name = some ⟨.delimiter, codepoint, family⟩)
      (htext : delimiterText .builtin name value = .ok none) :
      Laid known (.inline (.unary style name (.literal value))) context []
  | delimiter {style : ArgumentStyle} {name value text : String} {codepoint : Option Char}
      {family : Family} {context : Context}
      (hentry : Registry.builtin.get? name = some ⟨.delimiter, codepoint, family⟩)
      (htext : delimiterText .builtin name value = .ok (some text)) :
      Laid known (.inline (.unary style name (.literal value))) context
        [.operator (fenceAttributes.merge context.attributes) text]
  -- Commands with two arguments.
  | stack {name : String} {first second : Node} {codepoint : Option Char} {side : Side}
      {context : Context} {base mark : List Element}
      (hentry : Registry.builtin.get? name = some ⟨.stack, codepoint, .stack side⟩)
      (hbase : Laid known (.single second) context.withoutAttributes base)
      (hmark : Laid known (.single first) context.withoutAttributes mark) :
      Laid known (.inline (.binary name first second)) context
        [.layout side.stackTag context.attributes (base ++ mark)]
  | fraction {name : String} {first second : Node} {codepoint : Option Char}
      {style : FractionStyle} {context : Context} {upper lower : List Element}
      (hentry : Registry.builtin.get? name = some ⟨.fraction, codepoint, .fraction style⟩)
      (hupper : Laid known (.single first) context.withoutAttributes upper)
      (hlower : Laid known (.single second) context.withoutAttributes lower) :
      Laid known (.inline (.binary name first second)) context
        [fractionElement style context.attributes (upper ++ lower)]
  -- Tables.
  | noCell {context : Context} : Laid known (.cells []) context []
  | cell {node : Node} {rest : List Node} {context : Context} {elements cells : List Element}
      (hlayout : node.layout .builtin context = .ok elements)
      (hcell : Laid known (.inline node) context elements)
      (hcells : Laid known (.cells rest) context cells) :
      Laid known (.cells (node :: rest)) context (.tableCell elements :: cells)
  | noRow {context : Context} : Laid known (.rows []) context []
  | row {row : List Node} {rest : List (List Node)} {context : Context}
      {cells rows : List Element} (hcells : Laid known (.cells row) context cells)
      (hrows : Laid known (.rows rest) context rows) :
      Laid known (.rows (row :: rest)) context (.tableRow cells :: rows)
  | table {environment : Environment} {rows : List (List Node)} {context : Context}
      {rowElements : List Element}
      (hfences : environment.style.opening.isNone && environment.style.closing.isNone)
      (hrows : Laid known (.rows rows) context.withoutAttributes.inTable rowElements) :
      Laid known (.inline (.table environment rows)) context
        [.table environment.style.alignment (environment.style.attributes context) rowElements]
  | fencedTable {environment : Environment} {rows : List (List Node)} {context : Context}
      {rowElements : List Element}
      (hrows : Laid known (.rows rows) context.withoutAttributes.inTable rowElements) :
      Laid known (.inline (.table environment rows)) context
        [.row ∅ (fence environment.style.opening ++
          [.table environment.style.alignment (environment.style.attributes context) rowElements] ++
          fence environment.style.closing)]
  -- Chemical formulas.
  | chemistry {style : ArgumentStyle} {name : String} {curly : Bool} {items : List Node}
      {context : Context} {elements : List Element}
      (hname : known name) (hshape : shape? name = some .chemistry)
      (hsegments : Laid known (.segments (chemicalSegments
        (items.map fun item => ⟨item, item.layout .builtin⟩)))
        context.withoutAttributes.inChemistry elements) :
      Laid known (.inline (.unary style name (.sequence curly items))) context
        [.row context.attributes elements]
  | noSegment {context : Context} : Laid known (.segments []) context []
  | arrow {symbol : String} {rest : List ChemicalSegment} {context : Context}
      {others : List Element} (hothers : Laid known (.segments rest) context others) :
      Laid known (.segments (.arrow symbol :: rest)) context (.operator ∅ symbol :: others)
  | atom {symbol : String} {rest : List ChemicalSegment} {context : Context}
      {others : List Element} (hsymbol : symbol ≠ "")
      (hothers : Laid known (.segments rest) context others) :
      Laid known (.segments (.atom symbol none :: rest)) context
        (.identifier (Dictionary.singleton "mathvariant" Variant.normal.name) symbol :: others)
  | countedAtom {symbol count : String} {rest : List ChemicalSegment} {context : Context}
      {others : List Element} (hsymbol : symbol ≠ "")
      (hothers : Laid known (.segments rest) context others) :
      Laid known (.segments (.atom symbol (some count) :: rest)) context
        (.layout .subscript ∅
          [.identifier (Dictionary.singleton "mathvariant" Variant.normal.name) symbol,
           .number ∅ count] :: others)
  | otherSegment {piece : Piece} {rest : List ChemicalSegment} {context : Context}
      {elements others : List Element} (hpiece : Laid known (.inline piece.node) context elements)
      (hothers : Laid known (.segments rest) context others) :
      Laid known (.segments (.other piece :: rest)) context (elements ++ others)

/-! ## Layouts follow the rules -/

theorem exists_of_bind_eq_ok {first : Layout} {next : List Element → Layout}
    {elements : List Element} :
    (match first with
      | .error reason => .error reason
      | .ok inner => next inner : Layout) = .ok elements →
    ∃ inner, first = .ok inner ∧ next inner = .ok elements := by
  intro hbind
  cases first with
  | error reason => cases hbind
  | ok inner => exact ⟨inner, rfl, hbind⟩

/-- An atom begins with its capital. -/
theorem symbol_ne_empty_of_splitSegment {first : Piece} {rest : List Piece} {symbol : String}
    {count : Option String} (hatom : (splitSegment first rest).1 = .atom symbol count) :
    symbol ≠ "" := by
  unfold splitSegment at hatom
  split at hatom
  · cases hatom
  · split at hatom
    · next text _ =>
      split at hatom
      · next hcapital =>
        cases hatom
        intro hempty
        obtain ⟨rfl, _⟩ : text = "" ∧ _ := by simpa using hempty
        cases hcapital
      · cases hatom
    · cases hatom

theorem symbol_ne_empty_of_mem_chemicalSegments {pieces : List Piece} {symbol : String}
    {count : Option String} (hmem : .atom symbol count ∈ chemicalSegments pieces) :
    symbol ≠ "" := by
  fun_induction chemicalSegments pieces with
  | case1 => cases hmem
  | case2 first rest ih =>
      rcases List.mem_cons.mp hmem with hfirst | hlater
      · exact symbol_ne_empty_of_splitSegment hfirst.symm
      · exact ih hlater

/-- What is collected from a segment.  Arrows and atoms are made of literals. -/
def ChemicalSegment.collect {α : Type} (collect : Node → List α) : ChemicalSegment → List α
  | .other piece => collect piece.node
  | _ => []

section Collecting

variable {α : Type} {collect : Node → List α} (hliteral : ∀ value, collect (.literal value) = [])

include hliteral

theorem Piece.collect_of_literal? {piece : Piece} {value : String}
    (hvalue : piece.literal? = some value) : collect piece.node = [] := by
  obtain ⟨node, layout⟩ := piece
  cases node with
  | literal other => exact hliteral other
  | _ => cases hvalue

theorem flatMap_dropLiterals {literals : List String} {pieces rest : List Piece}
    (hdrop : dropLiterals literals pieces = some rest) :
    pieces.flatMap (collect ·.node) = rest.flatMap (collect ·.node) := by
  induction literals generalizing pieces with
  | nil =>
      cases hdrop
      rfl
  | cons literal literals ih =>
      cases pieces with
      | nil => cases hdrop
      | cons first others =>
          simp only [dropLiterals] at hdrop
          split at hdrop
          · next hfirst =>
            rw [List.flatMap_cons, Piece.collect_of_literal? hliteral hfirst, List.nil_append,
              ih hdrop]
          · cases hdrop

theorem flatMap_splitSmallLetters (pieces : List Piece) :
    (splitSmallLetters pieces).2.flatMap (collect ·.node) = pieces.flatMap (collect ·.node) := by
  induction pieces with
  | nil => rfl
  | cons first others ih =>
      simp only [splitSmallLetters]
      split
      · next hfirst =>
        split
        · rw [List.flatMap_cons, Piece.collect_of_literal? hliteral hfirst, List.nil_append, ← ih]
        · rfl
      · rfl

theorem flatMap_splitCount (pieces : List Piece) :
    (splitCount pieces).2.flatMap (collect ·.node) = pieces.flatMap (collect ·.node) := by
  cases pieces with
  | nil => rfl
  | cons first others =>
      simp only [splitCount]
      split
      · next hfirst =>
        split
        · rw [List.flatMap_cons, Piece.collect_of_literal? hliteral hfirst, List.nil_append]
        · rfl
      · rfl

theorem flatMap_splitSegment (first : Piece) (rest : List Piece) :
    (splitSegment first rest).1.collect collect ++
        (splitSegment first rest).2.flatMap (collect ·.node) =
      (first :: rest).flatMap (collect ·.node) := by
  unfold splitSegment
  split
  · next harrow =>
    obtain ⟨⟨literals, arrow⟩, _, hfound⟩ := List.exists_of_findSome?_eq_some harrow
    obtain ⟨after, hdrop, hafter⟩ := Option.map_eq_some_iff.mp hfound
    cases hafter
    exact (flatMap_dropLiterals hliteral hdrop).symm
  · split
    · next hfirst =>
      split
      · rw [List.flatMap_cons, Piece.collect_of_literal? hliteral hfirst]
        exact (flatMap_splitCount hliteral _).trans (flatMap_splitSmallLetters hliteral rest)
      · rfl
    · rfl

/-- What is collected from all nodes but literals is found in the segments. -/
theorem flatMap_chemicalSegments (pieces : List Piece) :
    (chemicalSegments pieces).flatMap (ChemicalSegment.collect collect) =
      pieces.flatMap (collect ·.node) := by
  fun_induction chemicalSegments pieces with
  | case1 => rfl
  | case2 first rest ih => rw [List.flatMap_cons, ih, flatMap_splitSegment hliteral]

end Collecting

/-- In every context, the layouts of the node that succeed follow the rules. -/
structure Node.FollowsRules (known : String → Prop) (node : Node) : Prop where
  layout : ∀ {context : Context} {elements : List Element},
    (node.operand .builtin).layout context = .ok elements →
    Laid known (.inline node) context elements
  single : ∀ {context : Context} {elements : List Element},
    (node.operand .builtin).single context = .ok elements →
    Laid known (.single node) context elements

namespace Node.FollowsRules

variable {known : String → Prop}

theorem of_layout {node : Node} {layout : Layoutable}
    (hoperand : node.operand .builtin = .ofNode node layout) (hnode : node.itemCount? = none)
    (hlayout : ∀ {context : Context} {elements : List Element},
      layout context = .ok elements → Laid known (.inline node) context elements) :
    node.FollowsRules known := by
  constructor
  · rw [hoperand]
    exact hlayout
  · rw [hoperand]
    intro context elements helements
    exact .alone hnode (hlayout helements)

theorem literal {value : String}
    (hcommand : LiteralClass.of value = .command → shape? value = none) :
    (Node.literal value).FollowsRules known := by
  apply of_layout rfl rfl
  intro context elements helements
  unfold literalLayout at helements
  cases hclass : LiteralClass.of value with
  | letter =>
      simp only [hclass, letterLayout] at helements
      cases helements
      exact .letter hclass
  | digit =>
      simp only [hclass, numberLayout] at helements
      cases helements
      exact .number hclass
  | symbol =>
      simp only [hclass, symbolLayout] at helements
      split at helements
      · cases helements
        exact .tie
      · cases helements
        exact .symbol hclass (.inr (by simp))
      · cases helements
        exact .symbol hclass (.inr (by simp))
      · cases helements
        exact .symbol hclass (.inr (by simp))
      · cases helements
        exact .symbol hclass (.inl rfl)
  | command =>
      simp only [hclass, commandLayout] at helements
      cases hentry : Registry.builtin.get? value with
      | none =>
          rw [hentry] at helements
          cases helements
      | some entry =>
          rw [hentry] at helements
          have hserves := serves_of_get? hentry
          rw [hcommand hclass] at hserves
          cases hserves with
          | alone halone =>
              cases halone with
              | identifier =>
                  cases helements
                  exact .identifier hclass hentry
              | operator =>
                  cases helements
                  exact .operator hclass hentry
              | functionName =>
                  cases helements
                  exact .functionName hclass hentry
              | space =>
                  cases helements
                  exact .space hclass hentry

theorem items {nodes : List Node} (hnodes : ∀ node ∈ nodes, node.FollowsRules known)
    {context : Context} {elements : List Element}
    (helements : layoutAll (fun node => (node.operand .builtin).asItem context) nodes =
      .ok elements) :
    Laid known (.items nodes) context elements := by
  induction nodes generalizing elements with
  | nil =>
      cases helements
      exact .noItem
  | cons node rest ih =>
      rw [List.forall_mem_cons] at hnodes
      obtain ⟨first, hfirst, helements⟩ := exists_of_bind_eq_ok helements
      obtain ⟨others, hothers, hequal⟩ := exists_of_bind_eq_ok helements
      cases hequal
      simp only [Operand.asItem, operand_node] at hfirst
      by_cases hcurly : node.isCurly = true
      · rw [if_pos hcurly] at hfirst
        exact .curlyItem hcurly (hnodes.1.single hfirst) (ih hnodes.2 hothers)
      · rw [if_neg hcurly] at hfirst
        exact .plainItem (by simpa using hcurly) (hnodes.1.layout hfirst) (ih hnodes.2 hothers)

theorem sequence {curly : Bool} {nodes : List Node}
    (hnodes : ∀ node ∈ nodes, node.FollowsRules known) :
    (Node.sequence curly nodes).FollowsRules known := by
  have hitems {context : Context} {elements : List Element}
      (helements : layoutAll (fun operand => operand.asItem context)
        (nodes.map (Node.operand .builtin)) = .ok elements) :
      Laid known (.items nodes) context elements := by
    rw [layoutAll_map] at helements
    exact items hnodes helements
  constructor
  all_goals
    intro context elements helements
    rw [operand, nodeOperands_eq_map] at helements
  · cases nodes with
    | nil =>
        cases helements
        exact .noSequence
    | cons node rest => exact .sequence (hitems helements)
  · cases nodes with
    | nil =>
        cases helements
        exact .singleNothing
    | cons node rest =>
        cases rest with
        | nil => exact .singleOnly ((hnodes node List.mem_cons_self).single helements)
        | cons second rest =>
            obtain ⟨inner, hinner, hequal⟩ := exists_of_bind_eq_ok helements
            cases hequal
            exact .singleSeveral (hitems hinner)

theorem attached {attached : Node} (hattached : attached.FollowsRules known) {context : Context}
    {elements : List Element}
    (helements : attachedLayout (attached.operand .builtin) context = .ok elements) :
    Laid known (.attached attached) context elements := by
  rw [attachedLayout, operand_node] at helements
  by_cases hempty : attached.isEmptySequence = true
  · rw [if_pos hempty] at helements
    cases helements
    exact .noAttached hempty
  · rw [if_neg hempty] at helements
    obtain ⟨inner, hinner, hequal⟩ := exists_of_bind_eq_ok helements
    cases hequal
    exact .attached (by simpa using hempty) (hattached.layout hinner)

theorem script {side : Side} {base attached : Node} (hbase : base.FollowsRules known)
    (hattached : attached.FollowsRules known) :
    (Node.script side base attached).FollowsRules known := by
  apply of_layout rfl rfl
  intro context elements helements
  obtain ⟨baseElements, hbaseElements, helements⟩ := exists_of_bind_eq_ok helements
  obtain ⟨attachedElements, hattachedElements, hequal⟩ := exists_of_bind_eq_ok helements
  cases hequal
  refine .script ?_ (hbase.single hbaseElements) (hattached.attached hattachedElements)
  split
  · exact .inl rfl
  · exact .inr rfl

theorem unary {style : ArgumentStyle} {name : String} {argument : Node} {entry : Entry}
    (hentry : Registry.builtin.get? name = some entry) (htakes : entry.TakesOne)
    (hargument : argument.FollowsRules known) :
    (Node.unary style name argument).FollowsRules known := by
  apply of_layout rfl rfl
  intro context elements helements
  simp only [commandLayout, hentry] at helements
  cases htakes with
  | accent =>
      obtain ⟨base, hbase, hequal⟩ := exists_of_bind_eq_ok helements
      cases hequal
      exact .accent hentry (hargument.single hbase)
  | mark =>
      obtain ⟨inner, hinner, hequal⟩ := exists_of_bind_eq_ok helements
      rw [operand_node] at hequal
      cases hequal
      exact .mark hentry (hargument.single hinner) rfl
  | boldSymbol => exact .boldSymbol hentry (hargument.single helements)
  | font => exact .font hentry (hargument.single helements)
  | enclosure =>
      obtain ⟨inner, hinner, hequal⟩ := exists_of_bind_eq_ok helements
      cases hequal
      exact .enclosure hentry (hargument.single hinner)
  | root =>
      obtain ⟨inner, hinner, hequal⟩ := exists_of_bind_eq_ok helements
      cases hequal
      exact .root hentry (hargument.layout hinner)

theorem binary {name : String} {first second : Node} {entry : Entry}
    (hentry : Registry.builtin.get? name = some entry) (htakes : entry.TakesTwo)
    (hfirst : first.FollowsRules known) (hsecond : second.FollowsRules known) :
    (Node.binary name first second).FollowsRules known := by
  apply of_layout rfl rfl
  intro context elements helements
  simp only [commandLayout, hentry] at helements
  cases htakes with
  | stack =>
      obtain ⟨base, hbase, helements⟩ := exists_of_bind_eq_ok helements
      obtain ⟨mark, hmark, hequal⟩ := exists_of_bind_eq_ok helements
      cases hequal
      exact .stack hentry (hsecond.single hbase) (hfirst.single hmark)
  | fraction =>
      obtain ⟨upper, hupper, helements⟩ := exists_of_bind_eq_ok helements
      obtain ⟨lower, hlower, hequal⟩ := exists_of_bind_eq_ok helements
      cases hequal
      exact .fraction hentry (hfirst.single hupper) (hsecond.single hlower)

theorem operatorName {style : ArgumentStyle} {name : String} {argument : Node}
    {codepoint : Option Char} {family : Family}
    (hentry : Registry.builtin.get? name = some ⟨.operatorName, codepoint, family⟩) :
    (Node.unary style name argument).FollowsRules known := by
  apply of_layout rfl rfl
  intro context elements helements
  simp only [commandLayout, hentry, Handler.layout, operatorNameLayout, operand_node] at helements
  split at helements
  · next text htext =>
    split at helements
    · cases helements
    · next hne =>
      cases helements
      exact .operatorName hentry htext (by simpa using hne)
  · cases helements

theorem text {style : ArgumentStyle} {name : String} {argument : Node}
    {codepoint : Option Char} {variant : Option Variant}
    (hentry : Registry.builtin.get? name = some ⟨.text, codepoint, .text variant⟩) :
    (Node.unary style name argument).FollowsRules known := by
  apply of_layout rfl rfl
  intro context elements helements
  simp only [commandLayout, hentry, Handler.layout, textLayout, operand_node] at helements
  split at helements
  · next raw hraw =>
    cases helements
    exact .text hentry hraw
  · cases helements

theorem delimiter {style : ArgumentStyle} {name value : String} {codepoint : Option Char}
    {family : Family}
    (hentry : Registry.builtin.get? name = some ⟨.delimiter, codepoint, family⟩) :
    (Node.unary style name (.literal value)).FollowsRules known := by
  apply of_layout rfl rfl
  intro context elements helements
  simp only [commandLayout, hentry, Handler.layout, delimiterLayout, operand_node,
    Node.literal?] at helements
  split at helements
  · cases helements
  · next htext =>
    cases helements
    exact .noDelimiter hentry htext
  · next text htext =>
    cases helements
    exact .delimiter hentry htext

theorem segments {segments : List ChemicalSegment}
    (hatoms : ∀ symbol count, .atom symbol count ∈ segments → symbol ≠ "")
    (hothers : ∀ piece, .other piece ∈ segments →
      piece.node.FollowsRules known ∧ piece.layout = piece.node.layout .builtin)
    {context : Context} {elements : List Element}
    (helements : layoutAll (ChemicalSegment.layout context) segments = .ok elements) :
    Laid known (.segments segments) context elements := by
  induction segments generalizing elements with
  | nil =>
      cases helements
      exact .noSegment
  | cons segment rest ih =>
      obtain ⟨first, hfirst, helements⟩ := exists_of_bind_eq_ok helements
      obtain ⟨others, hrest, hequal⟩ := exists_of_bind_eq_ok helements
      cases hequal
      have hlaid := ih
        (fun symbol count hatom => hatoms symbol count (List.mem_cons_of_mem _ hatom))
        (fun piece hpiece => hothers piece (List.mem_cons_of_mem _ hpiece)) hrest
      cases segment with
      | arrow symbol =>
          cases hfirst
          exact .arrow hlaid
      | atom symbol count =>
          have hsymbol := hatoms symbol count List.mem_cons_self
          cases count with
          | none =>
              cases hfirst
              exact .atom hsymbol hlaid
          | some number =>
              cases hfirst
              exact .countedAtom hsymbol hlaid
      | other piece =>
          obtain ⟨hpiece, hlayout⟩ := hothers piece List.mem_cons_self
          rw [ChemicalSegment.layout, hlayout] at hfirst
          exact .otherSegment (hpiece.layout hfirst) hlaid

theorem chemistry {style : ArgumentStyle} {name : String} {curly : Bool} {nodes : List Node}
    (hname : known name) (hshape : shape? name = some .chemistry)
    (hnodes : ∀ node ∈ nodes, node.FollowsRules known) :
    (Node.unary style name (.sequence curly nodes)).FollowsRules known := by
  obtain ⟨entry, hentry, hserves⟩ := exists_entry_of_shape? hshape
  apply of_layout rfl rfl
  intro context elements helements
  simp only [commandLayout, hentry] at helements
  cases hserves with
  | chemistry =>
      rw [Handler.layout, Node.pieces_sequence] at helements
      obtain ⟨inner, hinner, hequal⟩ := exists_of_bind_eq_ok helements
      cases hequal
      refine .chemistry hname hshape
        (segments (fun _ _ => symbol_ne_empty_of_mem_chemicalSegments) ?_ hinner)
      intro piece hpiece
      obtain ⟨node, hnode, rfl⟩ := List.mem_map.mp (mem_of_chemicalSegments hpiece)
      exact ⟨hnodes node hnode, rfl⟩

theorem cells {nodes : List Node} (hnodes : ∀ node ∈ nodes, node.FollowsRules known)
    {context : Context} {elements : List Element}
    (helements : layoutAll (fun node => cellLayout context (node.layout .builtin)) nodes =
      .ok elements) :
    Laid known (.cells nodes) context elements := by
  induction nodes generalizing elements with
  | nil =>
      cases helements
      exact .noCell
  | cons node rest ih =>
      rw [List.forall_mem_cons] at hnodes
      obtain ⟨cell, hcell, helements⟩ := exists_of_bind_eq_ok helements
      obtain ⟨others, hothers, hequal⟩ := exists_of_bind_eq_ok helements
      cases hequal
      obtain ⟨inner, hinner, hequal⟩ := exists_of_bind_eq_ok hcell
      cases hequal
      exact .cell hinner (hnodes.1.layout hinner) (ih hnodes.2 hothers)

theorem rows {rows : List (List Node)}
    (hcells : ∀ row ∈ rows, ∀ cell ∈ row, cell.FollowsRules known)
    {context : Context} {elements : List Element}
    (helements : layoutAll (fun row => rowLayout context (row.map (Node.layout .builtin))) rows =
      .ok elements) :
    Laid known (.rows rows) context elements := by
  induction rows generalizing elements with
  | nil =>
      cases helements
      exact .noRow
  | cons row rest ih =>
      rw [List.forall_mem_cons] at hcells
      obtain ⟨cells, hrow, helements⟩ := exists_of_bind_eq_ok helements
      obtain ⟨others, hothers, hequal⟩ := exists_of_bind_eq_ok helements
      cases hequal
      obtain ⟨inner, hinner, hequal⟩ := exists_of_bind_eq_ok hrow
      cases hequal
      rw [layoutAll_map] at hinner
      exact .row (FollowsRules.cells hcells.1 hinner) (ih hcells.2 hothers)

theorem table {environment : Environment} {rows : List (List Node)}
    (hcells : ∀ row ∈ rows, ∀ cell ∈ row, cell.FollowsRules known) :
    (Node.table environment rows).FollowsRules known := by
  apply of_layout rfl rfl
  intro context elements helements
  rw [rowLayoutables_eq_map] at helements
  obtain ⟨inner, hinner, helements⟩ := exists_of_bind_eq_ok helements
  rw [layoutAll_map] at hinner
  have hlaid := FollowsRules.rows hcells hinner
  split at helements
  · next hfences =>
    cases helements
    exact .table hfences hlaid
  · cases helements
    exact .fencedTable hlaid

end Node.FollowsRules

theorem Node.IsRead.followsRules {known : String → Prop} {node : Node}
    (hread : node.IsRead known) : node.FollowsRules known := by
  induction hread with
  | literal hcommand => exact .literal fun hclass => (hcommand hclass).2
  | sequence _ ih => exact .sequence ih
  | script _ _ ihbase ihattached => exact .script ihbase ihattached
  | unary _ hshape hone _ ih =>
      obtain ⟨entry, hentry, hserves⟩ := exists_entry_of_shape? hshape
      cases hserves with
      | braced _ htakes => exact .unary hentry htakes ih
      | bare htakes => exact .unary hentry htakes ih
      | operatorName _ => exact .operatorName hentry
      | twoBraced | text | chemistry | delimiter => simp at hone
  | chemistry hname hshape _ ih => exact .chemistry hname hshape ih
  | text _ hshape =>
      obtain ⟨entry, hentry, hserves⟩ := exists_entry_of_shape? hshape
      cases hserves with
      | text => exact .text hentry
  | delimiter _ hshape _ =>
      obtain ⟨entry, hentry, hserves⟩ := exists_entry_of_shape? hshape
      cases hserves with
      | delimiter _ => exact .delimiter hentry
  | binary _ hshape _ _ ihfirst ihsecond =>
      obtain ⟨entry, hentry, hserves⟩ := exists_entry_of_shape? hshape
      cases hserves with
      | twoBraced htakes => exact .binary hentry htakes ihfirst ihsecond
  | table _ ih => exact .table ih

/-- The layout of a formula follows the rules. -/
theorem laid_of_parseFormula {chemistry : Bool} {formula : String} {tree : Node}
    (hparse : parseFormula chemistry formula = .ok tree) {context : Context}
    {elements : List Element} (hlayout : tree.layout .builtin context = .ok elements) :
    Laid (CommandIn (tokenize formula)) (.inline tree) context elements :=
  (isRead_of_parseFormula hparse).followsRules.layout hlayout

end FormulaMarkup
