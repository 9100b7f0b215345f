import FormulaMarkup.FormulaConversion
import FormulaMarkup.Proofs.CanonicalLimits
import FormulaMarkup.Proofs.ReadTrees

/-!
# Layouts of trees with braced scripts

Braces around a script do not show.  A script is put in a row of its own
whether or not it stood in braces, and nothing else looks at them: the handlers
ask their arguments for literals, for plain text, or whether they carry
scripts, and a chemical formula is cut into segments by its literals.

So a formula and its canonical text have the same markup, or fail for the same
cause.
-/

namespace FormulaMarkup

/-! ## What handlers see of a node -/

theorem Node.literal?_braceScripts (node : Node) : node.braceScripts.literal? = node.literal? := by
  cases node <;> rfl

theorem Node.isEmptySequence_braceScripts (node : Node) :
    node.braceScripts.isEmptySequence = node.isEmptySequence := by
  cases node with
  | sequence curly items => cases items <;> rfl
  | _ => rfl

theorem Node.peel_braceScripts (node : Node) : node.braceScripts.peel = node.peel.braceScripts := by
  fun_induction Node.peel node with
  | case1 curly only ih => exact ih
  | case2 node hsingle =>
      cases node with
      | sequence curly items =>
          match items with
          | [] => rfl
          | [only] => exact absurd rfl (hsingle curly only)
          | _ :: _ :: _ => rfl
      | _ => rfl

theorem Node.isScript_braceScripts (node : Node) :
    node.braceScripts.isScript = node.isScript := by
  cases node <;> rfl

theorem Registry.stackingSide?_braceScripts (registry : Registry) (node : Node) :
    registry.stackingSide? node.braceScripts = registry.stackingSide? node := by
  cases node with
  | unary style name argument => cases style <;> rfl
  | _ => rfl

mutual

theorem Node.plainText?_braceScripts (allowCommands : Bool) (node : Node) :
    node.braceScripts.plainText? allowCommands = node.plainText? allowCommands := by
  match node with
  | .literal value => rfl
  | .sequence curly items =>
      simp only [Node.braceScripts, Node.plainText?]
      exact plainTexts?_braceScriptsOfAll allowCommands items
  | .script side base attached => rfl
  | .unary style name argument => rfl
  | .binary name first second => rfl
  | .table environment rows => rfl

theorem plainTexts?_braceScriptsOfAll (allowCommands : Bool) (nodes : List Node) :
    plainTexts? allowCommands (braceScriptsOfAll nodes) = plainTexts? allowCommands nodes := by
  match nodes with
  | [] => rfl
  | node :: rest =>
      simp only [braceScriptsOfAll, plainTexts?, node.plainText?_braceScripts allowCommands,
        plainTexts?_braceScriptsOfAll allowCommands rest]

end

/-! ## Chemical notation -/

def Piece.withBracedScripts (piece : Piece) : Piece :=
  { piece with node := piece.node.braceScripts }

theorem Piece.literal?_withBracedScripts (piece : Piece) :
    piece.withBracedScripts.literal? = piece.literal? :=
  piece.node.literal?_braceScripts

def ChemicalSegment.withBracedScripts : ChemicalSegment → ChemicalSegment
  | .arrow symbol => .arrow symbol
  | .atom symbol count => .atom symbol count
  | .other piece => .other piece.withBracedScripts

theorem dropLiterals_withBracedScripts (literals : List String) (pieces : List Piece) :
    dropLiterals literals (pieces.map Piece.withBracedScripts) =
      (dropLiterals literals pieces).map (List.map Piece.withBracedScripts) := by
  induction literals generalizing pieces with
  | nil => rfl
  | cons literal literals ih =>
      cases pieces with
      | nil => rfl
      | cons piece pieces =>
          simp only [List.map_cons, dropLiterals, piece.literal?_withBracedScripts, ih]
          split <;> rfl

theorem splitArrow_withBracedScripts (pieces : List Piece) :
    splitArrow (pieces.map Piece.withBracedScripts) =
      (splitArrow pieces).map (Prod.map id (List.map Piece.withBracedScripts)) := by
  unfold splitArrow
  rw [List.map_findSome?]
  congr 1
  funext arrow
  simp only [dropLiterals_withBracedScripts, Function.comp, Option.map_map]
  rfl

theorem splitSmallLetters_withBracedScripts (pieces : List Piece) :
    splitSmallLetters (pieces.map Piece.withBracedScripts) =
      Prod.map id (List.map Piece.withBracedScripts) (splitSmallLetters pieces) := by
  induction pieces with
  | nil => rfl
  | cons piece rest ih =>
      simp only [List.map_cons, splitSmallLetters, piece.literal?_withBracedScripts, ih]
      split
      · split <;> rfl
      · rfl

theorem splitCount_withBracedScripts (pieces : List Piece) :
    splitCount (pieces.map Piece.withBracedScripts) =
      Prod.map id (List.map Piece.withBracedScripts) (splitCount pieces) := by
  cases pieces with
  | nil => rfl
  | cons piece rest =>
      simp only [List.map_cons, splitCount, piece.literal?_withBracedScripts]
      split
      · split <;> rfl
      · rfl

theorem splitSegment_withBracedScripts (piece : Piece) (rest : List Piece) :
    splitSegment piece.withBracedScripts (rest.map Piece.withBracedScripts) =
      Prod.map ChemicalSegment.withBracedScripts (List.map Piece.withBracedScripts)
        (splitSegment piece rest) := by
  have harrow := splitArrow_withBracedScripts (piece :: rest)
  simp only [List.map_cons] at harrow
  simp only [splitSegment, harrow]
  cases splitArrow (piece :: rest) with
  | some found => rfl
  | none =>
      simp only [Option.map_none, piece.literal?_withBracedScripts,
        splitSmallLetters_withBracedScripts, Prod.map_snd, splitCount_withBracedScripts]
      split
      · split <;> rfl
      · rfl

theorem chemicalSegments_withBracedScripts (pieces : List Piece) :
    chemicalSegments (pieces.map Piece.withBracedScripts) =
      (chemicalSegments pieces).map ChemicalSegment.withBracedScripts := by
  fun_induction chemicalSegments pieces with
  | case1 => simp only [List.map_nil, chemicalSegments]
  | case2 piece rest ih =>
      rw [List.map_cons, chemicalSegments, splitSegment_withBracedScripts]
      simp only [Prod.map_fst, Prod.map_snd, List.map_cons, ih]

theorem layoutAll_map {α β : Type} (layout : β → Layout) (f : α → β) (members : List α) :
    layoutAll layout (members.map f) = layoutAll (fun member => layout (f member)) members := by
  induction members with
  | nil => rfl
  | cons member rest ih => simp only [List.map_cons, layoutAll, ih]

theorem chemicalLayout_withBracedScripts (pieces : List Piece) :
    chemicalLayout (pieces.map Piece.withBracedScripts) = chemicalLayout pieces := by
  funext context
  have hsegment (segment : ChemicalSegment) :
      segment.withBracedScripts.layout context.withoutAttributes.inChemistry =
        segment.layout context.withoutAttributes.inChemistry := by
    cases segment <;> rfl
  simp only [chemicalLayout, chemicalSegments_withBracedScripts, layoutAll_map, hsegment]

/-! ## Handlers -/

/-- The operand of the same argument with braces around its scripts. -/
def Operand.withBracedScripts (operand : Operand) : Operand where
  node := operand.node.braceScripts
  layout := operand.layout
  single := operand.single
  pieces := operand.pieces.map Piece.withBracedScripts

def Operands.withBracedScripts : Operands → Operands
  | .none => .none
  | .one argument => .one argument.withBracedScripts
  | .two first second => .two first.withBracedScripts second.withBracedScripts
  | .grid rows => .grid rows

theorem Handler.layout_withBracedScripts
    (registry : Registry) (handler : Handler) (entry : Entry) (name : String)
    (operands : Operands) :
    handler.layout registry entry name operands.withBracedScripts =
      handler.layout registry entry name operands := by
  cases operands with
  | none => rfl
  | grid rows => rfl
  | two first second => cases handler <;> rfl
  | one argument =>
      have hliteral := argument.node.literal?_braceScripts
      have htext := fun allowed => argument.node.plainText?_braceScripts allowed
      have hscript : argument.node.braceScripts.peel.isScript = argument.node.peel.isScript := by
        rw [Node.peel_braceScripts, Node.isScript_braceScripts]
      funext context
      cases handler with
      | mark =>
          simp only [Operands.withBracedScripts, Handler.layout, markLayout,
            Operand.withBracedScripts, hscript]
      | text =>
          simp only [Operands.withBracedScripts, Handler.layout, textLayout,
            Operand.withBracedScripts, htext]
      | operatorName =>
          simp only [Operands.withBracedScripts, Handler.layout, operatorNameLayout,
            Operand.withBracedScripts, htext]
      | delimiter =>
          simp only [Operands.withBracedScripts, Handler.layout, delimiterLayout,
            Operand.withBracedScripts, hliteral]
      | chemistry =>
          simp only [Operands.withBracedScripts, Handler.layout, Operand.withBracedScripts,
            chemicalLayout_withBracedScripts]
      | _ => rfl

theorem commandLayout_withBracedScripts
    (registry : Registry) (name : String) (operands : Operands) :
    commandLayout registry name operands.withBracedScripts =
      commandLayout registry name operands := by
  funext context
  unfold commandLayout
  split
  · rfl
  · rw [Handler.layout_withBracedScripts]

/-! ## Nodes -/

/-- Braces around its scripts do not change how the node is laid out. -/
def Node.KeepsLayout (registry : Registry) (node : Node) : Prop :=
  node.braceScripts.operand registry = (node.operand registry).withBracedScripts

theorem Node.operand_node (registry : Registry) (node : Node) :
    (node.operand registry).node = node := by
  cases node <;> rfl

namespace Node.KeepsLayout

variable {registry : Registry}

theorem layout {node : Node} (hnode : node.KeepsLayout registry) :
    node.braceScripts.layout registry = node.layout registry := by
  funext context
  rw [Node.layout, hnode]
  rfl

theorem literal (value : String) : (Node.literal value).KeepsLayout registry := rfl

theorem nodeOperands {nodes : List Node} (hnodes : ∀ node ∈ nodes, node.KeepsLayout registry) :
    nodeOperands registry (nodes.map Node.braceScripts) =
      (FormulaMarkup.nodeOperands registry nodes).map Operand.withBracedScripts := by
  induction nodes with
  | nil => rfl
  | cons node rest ih =>
      rw [List.forall_mem_cons] at hnodes
      simp only [List.map_cons, FormulaMarkup.nodeOperands, ih hnodes.2]
      rw [hnodes.1]

theorem itemsLayout_map (items : List Operand) :
    itemsLayout (items.map Operand.withBracedScripts) = itemsLayout items := by
  funext context
  have hitem (item : Operand) : item.withBracedScripts.asItem context = item.asItem context := by
    simp only [Operand.asItem, Operand.withBracedScripts, Node.isCurly_braceScripts]
  cases items with
  | nil => rfl
  | cons first rest =>
      rw [List.map_cons, itemsLayout, itemsLayout, ← List.map_cons, layoutAll_map]
      · simp only [hitem]
      · simp
      · simp

theorem itemsSingle_map (items : List Operand) :
    itemsSingle (items.map Operand.withBracedScripts) = itemsSingle items := by
  funext context
  match items with
  | [] => rfl
  | [only] => rfl
  | first :: second :: rest =>
      have hitems := itemsLayout_map (first :: second :: rest)
      simp only [List.map_cons] at hitems
      simp only [List.map_cons, itemsSingle, hitems]

theorem sequence {curly : Bool} {items : List Node}
    (hitems : ∀ node ∈ items, node.KeepsLayout registry) :
    (Node.sequence curly items).KeepsLayout registry := by
  have hoperands := nodeOperands hitems
  unfold KeepsLayout
  simp only [Node.braceScripts, braceScriptsOfAll_eq_map, Node.operand, hoperands,
    Operand.ofItems, Operand.withBracedScripts, itemsLayout_map, itemsSingle_map, List.map_map]
  rfl

/-- A script is put in a row with or without braces. -/
theorem attachedLayout_enclosed {attached : Node} (hattached : attached.KeepsLayout registry)
    (hfilled : attached ≠ .sequence false []) :
    attachedLayout (attached.braceScripts.enclosed.operand registry) =
      attachedLayout (attached.operand registry) := by
  funext context
  by_cases hcurly : attached.isCurly = true
  · have henclosed : attached.braceScripts.enclosed = attached.braceScripts :=
      if_pos (attached.isCurly_braceScripts.trans hcurly)
    rw [henclosed, hattached]
    simp only [attachedLayout, Operand.withBracedScripts, Node.isEmptySequence_braceScripts]
  · have henclosed : attached.braceScripts.enclosed = .sequence true [attached.braceScripts] :=
      if_neg (attached.isCurly_braceScripts.symm ▸ hcurly)
    have hempty : attached.isEmptySequence = false := by
      cases attached with
      | sequence curly items =>
          cases items with
          | nil =>
              cases curly with
              | false => exact absurd rfl hfilled
              | true => exact absurd rfl hcurly
          | cons => rfl
      | _ => rfl
    have hitem (context : Context) :
        (attached.braceScripts.operand registry).asItem context =
          (attached.operand registry).layout context := by
      rw [Operand.asItem, Node.operand_node, Node.isCurly_braceScripts, if_neg hcurly, hattached]
      rfl
    have hgroup : (Node.sequence true [attached.braceScripts]).isEmptySequence = false := rfl
    rw [henclosed]
    simp only [attachedLayout, Node.operand_node, hempty, hgroup, Bool.false_eq_true, if_false,
      Node.operand, FormulaMarkup.nodeOperands, Operand.ofItems, itemsLayout, layoutAll, hitem]
    cases (attached.operand registry).layout context.withoutAttributes with
    | error error => rfl
    | ok elements => simp

theorem script {side : Side} {base attached : Node} (hbase : base.KeepsLayout registry)
    (hattached : attached.KeepsLayout registry) (hfilled : attached ≠ .sequence false []) :
    (Node.script side base attached).KeepsLayout registry := by
  have hlayout : scriptLayout registry side (base.braceScripts.operand registry)
        (attached.braceScripts.enclosed.operand registry) =
      scriptLayout registry side (base.operand registry) (attached.operand registry) := by
    funext context
    rw [hbase]
    simp only [scriptLayout, Operand.withBracedScripts, attachedLayout_enclosed hattached hfilled,
      Registry.stackingSide?_braceScripts]
  unfold KeepsLayout
  simp only [Node.braceScripts, Node.operand, hlayout]
  rfl

theorem unary {style : ArgumentStyle} {name : String} {argument : Node}
    (hargument : argument.KeepsLayout registry) :
    (Node.unary style name argument).KeepsLayout registry := by
  have hlayout := commandLayout_withBracedScripts registry name (.one (argument.operand registry))
  simp only [Operands.withBracedScripts] at hlayout
  unfold KeepsLayout
  simp only [Node.braceScripts, Node.operand]
  rw [hargument, hlayout]
  rfl

theorem binary {name : String} {first second : Node} (hfirst : first.KeepsLayout registry)
    (hsecond : second.KeepsLayout registry) :
    (Node.binary name first second).KeepsLayout registry := by
  have hlayout := commandLayout_withBracedScripts registry name
    (.two (first.operand registry) (second.operand registry))
  simp only [Operands.withBracedScripts] at hlayout
  unfold KeepsLayout
  simp only [Node.braceScripts, Node.operand]
  rw [hfirst, hsecond, hlayout]
  rfl

theorem rowLayoutables {rows : List (List Node)}
    (hcells : ∀ row ∈ rows, ∀ cell ∈ row, cell.KeepsLayout registry) :
    rowLayoutables registry (rows.map (List.map Node.braceScripts)) =
      FormulaMarkup.rowLayoutables registry rows := by
  induction rows with
  | nil => rfl
  | cons row rest ih =>
      rw [List.forall_mem_cons] at hcells
      simp only [List.map_cons, FormulaMarkup.rowLayoutables, ih hcells.2, nodeOperands hcells.1,
        List.map_map]
      rfl

theorem table {environment : Environment} {rows : List (List Node)}
    (hcells : ∀ row ∈ rows, ∀ cell ∈ row, cell.KeepsLayout registry) :
    (Node.table environment rows).KeepsLayout registry := by
  unfold KeepsLayout
  simp only [Node.braceScripts, braceScriptsOfRows_eq_map, Node.operand, rowLayoutables hcells,
    Operand.ofNode, Operand.withBracedScripts, Piece.withBracedScripts, List.map_cons,
    List.map_nil]

end Node.KeepsLayout

/-- What reading ensures about the nodes of a phrase. -/
def Phrase.KeepsLayout (registry : Registry) : Phrase → Prop
  | .primary node => node ≠ .sequence false [] ∧ node.KeepsLayout registry
  | .group node => node.isCurly = true ∧ node.KeepsLayout registry
  | .scripts _ base node => base.KeepsLayout registry → node.KeepsLayout registry
  | .items nodes => ∀ node ∈ nodes, node.KeepsLayout registry
  | .sequence nodes => ∀ node ∈ nodes, node.KeepsLayout registry
  | .rows _ grid => ∀ row ∈ grid, ∀ cell ∈ row, cell.KeepsLayout registry

theorem Formed.keepsLayout (registry : Registry) {chemistry : Bool} {phrase : Phrase}
    (hformed : Formed chemistry phrase) : phrase.KeepsLayout registry := by
  induction hformed with
  | character | number | command => exact ⟨nofun, .literal _⟩
  | inBraces _ ih =>
      refine ⟨?_, ih.2⟩
      rintro rfl
      exact Bool.noConfusion ih.1
  | braced _ _ _ ih | chemical _ _ _ _ ih | bare _ _ _ ih => exact ⟨nofun, .unary ih.2⟩
  | twoBraced _ _ _ _ ihfirst ihsecond => exact ⟨nofun, .binary ihfirst.2 ihsecond.2⟩
  | @textBox name content _ _ _ =>
      refine ⟨nofun, .unary (.sequence ?_)⟩
      intro node hnode
      split at hnode
      · simp at hnode
      · rw [List.mem_singleton.mp hnode]
        exact .literal content
  | symbolDelimiter | commandDelimiter => exact ⟨nofun, .unary (.literal _)⟩
  | environment _ ih => exact ⟨nofun, .table ih⟩
  | group _ ih => exact ⟨rfl, .sequence ih⟩
  | noScript => exact id
  | script _ _ ihattached ihscripts =>
      intro hbase
      exact ihscripts (.script hbase ihattached.2 ihattached.1)
  | noItem => exact fun node hnode => absurd hnode List.not_mem_nil
  | item _ _ _ _ ihbase ihscripts ihnodes =>
      exact List.forall_mem_cons.mpr ⟨ihscripts ihbase.2, ihnodes⟩
  | sequence _ ih => exact ih
  | sequenceOfScripts _ _ _ _ ihscripts ihnodes =>
      have hempty : (Node.sequence false []).KeepsLayout registry :=
        .sequence fun node hnode => absurd hnode List.not_mem_nil
      exact List.forall_mem_cons.mpr ⟨ihscripts hempty, ihnodes⟩
  | lastCell _ ih => simpa [Phrase.KeepsLayout] using Node.KeepsLayout.sequence ih
  | nextCell _ _ ihcell ihrows =>
      simp only [Phrase.KeepsLayout, List.forall_mem_cons] at ihrows ⊢
      exact ⟨⟨.sequence ihcell, ihrows.1⟩, ihrows.2⟩
  | nextRow _ _ ihcell ihrows =>
      simp only [Phrase.KeepsLayout, List.forall_mem_cons] at ihrows ⊢
      exact ⟨⟨.sequence ihcell, by simp⟩, ihrows⟩

/-! ## Conversions -/

/-- Both conversions succeed with the same text, or both fail for the same
cause, which may be found at different places. -/
inductive SameOutcome : Except FormulaError String → Except FormulaError String → Prop
  | success (text : String) : SameOutcome (.ok text) (.ok text)
  | failure {first second : FormulaError} (hcause : first.cause = second.cause) :
      SameOutcome (.error first) (.error second)

theorem Settings.sameOutcome_markup
    {settings : Settings} {formula other : String} {tree : Node}
    (hparse : settings.parse formula = .ok tree)
    (hother : settings.parse other = .ok tree.braceScripts)
    (hkeeps : tree.KeepsLayout .builtin) (display : Display) (attributes : Attributes) :
    SameOutcome (settings.markup formula display attributes)
      (settings.markup other display attributes) := by
  have htext : tree.braceScripts.canonicalText = tree.canonicalText :=
    tree.text_braceScripts .canonical
  simp only [Settings.markup, hparse, hother, hkeeps.layout, Settings.mathElement, htext]
  cases tree.layout .builtin { attributes } with
  | error error => exact .failure rfl
  | ok elements => exact .success _

/-- A formula and its canonical text have the same markup, if the text is not
nested too deep, no numerals of the formula are parted and no table ends in a
blank row. -/
theorem sameOutcome_markup_canonicalText
    (settings : Settings) {formula : String} {tree : Node}
    (hparse : settings.parse formula = .ok tree)
    (hrows : ∀ rows ∈ tree.tables, endsInBlankRow rows = false)
    (hnumerals : UnbrokenNumerals (tokenize formula))
    (hlimit : ∀ span, settings.parse tree.canonicalText ≠ .error ⟨span, .limitExceeded⟩)
    (display : Display) (attributes : Attributes) :
    SameOutcome (settings.markup formula display attributes)
      (settings.markup tree.canonicalText display attributes) := by
  obtain ⟨nodes, rfl, hderives⟩ := readTokens_eq_ok_iff.mp hparse
  have hlegible : Legible (tokenize formula) := fun _ => Lexer.isLegible_of_mem_lexemes
  have hfits : (Node.sequence false nodes).Fits (Node.sequence false nodes).braceScripts.nesting :=
    ⟨hrows, Nat.le_refl _⟩
  have hagain := hderives.tokenize_canonicalText ⟨hlegible, hnumerals⟩ hfits.items
  have hread : settings.parse (Node.sequence false nodes).canonicalText =
      .ok (Node.sequence false nodes).braceScripts := by
    rcases parseFormula_of_derives hagain with hok | ⟨span, hexceeded⟩
    · rw [Node.braceScripts, braceScriptsOfAll_eq_map]
      exact hok
    · exact absurd hexceeded (hlimit span)
  have hkeeps : (Node.sequence false nodes).KeepsLayout .builtin :=
    .sequence ((hderives.formed hlegible).keepsLayout .builtin)
  exact Settings.sameOutcome_markup hparse hread hkeeps display attributes

theorem sameOutcome_markup_canonicalText_brace :
    ∃ tree,
      Settings.parse { chemistry := true }
        "\\overbrace\x7bx^2\x7d^n+\\ce\x7bH2O^+\x7d_\\mathrm\x7bd\x7d" = .ok tree ∧
      SameOutcome
        (Settings.markup { chemistry := true }
          "\\overbrace\x7bx^2\x7d^n+\\ce\x7bH2O^+\x7d_\\mathrm\x7bd\x7d" .block ∅)
        (Settings.markup { chemistry := true } tree.canonicalText .block ∅) := by
  have hparse : Settings.parse { chemistry := true }
      "\\overbrace\x7bx^2\x7d^n+\\ce\x7bH2O^+\x7d_\\mathrm\x7bd\x7d" =
        .ok (.sequence false
          [.script .over (.unary .bare "\\overbrace"
              (.sequence true [.script .over (.literal "x") (.literal "2")])) (.literal "n"),
            .literal "+",
            .script .under (.unary .braced "\\ce" (.sequence true
                [.literal "H", .literal "2", .script .over (.literal "O") (.literal "+")]))
              (.unary .braced "\\mathrm" (.sequence true [.literal "d"]))]) := by
    with_unfolding_all rfl
  have hlimit {tree : Node} {text : String}
      (hagain : Settings.parse { chemistry := true } text = .ok tree) (span : Span) :
      Settings.parse { chemistry := true } text ≠ .error ⟨span, .limitExceeded⟩ := by
    rw [hagain]
    exact nofun
  exact ⟨_, hparse, sameOutcome_markup_canonicalText _ hparse (by decide +kernel)
    (by decide +kernel) (hlimit (by with_unfolding_all rfl)) .block ∅⟩

end FormulaMarkup
