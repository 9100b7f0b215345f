import FormulaMarkup.Proofs.ReadNodes
import FormulaMarkup.Proofs.SingleElements

/-!
# Elements with two children

A script, a mark, a stack and a fraction are laid out as elements that need two
children.  They have them, unless something that vanishes stands in one of
their places: the base of a script, the argument of an accent or of a mark, or
one of two arguments.  Nothing else in the layout of a formula goes wrong in
this way, so the elements of a formula are filled exactly if its places are.
-/

namespace FormulaMarkup

/-- The elements that need two children. -/
def LayoutTag.isPair (tag : LayoutTag) : Bool :=
  ["msup", "msub", "mover", "munder", "mfrac"].contains tag.name

@[simp] theorem isPair_stackTag (side : Side) : side.stackTag.isPair = true := by
  cases side <;> decide

@[simp] theorem isPair_scriptTag (side : Side) : side.scriptTag.isPair = true := by
  cases side <;> decide

/-- In the element and below it, every element that needs two children has them. -/
inductive Element.IsFilled : Element → Prop
  | text {tag : TextTag} {attributes : Attributes} {content : String} :
      IsFilled (.text tag attributes content)
  | layout {tag : LayoutTag} {attributes : Attributes} {children : List Element}
      (hpair : tag.isPair = true → children.length = 2)
      (hchildren : ∀ child ∈ children, child.IsFilled) :
      IsFilled (.layout tag attributes children)

def AllFilled (elements : List Element) : Prop := ∀ element ∈ elements, element.IsFilled

@[simp] theorem allFilled_nil : AllFilled [] := by simp [AllFilled]

@[simp] theorem allFilled_cons_iff {element : Element} {rest : List Element} :
    AllFilled (element :: rest) ↔ element.IsFilled ∧ AllFilled rest := by
  simp [AllFilled]

@[simp] theorem allFilled_append_iff {first second : List Element} :
    AllFilled (first ++ second) ↔ AllFilled first ∧ AllFilled second := by
  simp [AllFilled, or_imp, forall_and]

namespace Element

theorem isFilled_layout_iff {tag : LayoutTag} {attributes : Attributes}
    {children : List Element} :
    (Element.layout tag attributes children).IsFilled ↔
      (tag.isPair = true → children.length = 2) ∧ AllFilled children := by
  constructor
  · intro hfilled
    cases hfilled with
    | layout hpair hchildren => exact ⟨hpair, hchildren⟩
  · intro hlayout
    exact .layout hlayout.1 hlayout.2

theorem isFilled_pair_iff {tag : LayoutTag} (htag : tag.isPair = true) (attributes : Attributes)
    (children : List Element) :
    (Element.layout tag attributes children).IsFilled ↔
      children.length = 2 ∧ AllFilled children := by
  rw [isFilled_layout_iff]
  simp [htag]

theorem isFilled_other_iff {tag : LayoutTag} (htag : tag.isPair = false)
    {attributes : Attributes} {children : List Element} :
    (Element.layout tag attributes children).IsFilled ↔ AllFilled children := by
  rw [isFilled_layout_iff]
  simp [htag]

variable {attributes : Attributes} {children : List Element}

@[simp] theorem isFilled_identifier {content : String} :
    (identifier attributes content).IsFilled := .text

@[simp] theorem isFilled_number {content : String} : (number attributes content).IsFilled := .text

@[simp] theorem isFilled_operator {content : String} :
    (operator attributes content).IsFilled := .text

@[simp] theorem isFilled_plainText {content : String} :
    (plainText attributes content).IsFilled := .text

@[simp] theorem isFilled_placeholder : placeholder.IsFilled := .text

@[simp] theorem isFilled_space {width : String} : (space width attributes).IsFilled :=
  (isFilled_other_iff (by decide)).mpr allFilled_nil

@[simp] theorem isFilled_row_iff : (row attributes children).IsFilled ↔ AllFilled children :=
  isFilled_other_iff (by decide)

@[simp] theorem isFilled_enclosure_iff {kind : String} :
    (enclosure kind attributes children).IsFilled ↔ AllFilled children :=
  isFilled_other_iff (by decide)

@[simp] theorem isFilled_table_iff {alignment : Alignment} :
    (table alignment attributes children).IsFilled ↔ AllFilled children :=
  isFilled_other_iff (by decide)

@[simp] theorem isFilled_tableRow_iff : (tableRow children).IsFilled ↔ AllFilled children :=
  isFilled_other_iff (by decide)

@[simp] theorem isFilled_tableCell_iff : (tableCell children).IsFilled ↔ AllFilled children := by
  unfold tableCell
  rw [isFilled_other_iff (by decide)]
  cases children <;> simp

/-- Two lists of which each has an element or none make a pair if both have one. -/
theorem pair_iff {first second : List Element} {firstGone secondGone : Bool}
    (hfirst : first.length = if firstGone then 0 else 1)
    (hsecond : second.length = if secondGone then 0 else 1) :
    (first ++ second).length = 2 ∧ AllFilled (first ++ second) ↔
      (firstGone = false ∧ secondGone = false) ∧ AllFilled first ∧ AllFilled second := by
  rw [List.length_append, hfirst, hsecond, allFilled_append_iff]
  cases firstGone <;> cases secondGone <;> simp

theorem pair_singleton_iff {first : List Element} {gone : Bool} {mark : Element}
    (hfirst : first.length = if gone then 0 else 1) :
    (first ++ [mark]).length = 2 ∧ AllFilled (first ++ [mark]) ↔
      gone = false ∧ AllFilled first ∧ mark.IsFilled := by
  have hmark : [mark].length = if false then 0 else 1 := rfl
  rw [pair_iff hfirst hmark]
  simp

end Element

/-! ## Places -/

namespace Node

/-- The nodes directly below a node whose single elements it needs. -/
def places : Node → List Node
  | .script _ base _ => [base]
  | .unary _ name argument =>
      match (Registry.builtin.get? name).map Entry.handler with
      | some .accent => [argument]
      | some .mark => [argument]
      | _ => []
  | .binary _ first second => [first, second]
  | _ => []

/-- Nothing that vanishes stands in a place that is laid out. -/
def FillsPlaces (tree : Node) : Prop :=
  ∀ node, tree.Contains (fun node => ¬ node.IsTextual) node →
    ∀ part ∈ node.places, part.vanishes .builtin = false

theorem fillsPlaces_iff {node : Node} :
    node.FillsPlaces ↔
      (∀ part ∈ node.places, part.vanishes .builtin = false) ∧
        (¬ node.IsTextual → ∀ part ∈ node.parts, part.FillsPlaces) := by
  constructor
  · intro hnode
    refine ⟨hnode node (.self node), ?_⟩
    intro hopen part hpart found hfound
    exact hnode found (.inPart hopen hpart hfound)
  · intro hnode found hfound
    cases hfound with
    | self => exact hnode.1
    | inPart hopen hpart hfound => exact hnode.2 hopen _ hpart found hfound

theorem fillsPlaces_literal (value : String) : (literal value).FillsPlaces := by
  rw [fillsPlaces_iff]
  simp [places, parts]

theorem fillsPlaces_sequence_iff {curly : Bool} {items : List Node} :
    (sequence curly items).FillsPlaces ↔ ∀ item ∈ items, item.FillsPlaces := by
  rw [fillsPlaces_iff]
  simp [places, parts, IsTextual]

theorem fillsPlaces_script_iff {side : Side} {base attached : Node} :
    (script side base attached).FillsPlaces ↔
      base.vanishes .builtin = false ∧ base.FillsPlaces ∧ attached.FillsPlaces := by
  rw [fillsPlaces_iff]
  simp [places, parts, IsTextual]

theorem fillsPlaces_unary_iff {style : ArgumentStyle} {name : String} {argument : Node}
    (htextual : ¬ (unary style name argument).IsTextual) :
    (unary style name argument).FillsPlaces ↔
      (∀ part ∈ (unary style name argument).places, part.vanishes .builtin = false) ∧
        argument.FillsPlaces := by
  rw [fillsPlaces_iff]
  simp [parts, htextual]

theorem fillsPlaces_unary_iff_argument {style : ArgumentStyle} {name : String} {argument : Node}
    (htextual : ¬ (unary style name argument).IsTextual)
    (hplaces : (unary style name argument).places = []) :
    (unary style name argument).FillsPlaces ↔ argument.FillsPlaces := by
  rw [fillsPlaces_unary_iff htextual]
  simp [hplaces]

theorem fillsPlaces_of_isTextual {style : ArgumentStyle} {name : String} {argument : Node}
    (htextual : (unary style name argument).IsTextual)
    (hplaces : (unary style name argument).places = []) :
    (unary style name argument).FillsPlaces := by
  rw [fillsPlaces_iff]
  simp [hplaces, htextual]

theorem fillsPlaces_binary_iff {name : String} {first second : Node} :
    (binary name first second).FillsPlaces ↔
      (first.vanishes .builtin = false ∧ second.vanishes .builtin = false) ∧
        first.FillsPlaces ∧ second.FillsPlaces := by
  rw [fillsPlaces_iff]
  simp [places, parts, IsTextual]

theorem fillsPlaces_table_iff {environment : Environment} {rows : List (List Node)} :
    (table environment rows).FillsPlaces ↔ ∀ row ∈ rows, ∀ cell ∈ row, cell.FillsPlaces := by
  rw [fillsPlaces_iff]
  simp only [places, parts, IsTextual, not_false_eq_true, forall_const, List.not_mem_nil,
    false_implies, true_and]
  exact List.forall_mem_flatten

theorem vanishes_eq_false_of_isScript (registry : Registry) {node : Node}
    (hscript : node.peel.isScript = true) : node.vanishes registry = false := by
  fun_induction peel node with
  | case1 curly only ih => exact ih hscript
  | case2 node hsequence =>
      cases node with
      | script => rfl
      | literal | sequence | unary | binary | table => cases hscript

end Node

/-! ## Layouts that are filled under a condition -/

/-- If there is a layout, its elements are filled exactly if the condition holds. -/
def FilledIff (condition : Prop) (layout : Layout) : Prop :=
  ∀ elements, layout = .ok elements → (AllFilled elements ↔ condition)

namespace FilledIff

variable {condition other : Prop} {layout : Layout}

theorem congr (hlayout : FilledIff condition layout) (hiff : condition ↔ other) :
    FilledIff other layout :=
  propext hiff ▸ hlayout

theorem ok {elements : List Element} (hfilled : AllFilled elements ↔ condition) :
    FilledIff condition (.ok elements) := by
  intro others hothers
  cases hothers
  exact hfilled

theorem bind {next : List Element → Layout} :
    (∀ elements, layout = .ok elements → FilledIff condition (next elements)) →
    FilledIff condition
      (match layout with
        | .error error => .error error
        | .ok elements => next elements) := by
  intro hnext
  cases layout with
  | error failure =>
      intro elements helements
      cases helements
  | ok elements => exact hnext elements rfl

/-- What is made of the elements of a layout, if it is filled whenever they are. -/
theorem map {f : List Element → List Element}
    (hf : ∀ elements, AllFilled (f elements) ↔ AllFilled elements) :
    FilledIff condition layout →
    FilledIff condition
      (match layout with
        | .error error => .error error
        | .ok elements => .ok (f elements)) := by
  intro hlayout
  apply bind
  intro elements helements
  exact ok ((hf elements).trans (hlayout elements helements))

theorem layoutAll {α : Type} {conditions : α → Prop} {layouts : α → Layout} {members : List α}
    (hmembers : ∀ member ∈ members, FilledIff (conditions member) (layouts member)) :
    FilledIff (∀ member ∈ members, conditions member) (layoutAll layouts members) := by
  induction members with
  | nil => exact ok (by simp)
  | cons member rest ih =>
      rw [List.forall_mem_cons] at hmembers
      rw [List.forall_mem_cons]
      apply bind
      intro first hfirst
      apply bind
      intro others hothers
      have hmember := hmembers.1 first hfirst
      have hrest := ih hmembers.2 others hothers
      exact ok (by rw [allFilled_append_iff, hmember, hrest])

end FilledIff

/-- If there is a layout, it is one element, or none if it is gone, and it is
filled exactly if the condition holds. -/
def StandsInPlace (gone : Bool) (condition : Prop) (layout : Layout) : Prop :=
  ∀ elements, layout = .ok elements →
    (elements.length = if gone then 0 else 1) ∧ (AllFilled elements ↔ condition)

/-- An element that is made of what stands in two places. -/
theorem FilledIff.pair {f : List Element → Element} {first second : Layout}
    {firstGone secondGone : Bool} {firstCondition secondCondition : Prop}
    (hf : ∀ parts, (f parts).IsFilled ↔ parts.length = 2 ∧ AllFilled parts) :
    StandsInPlace firstGone firstCondition first →
    StandsInPlace secondGone secondCondition second →
    FilledIff ((firstGone = false ∧ secondGone = false) ∧ firstCondition ∧ secondCondition)
      (match first with
        | .error error => .error error
        | .ok elements =>
            match second with
            | .error error => .error error
            | .ok others => .ok [f (elements ++ others)]) := by
  intro hfirst hsecond
  apply bind
  intro elements helements
  apply bind
  intro others hothers
  apply ok
  obtain ⟨hlength, hfilled⟩ := hfirst elements helements
  obtain ⟨hotherLength, hotherFilled⟩ := hsecond others hothers
  rw [allFilled_cons_iff, hf, Element.pair_iff hlength hotherLength, hfilled, hotherFilled]
  simp

/-- The layouts of a node are filled exactly if its places are. -/
structure Node.FilledByPlaces (node : Node) : Prop where
  layout : ∀ context, FilledIff node.FillsPlaces ((node.operand .builtin).layout context)
  single : ∀ context, FilledIff node.FillsPlaces ((node.operand .builtin).single context)

theorem Node.FilledByPlaces.standsInPlace {node : Node} (hnode : node.FilledByPlaces)
    (context : Context) :
    StandsInPlace (node.vanishes .builtin) node.FillsPlaces
      ((node.operand .builtin).single context) := by
  intro elements hsingle
  exact ⟨node.length_single .builtin hsingle, hnode.single context elements hsingle⟩

/-! ## Commands -/

theorem allFilled_literalLayout {value : String}
    (hcommand : LiteralClass.of value = .command → shape? value = none) {context : Context}
    {elements : List Element} (hlayout : literalLayout .builtin value context = .ok elements) :
    AllFilled elements := by
  unfold literalLayout at hlayout
  cases hclass : LiteralClass.of value with
  | letter | digit =>
      simp only [hclass] at hlayout
      cases hlayout
      simp
  | symbol =>
      simp only [hclass, symbolLayout] at hlayout
      split at hlayout
      all_goals
        cases hlayout
        simp
  | command =>
      cases hentry : Registry.builtin.get? value with
      | none => simp [hclass, commandLayout, hentry] at hlayout
      | some entry =>
          have hserves := serves_of_get? hentry
          rw [hcommand hclass] at hserves
          simp only [hclass, commandLayout, hentry] at hlayout
          cases hserves with
          | alone halone =>
              cases halone with
              | identifier | operator | functionName | space =>
                  cases hlayout
                  simp

section Commands

variable {style : ArgumentStyle} {name : String} {entry : Entry} {argument first second : Node}

theorem filledIff_accentLayout (name : String) {c : Char} {stretchy : Bool}
    (hargument : argument.FilledByPlaces) (context : Context) :
    FilledIff (argument.vanishes .builtin = false ∧ argument.FillsPlaces)
      (accentLayout ⟨.accent, some c, .accent stretchy⟩ name (argument.operand .builtin)
        context) := by
  apply FilledIff.bind
  intro base hbase
  apply FilledIff.ok
  obtain ⟨hlength, hfilled⟩ := hargument.standsInPlace context base hbase
  rw [allFilled_cons_iff, Element.isFilled_pair_iff (by decide),
    Element.pair_singleton_iff hlength, hfilled]
  simp

theorem filledIff_markLayout (name : String) {c : Char} {side : Side}
    (hargument : argument.FilledByPlaces) (context : Context) :
    FilledIff (argument.vanishes .builtin = false ∧ argument.FillsPlaces)
      (markLayout ⟨.mark, some c, .stack side⟩ name (argument.operand .builtin) context) := by
  apply FilledIff.bind
  intro elements helements
  apply FilledIff.ok
  obtain ⟨hlength, hfilled⟩ := hargument.standsInPlace context elements helements
  rw [Node.operand_node, allFilled_cons_iff, Element.isFilled_row_iff, allFilled_cons_iff,
    Element.isFilled_pair_iff (isPair_stackTag side)]
  -- A base with scripts is put in a row, which is there whatever it holds, but such a base does
  -- not vanish.
  by_cases hscript : argument.peel.isScript = true
  · have hstays := Node.vanishes_eq_false_of_isScript .builtin hscript
    rw [if_pos hscript]
    simp [hstays, hfilled]
  · rw [if_neg hscript, Element.pair_singleton_iff hlength, hfilled]
    simp

theorem Entry.TakesOne.filledIff (htakes : entry.TakesOne)
    (hentry : Registry.builtin.get? name = some entry)
    (htextual : ¬ (Node.unary style name argument).IsTextual)
    (hargument : argument.FilledByPlaces) (context : Context) :
    FilledIff (Node.unary style name argument).FillsPlaces
      (entry.handler.layout .builtin entry name (.one (argument.operand .builtin)) context) := by
  cases htakes with
  | accent =>
      rw [Node.fillsPlaces_unary_iff htextual]
      simp only [Node.places, hentry, Option.map_some, List.forall_mem_singleton]
      exact filledIff_accentLayout name hargument context
  | mark =>
      rw [Node.fillsPlaces_unary_iff htextual]
      simp only [Node.places, hentry, Option.map_some, List.forall_mem_singleton]
      exact filledIff_markLayout name hargument context
  | boldSymbol | font =>
      rw [Node.fillsPlaces_unary_iff_argument htextual (by simp [Node.places, hentry])]
      exact hargument.single _
  | enclosure =>
      rw [Node.fillsPlaces_unary_iff_argument htextual (by simp [Node.places, hentry])]
      exact FilledIff.map (by simp) (hargument.single _)
  | root =>
      rw [Node.fillsPlaces_unary_iff_argument htextual (by simp [Node.places, hentry])]
      have hroot (elements : List Element) :
          AllFilled [.layout .root context.attributes elements] ↔ AllFilled elements := by
        rw [allFilled_cons_iff, Element.isFilled_other_iff (by decide)]
        simp
      exact FilledIff.map hroot (hargument.layout _)

/-- The commands whose argument is not laid out make text of it. -/
theorem Handler.allFilled_layout {handler : Handler}
    (hhandler : handler = .text ∨ handler = .operatorName ∨ handler = .delimiter)
    {operand : Operand} {context : Context} {elements : List Element}
    (hlayout : handler.layout .builtin entry name (.one operand) context = .ok elements) :
    AllFilled elements := by
  rcases hhandler with rfl | rfl | rfl
  · simp only [Handler.layout, textLayout] at hlayout
    repeat' split at hlayout
    all_goals cases hlayout
    simp
  · simp only [Handler.layout, operatorNameLayout] at hlayout
    repeat' split at hlayout
    all_goals cases hlayout
    all_goals simp
  · simp only [Handler.layout, delimiterLayout] at hlayout
    repeat' split at hlayout
    all_goals cases hlayout
    all_goals simp

theorem isFilled_fractionElement_iff (fraction : FractionStyle) (attributes : Attributes)
    (parts : List Element) :
    (fractionElement fraction attributes parts).IsFilled ↔
      parts.length = 2 ∧ AllFilled parts := by
  have hpair : LayoutTag.fraction.isPair = true := by decide
  cases fraction with
  | inherited | display | text => exact Element.isFilled_pair_iff hpair _ parts
  | binomial => simp [fractionElement, Element.isFilled_pair_iff hpair]

theorem Entry.TakesTwo.filledIff (htakes : entry.TakesTwo) (hfirst : first.FilledByPlaces)
    (hsecond : second.FilledByPlaces) (context : Context) :
    FilledIff (Node.binary name first second).FillsPlaces
      (entry.handler.layout .builtin entry name
        (.two (first.operand .builtin) (second.operand .builtin)) context) := by
  rw [Node.fillsPlaces_binary_iff]
  cases htakes with
  | @stack codepoint side =>
      have hstack := Element.isFilled_pair_iff (isPair_stackTag side) context.attributes
      have hpair := FilledIff.pair hstack (hsecond.standsInPlace context.withoutAttributes)
        (hfirst.standsInPlace context.withoutAttributes)
      -- The base, which is the second argument, is laid out first.
      exact hpair.congr (by simp only [and_comm])
  | @fraction codepoint style =>
      exact FilledIff.pair (isFilled_fractionElement_iff style context.attributes)
        (hfirst.standsInPlace _) (hsecond.standsInPlace _)

end Commands

/-! ## Trees -/

theorem Node.filledByPlaces_of_layout {node : Node} {layout : Layoutable}
    (hoperand : node.operand .builtin = .ofNode node layout)
    (hlayout : ∀ context, FilledIff node.FillsPlaces (layout context)) :
    node.FilledByPlaces := by
  constructor
  all_goals
    rw [hoperand]
    exact hlayout

theorem Node.filledByPlaces_textual {style : ArgumentStyle} {name : String} {argument : Node}
    {entry : Entry} (hentry : Registry.builtin.get? name = some entry)
    (hhandler : entry.handler = .text ∨ entry.handler = .operatorName ∨
      entry.handler = .delimiter)
    (htextual : (Node.unary style name argument).IsTextual) :
    (Node.unary style name argument).FilledByPlaces := by
  have hplaces : (Node.unary style name argument).places = [] := by
    rcases hhandler with hkind | hkind | hkind <;> simp [Node.places, hentry, hkind]
  have hfills := Node.fillsPlaces_of_isTextual htextual hplaces
  apply Node.filledByPlaces_of_layout rfl
  intro context elements hlayout
  simp only [commandLayout, hentry] at hlayout
  exact iff_of_true (Handler.allFilled_layout hhandler hlayout) hfills

theorem Node.filledByPlaces_sequence {curly : Bool} {items : List Node}
    (hitems : ∀ item ∈ items, item.FilledByPlaces) :
    (Node.sequence curly items).FilledByPlaces := by
  have hitem (context : Context) : ∀ item ∈ items,
      FilledIff item.FillsPlaces ((item.operand .builtin).asItem context) := by
    intro item hitem
    unfold Operand.asItem
    split
    · exact (hitems item hitem).single context
    · exact (hitems item hitem).layout context
  have hlayout (context : Context) : FilledIff (∀ item ∈ items, item.FillsPlaces)
      (itemsLayout (items.map (Node.operand .builtin)) context) := by
    cases items with
    | nil => exact .ok (by simp)
    | cons first rest =>
        rw [List.map_cons, itemsLayout, ← List.map_cons, layoutAll_map]
        · exact .layoutAll (hitem context)
        · simp
  constructor
  all_goals
    intro context
    rw [Node.fillsPlaces_sequence_iff, Node.operand, nodeOperands_eq_map]
  · exact hlayout context
  · cases items with
    | nil => exact .ok (by simp)
    | cons first rest =>
        cases rest with
        | nil =>
            rw [List.forall_mem_singleton]
            exact (hitems first List.mem_cons_self).single context
        | cons second rest => exact FilledIff.map (by simp) (hlayout context)

theorem isOne_attachedLayout (attached : Operand) (context : Context) :
    IsOne (attachedLayout attached context) := by
  unfold attachedLayout
  split
  · exact .ok _
  · exact .bind fun elements => .ok _

theorem filledIff_attachedLayout {attached : Node} (hattached : attached.FilledByPlaces)
    (context : Context) :
    FilledIff attached.FillsPlaces (attachedLayout (attached.operand .builtin) context) := by
  unfold attachedLayout
  rw [Node.operand_node]
  by_cases hempty : attached.isEmptySequence = true
  · rw [if_pos hempty]
    have hfills : attached.FillsPlaces := by
      unfold Node.isEmptySequence at hempty
      split at hempty
      · exact Node.fillsPlaces_sequence_iff.mpr (by simp)
      · cases hempty
    exact .ok (by simp [hfills])
  · rw [if_neg hempty]
    exact FilledIff.map (by simp) (hattached.layout _)

theorem filledIff_scriptLayout {side : Side} {base attached : Node}
    (hbase : base.FilledByPlaces) (hattached : attached.FilledByPlaces) (context : Context) :
    FilledIff (Node.script side base attached).FillsPlaces
      (scriptLayout .builtin side (base.operand .builtin) (attached.operand .builtin) context) := by
  have hscript : StandsInPlace false attached.FillsPlaces
      (attachedLayout (attached.operand .builtin) context) := by
    intro elements hlayout
    exact ⟨isOne_attachedLayout _ _ elements hlayout,
      filledIff_attachedLayout hattached context elements hlayout⟩
  have htag : (if Registry.builtin.stackingSide? (base.operand .builtin).node = some side then
      side.stackTag else side.scriptTag).isPair = true := by
    split <;> simp
  have hpair := FilledIff.pair (Element.isFilled_pair_iff htag ∅) (hbase.standsInPlace context)
    hscript
  rw [Node.fillsPlaces_script_iff]
  exact hpair.congr (by simp)

theorem filledIff_chemicalLayout (pieces : List Piece)
    (hpieces : ∀ piece ∈ pieces, ∀ context,
      FilledIff piece.node.FillsPlaces (piece.layout context))
    (context : Context) :
    FilledIff (∀ piece ∈ pieces, piece.node.FillsPlaces) (chemicalLayout pieces context) := by
  rw [← forall_chemicalSegments_iff fun value _ => Node.fillsPlaces_literal value]
  refine FilledIff.map (by simp) (.layoutAll ?_)
  intro segment hsegment
  cases segment with
  | arrow symbol => exact .ok (by simp [ChemicalSegment.Satisfies])
  | atom symbol count =>
      cases count with
      | none => exact .ok (by simp [ChemicalSegment.Satisfies])
      | some number =>
          exact .ok (by simp [ChemicalSegment.Satisfies, Element.isFilled_layout_iff])
  | other piece => exact hpieces piece (mem_of_chemicalSegments hsegment) _

theorem filledIff_environmentLayout {environment : Environment} {rows : List (List Node)}
    (hcells : ∀ row ∈ rows, ∀ cell ∈ row, cell.FilledByPlaces) (context : Context) :
    FilledIff (Node.table environment rows).FillsPlaces
      (environmentLayout .builtin environment (rowLayoutables .builtin rows) context) := by
  have hrow (inner : Context) : ∀ row ∈ rows, FilledIff (∀ cell ∈ row, cell.FillsPlaces)
      (rowLayout inner (row.map (Node.layout .builtin))) := by
    intro row hmem
    refine FilledIff.map (by simp) ?_
    rw [layoutAll_map]
    apply FilledIff.layoutAll
    intro cell hcell
    exact FilledIff.map (by simp) ((hcells row hmem cell hcell).layout inner)
  have hfence (symbol : Option Char) : AllFilled (fence symbol) := by
    cases symbol <;> simp [fence]
  rw [Node.fillsPlaces_table_iff, rowLayoutables_eq_map]
  apply FilledIff.bind
  intro elements helements
  rw [layoutAll_map] at helements
  have hrows := FilledIff.layoutAll (hrow _) elements helements
  split
  · exact .ok (by simp [hrows])
  · exact .ok (by simp [hrows, hfence])

theorem Node.IsRead.filledByPlaces {known : String → Prop} {node : Node}
    (hread : node.IsRead known) : node.FilledByPlaces := by
  induction hread with
  | @literal value hcommand =>
      apply Node.filledByPlaces_of_layout rfl
      intro context elements hlayout
      have hfilled := allFilled_literalLayout (fun hclass => (hcommand hclass).2) hlayout
      exact iff_of_true hfilled (Node.fillsPlaces_literal value)
  | sequence _ ih => exact Node.filledByPlaces_sequence ih
  | script _ _ ihbase ihattached =>
      exact Node.filledByPlaces_of_layout rfl (filledIff_scriptLayout ihbase ihattached)
  | @unary style name argument shape _ hshape hone _ ih =>
      obtain ⟨entry, hentry, hserves⟩ := exists_entry_of_shape? hshape
      have htakes (htakes : entry.TakesOne) (hname : name ∉ operatorNameCommands) :
          (Node.unary style name argument).FilledByPlaces := by
        have htextual : ¬ (Node.unary style name argument).IsTextual := by
          rcases hone with rfl | rfl <;> exact Node.not_isTextual hshape (by decide) (by decide) hname
        apply Node.filledByPlaces_of_layout rfl
        intro context
        simp only [commandLayout, hentry]
        exact htakes.filledIff hentry htextual ih context
      cases hserves with
      | braced hname hentry => exact htakes hentry hname
      | bare hentry => exact htakes hentry (not_mem_operatorNameCommands hshape (by decide))
      | operatorName hname =>
          exact Node.filledByPlaces_textual hentry (.inr (.inl rfl)) (.inr (.inl hname))
      | twoBraced | text | chemistry | delimiter => simp at hone
  | @chemistry style name curly items _ hshape _ ih =>
      obtain ⟨entry, hentry, hserves⟩ := exists_entry_of_shape? hshape
      have hname := not_mem_operatorNameCommands hshape (by decide)
      have htextual : ¬ (Node.unary style name (.sequence curly items)).IsTextual :=
        Node.not_isTextual hshape (by decide) (by decide) hname
      apply Node.filledByPlaces_of_layout rfl
      intro context
      have hpieces := Node.pieces_sequence .builtin curly items
      have hchemistry := filledIff_chemicalLayout
        ((Node.sequence curly items).operand .builtin).pieces
        (by simpa [hpieces] using fun item hitem => (ih item hitem).layout) context
      cases hserves with
      | chemistry =>
          rw [Node.fillsPlaces_unary_iff_argument htextual (by simp [Node.places, hentry]),
            Node.fillsPlaces_sequence_iff]
          simp only [commandLayout, hentry]
          exact hchemistry.congr (by simp [hpieces])
  | text _ hshape =>
      obtain ⟨entry, hentry, hserves⟩ := exists_entry_of_shape? hshape
      cases hserves with
      | text => exact Node.filledByPlaces_textual hentry (.inl rfl) (.inl hshape)
  | delimiter _ hshape _ =>
      obtain ⟨entry, hentry, hserves⟩ := exists_entry_of_shape? hshape
      cases hserves with
      | delimiter hname =>
          exact Node.filledByPlaces_textual hentry (.inr (.inr rfl)) (.inr (.inr hname))
  | binary _ hshape _ _ ihfirst ihsecond =>
      apply Node.filledByPlaces_of_layout rfl
      intro context
      obtain ⟨entry, hentry, hserves⟩ := exists_entry_of_shape? hshape
      simp only [commandLayout, hentry]
      cases hserves with
      | twoBraced htakes => exact htakes.filledIff ihfirst ihsecond context
  | table _ ih => exact Node.filledByPlaces_of_layout rfl (filledIff_environmentLayout ih)

/-! ## Formulas -/

theorem Settings.isFilled_mathElement_iff (settings : Settings) (display : Display) (tree : Node)
    (elements : List Element) :
    (settings.mathElement display tree elements).IsFilled ↔ AllFilled elements := by
  have hmath : LayoutTag.math.isPair = false := by decide
  have hsemantics : LayoutTag.semantics.isPair = false := by decide
  unfold Settings.mathElement
  rw [Element.isFilled_other_iff hmath]
  split
  · simp [Element.semantics, Element.isFilled_other_iff hsemantics, Element.IsFilled.text]
  · rfl

theorem Settings.markup_eq_ok_iff {settings : Settings} {formula text : String}
    {display : Display} {attributes : Attributes} :
    settings.markup formula display attributes = .ok text ↔
      ∃ tree elements, settings.parse formula = .ok tree ∧
        tree.layout .builtin { attributes } = .ok elements ∧
        text = (settings.mathElement display tree elements).write := by
  unfold Settings.markup
  cases hparse : settings.parse formula with
  | error failure => simp
  | ok tree => cases hlayout : tree.layout .builtin { attributes } <;> simp [hlayout, eq_comm]

/-- A node that is laid out as a single element is laid out as one element, or
as none if it vanishes; and in the markup of a formula every element that needs
two children has them exactly if nothing that vanishes stands in a place. -/
theorem isFilled_markup_iff (node : Node) (context : Context) (settings : Settings)
    (formula : String) (display : Display) (attributes : Attributes) :
    (∀ elements, node.single .builtin context = .ok elements →
      elements.length = if node.vanishes .builtin then 0 else 1) ∧
    ∀ text, settings.markup formula display attributes = .ok text →
      ∃ tree elements, settings.parse formula = .ok tree ∧
        tree.layout .builtin { attributes } = .ok elements ∧
        text = (settings.mathElement display tree elements).write ∧
        ((settings.mathElement display tree elements).IsFilled ↔ tree.FillsPlaces) := by
  constructor
  · intro elements hsingle
    exact node.length_single .builtin hsingle
  · intro text hmarkup
    obtain ⟨tree, elements, hparse, hlayout, htext⟩ := Settings.markup_eq_ok_iff.mp hmarkup
    have hfilled := (isRead_of_parseFormula hparse).filledByPlaces.layout _ elements hlayout
    refine ⟨tree, elements, hparse, hlayout, htext, ?_⟩
    exact (settings.isFilled_mathElement_iff display tree elements).trans hfilled

theorem isFilled_markup_iff_hat :
    (∃ elements, (Node.unary .bare "\\left" (.literal "(")).single .builtin {} = .ok elements ∧
      elements.length = 1) ∧
    ∃ tree, ({} : Settings).parse "\\hat\x7ba\x7d^\x7b\\left.\x7d" = .ok tree ∧
      tree.FillsPlaces := by
  have hsingle : (Node.unary .bare "\\left" (.literal "(")).single .builtin {} =
      .ok [.operator (fenceAttributes.merge ∅) "("] := by
    with_unfolding_all rfl
  have hdrawn : (Node.unary .bare "\\left" (.literal "(")).vanishes .builtin = false := by
    with_unfolding_all rfl
  have hparse : ({} : Settings).parse "\\hat\x7ba\x7d^\x7b\\left.\x7d" =
      .ok (.sequence false [.script .over (.unary .braced "\\hat" (.sequence true [.literal "a"]))
        (.sequence true [.unary .bare "\\left" (.literal ".")])]) := by
    with_unfolding_all rfl
  have hlayout : (Node.sequence false
      [.script .over (.unary .braced "\\hat" (.sequence true [.literal "a"]))
        (.sequence true [.unary .bare "\\left" (.literal ".")])]).layout .builtin {} =
      .ok [.layout .superscript ∅
        [.layout .over (Dictionary.singleton "accent" "true")
          [.identifier ∅ "a", .operator (Dictionary.singleton "stretchy" "false") "^"],
          .row ∅ []]] := by
    with_unfolding_all rfl
  obtain ⟨hlength, hmarkup⟩ := isFilled_markup_iff (.unary .bare "\\left" (.literal "(")) {} {}
    "\\hat\x7ba\x7d^\x7b\\left.\x7d" .inline ∅
  have hone := hlength _ hsingle
  rw [hdrawn] at hone
  obtain ⟨tree, elements, hread, hok, _, hfilled⟩ :=
    hmarkup _ (Settings.markup_eq_ok_iff.mpr ⟨_, _, hparse, hlayout, rfl⟩)
  cases hparse.symm.trans hread
  cases hlayout.symm.trans hok
  refine ⟨⟨_, hsingle, hone⟩, _, hparse, ?_⟩
  rw [← hfilled, Settings.isFilled_mathElement_iff]
  simp [Element.isFilled_layout_iff]

/-- Where a base vanishes, its script stands alone. -/
theorem markup_script_of_point :
    (Node.unary .bare "\\left" (.literal ".")).single .builtin {} = .ok [] ∧
      ({} : Settings).markup "\\left.^2" .inline ∅ =
        .ok "<math><msup><mrow><mn>2</mn></mrow></msup></math>" := by
  have hpoint : (Node.unary .bare "\\left" (.literal ".")).single .builtin {} = .ok [] := by
    with_unfolding_all rfl
  have hparse : ({} : Settings).parse "\\left.^2" =
      .ok (.sequence false
        [.script .over (.unary .bare "\\left" (.literal ".")) (.literal "2")]) := by
    with_unfolding_all rfl
  have hlayout : (Node.sequence false
      [.script .over (.unary .bare "\\left" (.literal ".")) (.literal "2")]).layout .builtin {} =
        .ok [.layout .superscript ∅ [.row ∅ [.number ∅ "2"]]] := by
    with_unfolding_all rfl
  -- Texts of this length are compared by the kernel only.
  have hwritten :
      (Element.layout .math ∅ [.layout .superscript ∅ [.row ∅ [.number ∅ "2"]]]).write =
        "<math><msup><mrow><mn>2</mn></mrow></msup></math>" := by
    decide +kernel
  exact ⟨hpoint, Settings.markup_eq_ok_iff.mpr ⟨_, _, hparse, hlayout, hwritten.symm⟩⟩

end FormulaMarkup
