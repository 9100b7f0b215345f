import FormulaMarkup.Proofs.BareMarkup

/-!
# The structure of layouts

A context decides on attributes, and it must not decide on anything else.
What is left of markup without its attributes is its structure; two contexts
give the same tree the same structure, or make it fail in the same way.

Every handler turns operands whose layouts have the same structure in all
contexts into such a layout again.  Handlers that look at what has been laid
out look only at whether there is anything, and the segments of a chemical
formula are found by looking at its nodes and not at their layouts.
-/

namespace FormulaMarkup

/-! ## Layouts of the same structure -/

/-- Both layouts fail for the same reason, or they differ in attributes only. -/
inductive SameStructure : Layout → Layout → Prop
  | failure (reason : LayoutError) : SameStructure (.error reason) (.error reason)
  | success {first second : List Element}
      (helements : first.map Element.bare = second.map Element.bare) :
      SameStructure (.ok first) (.ok second)

theorem SameStructure.refl (layout : Layout) : SameStructure layout layout := by
  cases layout with
  | error reason => exact .failure reason
  | ok elements => exact .success rfl

/-- What is made of two layouts in the same way. -/
theorem SameStructure.bind
    {first second : Layout} {thenFirst thenSecond : List Element → Layout} :
    SameStructure first second →
    (∀ elements others, elements.map Element.bare = others.map Element.bare →
      SameStructure (thenFirst elements) (thenSecond others)) →
    SameStructure
      (match first with
        | .error reason => .error reason
        | .ok elements => thenFirst elements)
      (match second with
        | .error reason => .error reason
        | .ok elements => thenSecond elements) := by
  intro hlayouts hthen
  cases hlayouts with
  | failure reason => exact .failure reason
  | success helements => exact hthen _ _ helements

theorem SameStructure.layoutAll
    {α : Type} {first second : α → Layout} {members : List α}
    (hmembers : ∀ member ∈ members, SameStructure (first member) (second member)) :
    SameStructure (layoutAll first members) (layoutAll second members) := by
  induction members with
  | nil => exact .success rfl
  | cons member rest ih =>
      rw [List.forall_mem_cons] at hmembers
      refine hmembers.1.bind fun elements others helements => ?_
      refine (ih hmembers.2).bind fun rests otherRests hrests => ?_
      exact .success (by simp [helements, hrests])

/-- The structure of a layout does not depend on the context. -/
def IsStable (layout : Layoutable) : Prop :=
  ∀ first second, SameStructure (layout first) (layout second)

structure Operand.IsStable (operand : Operand) : Prop where
  layout : FormulaMarkup.IsStable operand.layout
  single : FormulaMarkup.IsStable operand.single
  pieces : ∀ piece ∈ operand.pieces, FormulaMarkup.IsStable piece.layout

inductive Operands.AreStable : Operands → Prop
  | none : AreStable .none
  | one {argument : Operand} (hargument : argument.IsStable) : AreStable (.one argument)
  | two {first second : Operand} (hfirst : first.IsStable) (hsecond : second.IsStable) :
      AreStable (.two first second)
  | grid {rows : List (List Layoutable)} (hrows : ∀ row ∈ rows, ∀ cell ∈ row, IsStable cell) :
      AreStable (.grid rows)

/-! ## Handlers -/

section Handlers

variable {entry : Entry} {name : String}

theorem isStable_const (layout : Layout) : IsStable fun _ => layout := by
  intro first second
  exact .refl _

theorem identifierLayout_stable : IsStable (identifierLayout entry name) := by
  intro first second
  unfold identifierLayout
  split
  · exact .success rfl
  · exact .refl _

theorem operatorLayout_stable : IsStable (operatorLayout entry name) := by
  intro first second
  unfold operatorLayout
  split
  · exact .success rfl
  · exact .refl _

theorem functionNameLayout_stable : IsStable (functionNameLayout name) := by
  intro first second
  exact .success rfl

theorem spaceLayout_stable : IsStable (spaceLayout entry name) := by
  intro first second
  unfold spaceLayout
  split
  · exact .success rfl
  · exact .refl _

theorem textLayout_stable {argument : Operand} : IsStable (textLayout entry name argument) := by
  intro first second
  unfold textLayout
  split
  · split
    · exact .success rfl
    · exact .refl _
  · exact .refl _

theorem operatorNameLayout_stable {argument : Operand} :
    IsStable (operatorNameLayout name argument) := by
  intro first second
  unfold operatorNameLayout
  split
  · split
    · exact .refl _
    · exact .success rfl
  · exact .refl _

theorem delimiterLayout_stable (registry : Registry) {argument : Operand} :
    IsStable (delimiterLayout registry name argument) := by
  intro first second
  unfold delimiterLayout
  split
  · split
    · exact .refl _
    · exact .refl _
    · exact .success rfl
  · exact .refl _

theorem fontLayout_stable {argument : Operand} (hargument : argument.IsStable) :
    IsStable (fontLayout entry name argument) := by
  intro first second
  unfold fontLayout
  split
  · exact hargument.single _ _
  · exact .refl _

theorem accentLayout_stable {argument : Operand} (hargument : argument.IsStable) :
    IsStable (accentLayout entry name argument) := by
  intro first second
  unfold accentLayout
  split
  · refine (hargument.single first second).bind fun elements others helements => ?_
    split
    · exact .success (by simp [helements])
    · exact .refl _
  · exact .refl _

theorem markLayout_stable {argument : Operand} (hargument : argument.IsStable) :
    IsStable (markLayout entry name argument) := by
  intro first second
  unfold markLayout
  split
  · refine (hargument.single first second).bind fun elements others helements => ?_
    cases entry.codepoint with
    | none => exact .refl _
    | some c =>
        refine .success ?_
        by_cases hscript : argument.node.peel.isScript = true
        · simp [Element.row, hscript, helements]
        · simp [Element.row, hscript, helements]
  · exact .refl _

theorem stackLayout_stable
    {mark base : Operand} (hmark : mark.IsStable) (hbase : base.IsStable) :
    IsStable (stackLayout entry name mark base) := by
  intro first second
  unfold stackLayout
  split
  · refine (hbase.single _ _).bind fun elements others helements => ?_
    refine (hmark.single _ _).bind fun marks otherMarks hmarks => ?_
    exact .success (by simp [helements, hmarks])
  · exact .refl _

theorem Element.bare_tableCell (children : List Element) :
    (Element.tableCell children).bare = .tableCell (children.map Element.bare) := by
  cases children with
  | nil => simp [tableCell, placeholder, identifier]
  | cons element rest => simp [tableCell]

theorem Element.bare_tableRow (cells : List Element) :
    (Element.tableRow cells).bare = .tableRow (cells.map Element.bare) := by
  simp [tableRow]

theorem cellLayout_sameStructure
    {first second : Context} {cell : Layoutable} (hcell : IsStable cell) :
    SameStructure (cellLayout first cell) (cellLayout second cell) := by
  refine (hcell first second).bind fun elements others helements => ?_
  exact .success (by simp [Element.bare_tableCell, helements])

theorem rowLayout_sameStructure
    {first second : Context} {row : List Layoutable} (hrow : ∀ cell ∈ row, IsStable cell) :
    SameStructure (rowLayout first row) (rowLayout second row) := by
  have hcells : SameStructure (layoutAll (cellLayout first) row)
      (layoutAll (cellLayout second) row) :=
    .layoutAll fun cell hcell => cellLayout_sameStructure (hrow cell hcell)
  refine hcells.bind fun elements others helements => ?_
  exact .success (by simp [Element.bare_tableRow, helements])

theorem tableLayout_stable
    {rows : List (List Layoutable)} (hrows : ∀ row ∈ rows, ∀ cell ∈ row, IsStable cell) :
    IsStable (tableLayout entry name rows) := by
  intro first second
  unfold tableLayout
  split
  · next style _ =>
      have hlayouts : SameStructure
          (layoutAll (rowLayout first.withoutAttributes.inTable) rows)
          (layoutAll (rowLayout second.withoutAttributes.inTable) rows) :=
        .layoutAll fun row hrow => rowLayout_sameStructure (hrows row hrow)
      refine hlayouts.bind fun elements others helements => ?_
      by_cases hfences : (style.opening.isNone && style.closing.isNone) = true
      · simp only [hfences, if_true]
        exact .success (by simp [Element.table, helements])
      · simp only [hfences]
        exact .success (by simp [Element.table, Element.row, helements])
  · exact .refl _

theorem enclosureLayout_stable {argument : Operand} (hargument : argument.IsStable) :
    IsStable (enclosureLayout entry name argument) := by
  intro first second
  unfold enclosureLayout
  split
  · refine (hargument.single _ _).bind fun elements others helements => ?_
    exact .success (by simp [Element.enclosure, helements])
  · exact .refl _

theorem bare_fractionElement_congr
    (style : FractionStyle) {attributes otherAttributes : Attributes}
    {parts others : List Element} (hparts : parts.map Element.bare = others.map Element.bare) :
    (fractionElement style attributes parts).bare =
      (fractionElement style otherAttributes others).bare := by
  cases style <;> simp [fractionElement, Element.row, Element.operator, hparts]

theorem fractionLayout_stable
    {numerator denominator : Operand} (hnumerator : numerator.IsStable)
    (hdenominator : denominator.IsStable) :
    IsStable (fractionLayout entry name numerator denominator) := by
  intro first second
  unfold fractionLayout
  split
  · next style _ =>
      refine (hnumerator.single _ _).bind fun upper otherUpper hupper => ?_
      refine (hdenominator.single _ _).bind fun lower otherLower hlower => ?_
      have hparts : (upper ++ lower).map Element.bare =
          (otherUpper ++ otherLower).map Element.bare := by
        simp [hupper, hlower]
      exact .success (congrArg (fun element => [element]) (bare_fractionElement_congr style hparts))
  · exact .refl _

theorem rootLayout_stable {argument : Operand} (hargument : argument.IsStable) :
    IsStable (rootLayout argument) := by
  intro first second
  refine (hargument.layout _ _).bind fun elements others helements => ?_
  exact .success (by simp [helements])

theorem mem_of_dropLiterals
    {literals : List String} {pieces rest : List Piece} {piece : Piece}
    (hdrop : dropLiterals literals pieces = some rest) (hmem : piece ∈ rest) :
    piece ∈ pieces := by
  induction literals generalizing pieces with
  | nil =>
      cases hdrop
      exact hmem
  | cons literal literals ih =>
      cases pieces with
      | nil => cases hdrop
      | cons first others =>
          simp only [dropLiterals] at hdrop
          split at hdrop
          · exact List.mem_cons_of_mem _ (ih hdrop)
          · cases hdrop

theorem mem_of_splitArrow
    {pieces rest : List Piece} {symbol : String} {piece : Piece}
    (hsplit : splitArrow pieces = some (symbol, rest)) (hmem : piece ∈ rest) :
    piece ∈ pieces := by
  obtain ⟨⟨literals, arrow⟩, _, harrow⟩ := List.exists_of_findSome?_eq_some hsplit
  obtain ⟨after, hdrop, hafter⟩ := Option.map_eq_some_iff.mp harrow
  cases hafter
  exact mem_of_dropLiterals hdrop hmem

theorem mem_of_splitSmallLetters
    {pieces : List Piece} {piece : Piece} (hmem : piece ∈ (splitSmallLetters pieces).2) :
    piece ∈ pieces := by
  induction pieces with
  | nil => exact hmem
  | cons first others ih =>
      simp only [splitSmallLetters] at hmem
      split at hmem
      · split at hmem
        · exact List.mem_cons_of_mem _ (ih hmem)
        · exact hmem
      · exact hmem

theorem mem_of_splitCount
    {pieces : List Piece} {piece : Piece} (hmem : piece ∈ (splitCount pieces).2) :
    piece ∈ pieces := by
  cases pieces with
  | nil => exact hmem
  | cons first others =>
      simp only [splitCount] at hmem
      split at hmem
      · split at hmem
        · exact List.mem_cons_of_mem _ hmem
        · exact hmem
      · exact hmem

theorem mem_of_splitSegment
    {first piece : Piece} {rest : List Piece} (hmem : piece ∈ (splitSegment first rest).2) :
    piece ∈ first :: rest := by
  unfold splitSegment at hmem
  split at hmem
  · next harrow => exact mem_of_splitArrow harrow hmem
  · split at hmem
    · split at hmem
      · exact List.mem_cons_of_mem _ (mem_of_splitSmallLetters (mem_of_splitCount hmem))
      · exact List.mem_cons_of_mem _ hmem
    · exact List.mem_cons_of_mem _ hmem

theorem eq_of_splitSegment
    {first piece : Piece} {rest : List Piece} (hother : (splitSegment first rest).1 = .other piece) :
    piece = first := by
  unfold splitSegment at hother
  split at hother
  · cases hother
  · split at hother
    · split at hother
      · cases hother
      · cases hother
        rfl
    · cases hother
      rfl

theorem mem_of_chemicalSegments
    {pieces : List Piece} {piece : Piece} (hmem : .other piece ∈ chemicalSegments pieces) :
    piece ∈ pieces := by
  fun_induction chemicalSegments pieces with
  | case1 => cases hmem
  | case2 first rest ih =>
      rcases List.mem_cons.mp hmem with hfirst | hlater
      · exact eq_of_splitSegment hfirst.symm ▸ List.mem_cons_self
      · exact mem_of_splitSegment (ih hlater)

theorem chemicalLayout_stable
    {pieces : List Piece} (hpieces : ∀ piece ∈ pieces, IsStable piece.layout) :
    IsStable (chemicalLayout pieces) := by
  intro first second
  have hsegments : SameStructure
      (layoutAll (ChemicalSegment.layout first.withoutAttributes.inChemistry)
        (chemicalSegments pieces))
      (layoutAll (ChemicalSegment.layout second.withoutAttributes.inChemistry)
        (chemicalSegments pieces)) := by
    refine .layoutAll fun segment hsegment => ?_
    cases segment with
    | arrow symbol => exact .refl _
    | atom symbol count => exact .refl _
    | other piece => exact hpieces piece (mem_of_chemicalSegments hsegment) _ _
  refine hsegments.bind fun elements others helements => ?_
  exact .success (by simp [Element.row, helements])

end Handlers

theorem Handler.layout_stable
    (registry : Registry) (handler : Handler) (entry : Entry) (name : String)
    {operands : Operands} (hoperands : operands.AreStable) :
    IsStable (handler.layout registry entry name operands) := by
  cases handler with
  | identifier => exact identifierLayout_stable
  | operator => exact operatorLayout_stable
  | functionName => exact functionNameLayout_stable
  | space => exact spaceLayout_stable
  | accent =>
      cases hoperands with
      | one hargument => exact accentLayout_stable hargument
      | _ => exact isStable_const _
  | mark =>
      cases hoperands with
      | one hargument => exact markLayout_stable hargument
      | _ => exact isStable_const _
  | stack =>
      cases hoperands with
      | two hfirst hsecond => exact stackLayout_stable hfirst hsecond
      | _ => exact isStable_const _
  | table =>
      cases hoperands with
      | grid hrows => exact tableLayout_stable hrows
      | _ => exact isStable_const _
  | boldSymbol =>
      cases hoperands with
      | one hargument => exact fun _ _ => hargument.single _ _
      | _ => exact isStable_const _
  | font =>
      cases hoperands with
      | one hargument => exact fontLayout_stable hargument
      | _ => exact isStable_const _
  | enclosure =>
      cases hoperands with
      | one hargument => exact enclosureLayout_stable hargument
      | _ => exact isStable_const _
  | fraction =>
      cases hoperands with
      | two hfirst hsecond => exact fractionLayout_stable hfirst hsecond
      | _ => exact isStable_const _
  | root =>
      cases hoperands with
      | one hargument => exact rootLayout_stable hargument
      | _ => exact isStable_const _
  | text =>
      cases hoperands with
      | one hargument => exact textLayout_stable
      | _ => exact isStable_const _
  | operatorName =>
      cases hoperands with
      | one hargument => exact operatorNameLayout_stable
      | _ => exact isStable_const _
  | delimiter =>
      cases hoperands with
      | one hargument => exact delimiterLayout_stable registry
      | _ => exact isStable_const _
  | chemistry =>
      cases hoperands with
      | one hargument => exact chemicalLayout_stable hargument.pieces
      | _ => exact isStable_const _

theorem commandLayout_stable
    (registry : Registry) (name : String) {operands : Operands}
    (hoperands : operands.AreStable) :
    IsStable (commandLayout registry name operands) := by
  intro first second
  unfold commandLayout
  split
  · exact .refl _
  · next entry _ => exact entry.handler.layout_stable registry entry name hoperands first second

theorem environmentLayout_stable
    (registry : Registry) (environment : Environment) {rows : List (List Layoutable)}
    (hrows : ∀ row ∈ rows, ∀ cell ∈ row, IsStable cell) :
    IsStable (environmentLayout registry environment rows) := by
  intro first second
  unfold environmentLayout
  split
  · exact .refl _
  · next entry _ =>
      exact entry.handler.layout_stable registry entry environment.name (.grid hrows) first second

/-! ## Trees -/

theorem literalLayout_stable (registry : Registry) (value : String) :
    IsStable (literalLayout registry value) := by
  intro first second
  unfold literalLayout
  split
  · exact .success rfl
  · exact .success rfl
  · unfold symbolLayout
    split
    all_goals exact .success rfl
  · exact commandLayout_stable registry value .none first second

theorem Operand.isStable_ofNode {node : Node} {layout : Layoutable}
    (hlayout : FormulaMarkup.IsStable layout) :
    (Operand.ofNode node layout).IsStable where
  layout := hlayout
  single := hlayout
  pieces := by simpa [Operand.ofNode] using hlayout

theorem Operand.IsStable.asItem {operand : Operand} (hoperand : operand.IsStable) :
    FormulaMarkup.IsStable operand.asItem := by
  intro first second
  unfold Operand.asItem
  split
  · exact hoperand.single first second
  · exact hoperand.layout first second

theorem itemsLayout_stable
    {items : List Operand} (hitems : ∀ item ∈ items, item.IsStable) :
    IsStable (itemsLayout items) := by
  intro first second
  unfold itemsLayout
  split
  · exact .refl _
  · exact .layoutAll fun item hitem => (hitems item hitem).asItem first second

theorem itemsSingle_stable
    {items : List Operand} (hitems : ∀ item ∈ items, item.IsStable) :
    IsStable (itemsSingle items) := by
  intro first second
  unfold itemsSingle
  split
  · exact .refl _
  · next only => exact (hitems only (by simp)).single first second
  · refine (itemsLayout_stable hitems first second).bind fun elements others helements => ?_
    exact .success (by simp [Element.row, helements])

theorem Operand.isStable_ofItems
    {node : Node} {items : List Operand} (hitems : ∀ item ∈ items, item.IsStable) :
    (Operand.ofItems node items).IsStable where
  layout := itemsLayout_stable hitems
  single := itemsSingle_stable hitems
  pieces := by
    intro piece hpiece
    obtain ⟨item, hitem, rfl⟩ := List.mem_map.mp hpiece
    exact (hitems item hitem).layout

theorem attachedLayout_stable {attached : Operand} (hattached : attached.IsStable) :
    IsStable (attachedLayout attached) := by
  intro first second
  unfold attachedLayout
  split
  · exact .refl _
  · refine (hattached.layout _ _).bind fun elements others helements => ?_
    exact .success (by simp [Element.row, helements])

theorem scriptLayout_stable
    (registry : Registry) (side : Side) {base attached : Operand}
    (hbase : base.IsStable) (hattached : attached.IsStable) :
    IsStable (scriptLayout registry side base attached) := by
  intro first second
  refine (hbase.single first second).bind fun elements others helements => ?_
  refine (attachedLayout_stable hattached first second).bind fun scripts otherScripts hscripts => ?_
  exact .success (by simp [helements, hscripts])

mutual

theorem Node.operand_stable (registry : Registry) (node : Node) :
    (node.operand registry).IsStable := by
  match node with
  | .literal value => exact Operand.isStable_ofNode (literalLayout_stable registry value)
  | .sequence curly items => exact Operand.isStable_ofItems (nodeOperands_stable registry items)
  | .script side base attached =>
      exact Operand.isStable_ofNode (scriptLayout_stable registry side
        (base.operand_stable registry) (attached.operand_stable registry))
  | .unary style name argument =>
      exact Operand.isStable_ofNode (commandLayout_stable registry name
        (.one (argument.operand_stable registry)))
  | .binary name first second =>
      exact Operand.isStable_ofNode (commandLayout_stable registry name
        (.two (first.operand_stable registry) (second.operand_stable registry)))
  | .table environment rows =>
      exact Operand.isStable_ofNode
        (environmentLayout_stable registry environment (rowLayoutables_stable registry rows))

theorem nodeOperands_stable (registry : Registry) (nodes : List Node) :
    ∀ operand ∈ nodeOperands registry nodes, operand.IsStable := by
  match nodes with
  | [] => simp [nodeOperands]
  | node :: rest =>
      rw [nodeOperands, List.forall_mem_cons]
      exact ⟨node.operand_stable registry, nodeOperands_stable registry rest⟩

theorem rowLayoutables_stable (registry : Registry) (rows : List (List Node)) :
    ∀ row ∈ rowLayoutables registry rows, ∀ cell ∈ row, IsStable cell := by
  match rows with
  | [] => simp [rowLayoutables]
  | row :: rest =>
      rw [rowLayoutables, List.forall_mem_cons]
      refine ⟨?_, rowLayoutables_stable registry rest⟩
      intro cell hcell
      obtain ⟨operand, hoperand, rfl⟩ := List.mem_map.mp hcell
      exact (nodeOperands_stable registry row operand hoperand).layout

end

/-- Layouts of the same structure are written as markup that is the same
without its attributes. -/
theorem SameStructure.withoutAttributes_eq
    {first second : Layout} (hlayouts : SameStructure first second) :
    (first.map writeElements).map withoutAttributes =
      (second.map writeElements).map withoutAttributes := by
  cases hlayouts with
  | failure reason => rfl
  | @success elements others helements =>
      have hwritten : withoutAttributes (writeElements elements) =
          withoutAttributes (writeElements others) := by
        rw [withoutAttributes_writeElements, withoutAttributes_writeElements, helements]
      exact congrArg Except.ok hwritten

/-- The markup of a node as a single element where it is a sequence of several items. -/
def Node.singleMarkup (registry : Registry) (node : Node) (context : Context) :
    Except LayoutError String :=
  (node.single registry context).map writeElements

/-- In any two contexts a node fails in the same way or is written as markup
that is the same once all attributes are removed. -/
theorem markup_context_independent
    (registry : Registry) (node : Node) (first second : Context) :
    (node.markup registry first).map withoutAttributes =
        (node.markup registry second).map withoutAttributes ∧
      (node.singleMarkup registry first).map withoutAttributes =
        (node.singleMarkup registry second).map withoutAttributes := by
  have hstable := node.operand_stable registry
  constructor
  · exact (hstable.layout first second).withoutAttributes_eq
  · exact (hstable.single first second).withoutAttributes_eq

end FormulaMarkup
