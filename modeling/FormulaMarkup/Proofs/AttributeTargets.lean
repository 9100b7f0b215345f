import FormulaMarkup.Proofs.OwnAttributes

/-!
# Where attributes go

The attributes of a context are meant for the elements that a node designates.
A node either has such an element of its own or passes the attributes on to
some of its parts; all other parts are laid out without them.  So an attribute
of the caller's choosing comes out once for each designated element, and the
markup is otherwise what it is without the attribute.

The comparison is made twice: for the trees of elements, where it says which
elements have the attribute, and for the markup, where it says how often it is
written.
-/

namespace FormulaMarkup

/-- What a node does with the attributes of its context. -/
inductive Placement where
  /-- The node is one element, which gets them. -/
  | element
  /-- The node is a table, maybe between fences, and the table gets them. -/
  | table
  /-- These parts of the node get them. -/
  | parts (nodes : List Node)

def Node.placement : Node → Placement
  | .literal _ => .element
  | .sequence _ items => .parts items
  | .script _ base _ => .parts [base]
  | .unary _ name argument =>
      match (Registry.builtin.get? name).map Entry.handler with
      | some .accent => .parts [argument]
      | some .mark => .parts [argument]
      | some .boldSymbol => .parts [argument]
      | some .font => .parts [argument]
      | some .delimiter => if argument.literal? = some "." then .parts [] else .element
      | _ => .element
  | .binary _ _ _ => .element
  | .table _ _ => .table

section Unary

variable (style : ArgumentStyle) {command : String} (argument : Node) {entry : Entry}
  (hentry : Registry.builtin.get? command = some entry)

include hentry

theorem Node.placement_eq_parts
    (hhandler : entry.handler ∈ [Handler.accent, .mark, .boldSymbol, .font]) :
    (Node.unary style command argument).placement = .parts [argument] := by
  simp only [List.mem_cons, List.not_mem_nil, or_false] at hhandler
  rcases hhandler with hhandler | hhandler | hhandler | hhandler
  all_goals simp [placement, hentry, hhandler]

theorem Node.placement_eq_element
    (hhandler : entry.handler ∈
      [Handler.enclosure, .root, .operatorName, .text, .chemistry]) :
    (Node.unary style command argument).placement = .element := by
  simp only [List.mem_cons, List.not_mem_nil, or_false] at hhandler
  rcases hhandler with hhandler | hhandler | hhandler | hhandler | hhandler
  all_goals simp [placement, hentry, hhandler]

end Unary

mutual

/-- The number of elements that a node designates. -/
def Node.targets : Node → Nat
  | .literal _ => 1
  | .sequence _ items => targetsOfAll items
  | .script _ base _ => base.targets
  | .unary _ name argument =>
      match (Registry.builtin.get? name).map Entry.handler with
      | some .accent => argument.targets
      | some .mark => argument.targets
      | some .boldSymbol => argument.targets
      | some .font => argument.targets
      | some .delimiter => if argument.literal? = some "." then 0 else 1
      | _ => 1
  | .binary _ _ _ => 1
  | .table _ _ => 1

def targetsOfAll : List Node → Nat
  | [] => 0
  | node :: rest => node.targets + targetsOfAll rest

end

def Element.withAttribute (name value : String) : Element → Element
  | .text tag attributes content => .text tag (attributes.insert name value) content
  | .layout tag attributes children => .layout tag (attributes.insert name value) children

/-- Elements with a place for others. -/
inductive Frame where
  | here
  | beside (before : List Element) (frame : Frame) (after : List Element)
  | within (tag : LayoutTag) (attributes : Attributes) (frame : Frame)

def Frame.fill : Frame → List Element → List Element
  | .here, inner => inner
  | .beside before frame after, inner => before ++ frame.fill inner ++ after
  | .within tag attributes frame, inner => [.layout tag attributes (frame.fill inner)]

/-- The second elements are the first ones with the attribute where the nodes
designate it.  What an element that gets the attribute holds is the same in
both, and so is whatever stands around the parts that get it. -/
inductive Lands (name value : String) :
    List Node → List Element → List Element → Prop
  | nothing : Lands name value [] [] []
  | next {node : Node} {rest : List Node} {first firstMarked others othersMarked : List Element}
      (hfirst : Lands name value [node] first firstMarked)
      (hothers : Lands name value rest others othersMarked) :
      Lands name value (node :: rest) (first ++ others) (firstMarked ++ othersMarked)
  | onElement {node : Node} {element : Element}
      (hplacement : node.placement = .element)
      (hfresh : name ∉ element.attributes.names) :
      Lands name value [node] [element] [element.withAttribute name value]
  | onTable {node : Node} {attributes : Attributes} {rows : List Element} (frame : Frame)
      (hplacement : node.placement = .table) (hfresh : name ∉ attributes.names) :
      Lands name value [node] (frame.fill [.layout .table attributes rows])
        (frame.fill [.layout .table (attributes.insert name value) rows])
  | onParts {node : Node} {parts : List Node} {inner marked : List Element} (frame : Frame)
      (hplacement : node.placement = .parts parts)
      (hparts : Lands name value parts inner marked) :
      Lands name value [node] (frame.fill inner) (frame.fill marked)

/-- Both layouts fail for the same reason, or the attribute lands. -/
inductive BothLand (name value : String) (nodes : List Node) :
    Layout → Layout → Prop
  | failure (reason : LayoutError) :
      BothLand name value nodes (.error reason) (.error reason)
  | success {elements marked : List Element}
      (hlands : Lands name value nodes elements marked) :
      BothLand name value nodes (.ok elements) (.ok marked)

def Context.withAttribute (context : Context) (name value : String) : Context :=
  { context with attributes := .singleton name value }

theorem Dictionary.singleton_eq_insert (name value : String) :
    Dictionary.singleton name value = (∅ : Attributes).insert name value :=
  Dictionary.ext rfl

theorem Context.textAttributes_withAttribute (context : Context) (name value : String)
    (default : Option Variant) :
    (context.withAttribute name value).textAttributes default =
      (context.withoutAttributes.textAttributes default).insert name value := by
  have hmarked : (context.withAttribute name value).variant = context.variant := rfl
  have hplain : context.withoutAttributes.variant = context.variant := rfl
  rw [textAttributes, textAttributes, hmarked, hplain]
  cases context.variant.or default <;> rfl

theorem writeEntry_of_not_mem {α : Type} {name : String} {entries : List (String × α)}
    (hnew : name ∉ entries.map Prod.fst) (value : α) :
    writeEntry name value entries = entries ++ [(name, value)] := by
  induction entries with
  | nil => rfl
  | cons entry rest ih =>
      rw [List.map_cons, List.mem_cons, not_or] at hnew
      have hother : entry.1 ≠ name := fun heq => hnew.1 heq.symm
      rw [writeEntry, if_neg hother, ih hnew.2, List.cons_append]

theorem Dictionary.merge_insert {name value : String} {attributes : Attributes}
    (hnew : name ∉ attributes.names) (own : Attributes) :
    own.merge (attributes.insert name value) = (own.merge attributes).insert name value := by
  simp only [merge, insertAll, entries_insert]
  rw [writeEntry_of_not_mem hnew, List.foldl_append]
  rfl

/-- The attributes of a table, to which the one of the context is added. -/
theorem TableStyle.attributes_withAttribute {name : String}
    (hfresh : name ∉ ownAttributeNames) (style : TableStyle) (value : String)
    (context : Context) :
    style.alignment.attributes (style.attributes (context.withAttribute name value)) =
        (style.alignment.attributes (style.attributes context.withoutAttributes)).insert name
          value ∧
      name ∉ (style.alignment.attributes (style.attributes context.withoutAttributes)).names := by
  have hstyle : style.attributes (context.withAttribute name value) =
      (style.attributes context.withoutAttributes).insert name value := rfl
  have hstructural : (style.attributes context.withoutAttributes).IsFrom [] structuralNames :=
    style.isFrom_attributes (List.nil_subset _)
  have haligned := (style.alignment.isFrom_attributes hstructural).names_subset
  have hnew : name ∉ (style.attributes context.withoutAttributes).names :=
    fun hmem => hfresh (List.mem_cons_of_mem _ (hstructural.names_subset hmem))
  rw [hstyle]
  constructor
  · cases style.alignment with
    | centered => rfl
    | left => exact Dictionary.merge_insert hnew _
    | rightLeft => exact Dictionary.merge_insert hnew _
  · exact fun hmem => hfresh (List.mem_cons_of_mem _ (haligned hmem))

section Landing

variable {name value : String}

theorem BothLand.invalid {nodes : List Node} (command : String) :
    BothLand name value nodes (invalidArgument command) (invalidArgument command) :=
  .failure _

theorem BothLand.bind {parts nodes : List Node} {first second : Layout}
    {thenFirst thenSecond : List Element → Layout} :
    BothLand name value parts first second →
    (∀ inner marked, Lands name value parts inner marked →
      BothLand name value nodes (thenFirst inner) (thenSecond marked)) →
    BothLand name value nodes
      (match first with
        | .error reason => .error reason
        | .ok elements => thenFirst elements)
      (match second with
        | .error reason => .error reason
        | .ok elements => thenSecond elements) := by
  intro hparts hthen
  cases hparts with
  | failure reason => exact .failure reason
  | success hlands => exact hthen _ _ hlands

/-- Parts that are laid out without attributes come first. -/
theorem BothLand.held {nodes : List Node} {layout : Layout}
    {thenFirst thenSecond : List Element → Layout} :
    (∀ elements, BothLand name value nodes (thenFirst elements) (thenSecond elements)) →
    BothLand name value nodes
      (match layout with
        | .error reason => .error reason
        | .ok elements => thenFirst elements)
      (match layout with
        | .error reason => .error reason
        | .ok elements => thenSecond elements) := by
  intro hthen
  cases layout with
  | error reason => exact .failure reason
  | ok elements => exact hthen elements

theorem BothLand.layoutAll {layouts layoutsMarked : Node → Layout} {nodes : List Node}
    (hnodes : ∀ node ∈ nodes,
      BothLand name value [node] (layouts node) (layoutsMarked node)) :
    BothLand name value nodes (layoutAll layouts nodes)
      (layoutAll layoutsMarked nodes) := by
  induction nodes with
  | nil => exact .success .nothing
  | cons node rest ih =>
      rw [List.forall_mem_cons] at hnodes
      apply hnodes.1.bind
      intro first firstMarked hfirst
      apply (ih hnodes.2).bind
      intro others othersMarked hothers
      exact .success (.next hfirst hothers)

/-- What a node passes on as it is. -/
theorem BothLand.passedOn {node : Node} {parts : List Node} {first second : Layout}
    (hplacement : node.placement = .parts parts) (hparts : BothLand name value parts first second) :
    BothLand name value [node] first second := by
  cases hparts with
  | failure reason => exact .failure reason
  | success hlands => exact .success (.onParts .here hplacement hlands)

/-- In every context, the attribute lands where the node designates it. -/
structure Node.Places (name value : String) (node : Node) : Prop where
  layout : ∀ context : Context, BothLand name value [node]
    ((node.operand .builtin).layout context.withoutAttributes)
    ((node.operand .builtin).layout (context.withAttribute name value))
  single : ∀ context : Context, BothLand name value [node]
    ((node.operand .builtin).single context.withoutAttributes)
    ((node.operand .builtin).single (context.withAttribute name value))

theorem Node.places_of_layout {node : Node} {layout : Layoutable}
    (hoperand : node.operand .builtin = .ofNode node layout)
    (hlayout : ∀ context : Context, BothLand name value [node]
      (layout context.withoutAttributes) (layout (context.withAttribute name value))) :
    node.Places name value := by
  constructor
  all_goals
    rw [hoperand]
    exact hlayout

/-! ## Handlers -/

variable {node : Node} (hfresh : name ∉ ownAttributeNames)

include hfresh

theorem not_mem_names {attributes : Attributes}
    (hown : ∀ other ∈ attributes.names, other ∈ ownAttributeNames) : name ∉ attributes.names :=
  fun hmem => hfresh (hown name hmem)

theorem bothLand_textElement (hplacement : node.placement = .element) (context : Context)
    (tag : TextTag) (default : Option Variant) (content : String) :
    BothLand name value [node]
      (.ok [.text tag (context.withoutAttributes.textAttributes default) content])
      (.ok [.text tag ((context.withAttribute name value).textAttributes default) content]) := by
  have hnames : ∀ other ∈ (context.withoutAttributes.textAttributes default).names,
      other ∈ ownAttributeNames := by
    unfold Context.textAttributes
    split <;> simp [Context.withoutAttributes, Dictionary.merge, Dictionary.names,
      Dictionary.singleton, ownAttributeNames]
  rw [context.textAttributes_withAttribute]
  exact .success (.onElement hplacement (not_mem_names hfresh hnames))

theorem bothLand_element (hplacement : node.placement = .element) {element marked : Element}
    (names : List String) (hmarked : marked = element.withAttribute name value)
    (hnames : element.attributes.names = names)
    (hown : ∀ other ∈ names, other ∈ ownAttributeNames) :
    BothLand name value [node] (.ok [element]) (.ok [marked]) := by
  subst hmarked hnames
  exact .success (.onElement hplacement (not_mem_names hfresh hown))

/-- An element that has no attributes but those of the context. -/
theorem bothLand_givenElement (hplacement : node.placement = .element)
    (build : Attributes → Element)
    (hbuild : build ((∅ : Attributes).insert name value) = (build ∅).withAttribute name value)
    (hnames : (build ∅).attributes.names = []) :
    BothLand name value [node] (.ok [build ∅]) (.ok [build (.singleton name value)]) := by
  rw [Dictionary.singleton_eq_insert]
  exact bothLand_element hfresh hplacement [] hbuild hnames (by simp)

theorem Entry.StandsAlone.bothLand {entry : Entry} (hentry : entry.StandsAlone) (command : String)
    (hplacement : node.placement = .element) (context : Context) :
    BothLand name value [node]
      (entry.handler.layout .builtin entry command .none context.withoutAttributes)
      (entry.handler.layout .builtin entry command .none (context.withAttribute name value)) := by
  cases hentry with
  | identifier | functionName => exact bothLand_textElement hfresh hplacement context _ _ _
  | @operator c _ =>
      exact bothLand_givenElement hfresh hplacement (Element.operator · c.toString) rfl rfl
  | space => exact bothLand_element hfresh hplacement ["width"] rfl rfl (by decide)

theorem bothLand_literalLayout {literal : String}
    (hcommand : LiteralClass.of literal = .command → shape? literal = none) (context : Context) :
    BothLand name value [.literal literal]
      (literalLayout .builtin literal context.withoutAttributes)
      (literalLayout .builtin literal (context.withAttribute name value)) := by
  have hplacement : (Node.literal literal).placement = .element := rfl
  have hoperator (text : String) : BothLand name value [.literal literal]
      (.ok [.operator ∅ text]) (.ok [.operator (.singleton name value) text]) :=
    bothLand_givenElement hfresh hplacement (Element.operator · text) rfl rfl
  unfold literalLayout
  cases hclass : LiteralClass.of literal with
  | letter => exact bothLand_textElement hfresh hplacement context _ _ _
  | digit => exact bothLand_textElement hfresh hplacement context _ _ _
  | symbol =>
      simp only [symbolLayout]
      split
      · exact bothLand_element hfresh hplacement ["width"] rfl rfl (by decide)
      · exact hoperator _
      · exact hoperator _
      · exact hoperator _
      · exact hoperator _
  | command =>
      simp only [commandLayout]
      cases hentry : Registry.builtin.get? literal with
      | none => exact .failure _
      | some entry =>
          have hserves := serves_of_get? hentry
          rw [hcommand hclass] at hserves
          cases hserves with
          | alone halone => exact halone.bothLand hfresh literal hplacement context

theorem Entry.TakesOne.bothLand {entry : Entry} (htakes : entry.TakesOne) {style : ArgumentStyle}
    {command : String} {argument : Node} (hentry : Registry.builtin.get? command = some entry)
    (hargument : argument.Places name value) (context : Context) :
    BothLand name value [.unary style command argument]
      (entry.handler.layout .builtin entry command (.one (argument.operand .builtin))
        context.withoutAttributes)
      (entry.handler.layout .builtin entry command (.one (argument.operand .builtin))
        (context.withAttribute name value)) := by
  cases htakes with
  | accent =>
      have hplacement := Node.placement_eq_parts style argument hentry (by simp)
      apply (hargument.single context).bind
      intro inner marked hlands
      exact .success (.onParts (.within .over _ (.beside [] .here [_])) hplacement hlands)
  | @mark c side =>
      have hplacement := Node.placement_eq_parts style argument hentry (by simp)
      apply (hargument.single context).bind
      intro inner marked hlands
      -- A base that carries scripts has a row of its own.
      by_cases hscript : (argument.operand .builtin).node.peel.isScript = true
      · simp only [hscript, if_true]
        exact .success (.onParts
          (.within .row _ (.within _ _ (.beside [] (.within .row _ .here) [_]))) hplacement hlands)
      · simp only [hscript]
        exact .success (.onParts
          (.within .row _ (.within _ _ (.beside [] .here [_]))) hplacement hlands)
  | boldSymbol =>
      have hplacement := Node.placement_eq_parts style argument hentry (by simp)
      exact (hargument.single (context.withVariant .boldItalic)).passedOn hplacement
  | @font _ variant =>
      have hplacement := Node.placement_eq_parts style argument hentry (by simp)
      exact (hargument.single (context.withVariant variant)).passedOn hplacement
  | enclosure =>
      have hplacement := Node.placement_eq_element style argument hentry (by simp)
      apply BothLand.held
      intro elements
      exact bothLand_element hfresh hplacement ["notation"] rfl rfl (by decide)
  | root =>
      have hplacement := Node.placement_eq_element style argument hentry (by simp)
      apply BothLand.held
      intro elements
      exact bothLand_givenElement hfresh hplacement (Element.layout .root · elements) rfl rfl

theorem Entry.TakesTwo.bothLand {entry : Entry} (htakes : entry.TakesTwo) {command : String}
    {first second : Operand} (hplacement : node.placement = .element) (context : Context) :
    BothLand name value [node]
      (entry.handler.layout .builtin entry command (.two first second) context.withoutAttributes)
      (entry.handler.layout .builtin entry command (.two first second)
        (context.withAttribute name value)) := by
  cases htakes with
  | @stack _ side =>
      apply BothLand.held
      intro base
      apply BothLand.held
      intro mark
      exact bothLand_givenElement hfresh hplacement
        (Element.layout side.stackTag · (base ++ mark)) rfl rfl
  | @fraction _ style =>
      apply BothLand.held
      intro upper
      apply BothLand.held
      intro lower
      cases style with
      | inherited =>
          exact bothLand_givenElement hfresh hplacement
            (fractionElement .inherited · (upper ++ lower)) rfl rfl
      | display => exact bothLand_element hfresh hplacement ["displaystyle"] rfl rfl (by decide)
      | text => exact bothLand_element hfresh hplacement ["displaystyle"] rfl rfl (by decide)
      | binomial =>
          exact bothLand_givenElement hfresh hplacement
            (fractionElement .binomial · (upper ++ lower)) rfl rfl

theorem bothLand_operatorNameLayout (hplacement : node.placement = .element) (command : String)
    (argument : Operand) (context : Context) :
    BothLand name value [node] (operatorNameLayout command argument context.withoutAttributes)
      (operatorNameLayout command argument (context.withAttribute name value)) := by
  unfold operatorNameLayout
  split
  · split
    · exact .invalid command
    · exact bothLand_textElement hfresh hplacement context _ _ _
  · exact .invalid command

theorem bothLand_textLayout (hplacement : node.placement = .element) (entry : Entry)
    (command : String) (argument : Operand) (context : Context) :
    BothLand name value [node] (textLayout entry command argument context.withoutAttributes)
      (textLayout entry command argument (context.withAttribute name value)) := by
  unfold textLayout
  split
  · split
    · exact bothLand_textElement hfresh hplacement context _ _ _
    · exact .invalid command
  · exact .invalid command

/-- A point is no delimiter, so there is no element that gets the attribute. -/
theorem bothLand_delimiterLayout {style : ArgumentStyle} {command literal : String} {entry : Entry}
    (hentry : Registry.builtin.get? command = some entry) (hhandler : entry.handler = .delimiter)
    (context : Context) :
    BothLand name value [.unary style command (.literal literal)]
      (delimiterLayout .builtin command ((Node.literal literal).operand .builtin)
        context.withoutAttributes)
      (delimiterLayout .builtin command ((Node.literal literal).operand .builtin)
        (context.withAttribute name value)) := by
  have hliteral : ((Node.literal literal).operand .builtin).node.literal? = some literal := rfl
  simp only [delimiterLayout, hliteral]
  by_cases hpoint : literal = "."
  · have hplacement : (Node.unary style command (.literal literal)).placement = .parts [] := by
      simp [Node.placement, hentry, hhandler, Node.literal?, hpoint]
    have hgone : delimiterText .builtin command literal = .ok none := by
      have hclass : LiteralClass.of "." = .symbol := by decide
      simp [delimiterText, hpoint, hclass]
    rw [hgone]
    exact .success (.onParts .here hplacement .nothing)
  · have hplacement : (Node.unary style command (.literal literal)).placement = .element := by
      simp [Node.placement, hentry, hhandler, Node.literal?, hpoint]
    have hdrawn : delimiterText .builtin command literal ≠ .ok none := by
      simp only [delimiterText, if_neg hpoint]
      repeat' split
      all_goals simp
    split
    · exact .failure _
    · next hnone => exact absurd hnone hdrawn
    · exact bothLand_element hfresh hplacement ["fence", "stretchy"] rfl rfl (by decide)

theorem bothLand_chemicalLayout (hplacement : node.placement = .element) (pieces : List Piece)
    (context : Context) :
    BothLand name value [node] (chemicalLayout pieces context.withoutAttributes)
      (chemicalLayout pieces (context.withAttribute name value)) := by
  apply BothLand.held
  intro elements
  exact bothLand_givenElement hfresh hplacement (Element.row · elements) rfl rfl

theorem bothLand_environmentLayout {environment : Environment} {cells : List (List Node)}
    (rows : List (List Layoutable)) (context : Context) :
    BothLand name value [.table environment cells]
      (environmentLayout .builtin environment rows context.withoutAttributes)
      (environmentLayout .builtin environment rows (context.withAttribute name value)) := by
  have hplacement : (Node.table environment cells).placement = .table := rfl
  obtain ⟨hmarked, hnew⟩ := environment.style.attributes_withAttribute hfresh value context
  apply BothLand.held
  intro elements
  simp only [Element.table, hmarked]
  split
  · exact .success (.onTable .here hplacement hnew)
  · exact .success (.onTable (.within .row _ (.beside _ .here _)) hplacement hnew)

/-! ## Trees -/

omit hfresh in
theorem Node.places_sequence {curly : Bool} {items : List Node}
    (hitems : ∀ item ∈ items, item.Places name value) :
    (Node.sequence curly items).Places name value := by
  have hplacement : (Node.sequence curly items).placement = .parts items := rfl
  have hitem (context : Context) : ∀ item ∈ items, BothLand name value [item]
      ((item.operand .builtin).asItem context.withoutAttributes)
      ((item.operand .builtin).asItem (context.withAttribute name value)) := by
    intro item hitem
    unfold Operand.asItem
    split
    · exact (hitems item hitem).single context
    · exact (hitems item hitem).layout context
  have hall (context : Context) : BothLand name value items
      (layoutAll (fun operand => operand.asItem context.withoutAttributes)
        (items.map (Node.operand .builtin)))
      (layoutAll (fun operand => operand.asItem (context.withAttribute name value))
        (items.map (Node.operand .builtin))) := by
    rw [layoutAll_map, layoutAll_map]
    exact .layoutAll (hitem context)
  constructor
  all_goals
    intro context
    rw [Node.operand, nodeOperands_eq_map]
  · cases items with
    | nil => exact .success (.onParts (.beside [.placeholder] .here []) hplacement .nothing)
    | cons first rest => exact (hall context).passedOn hplacement
  · cases items with
    | nil => exact .success (.onParts (.beside [.placeholder] .here []) hplacement .nothing)
    | cons first rest =>
        cases rest with
        | nil => exact ((hitems first List.mem_cons_self).single context).passedOn hplacement
        | cons second rest =>
            apply (hall context).bind
            intro inner marked hlands
            exact .success (.onParts (.within .row ∅ .here) hplacement hlands)

omit hfresh in
theorem bothLand_scriptLayout {side : Side} {base attached : Node}
    (hbase : base.Places name value) (context : Context) :
    BothLand name value [.script side base attached]
      (scriptLayout .builtin side (base.operand .builtin) (attached.operand .builtin)
        context.withoutAttributes)
      (scriptLayout .builtin side (base.operand .builtin) (attached.operand .builtin)
        (context.withAttribute name value)) := by
  have hplacement : (Node.script side base attached).placement = .parts [base] := rfl
  have hattached : attachedLayout (attached.operand .builtin) (context.withAttribute name value) =
      attachedLayout (attached.operand .builtin) context.withoutAttributes := rfl
  apply (hbase.single context).bind
  intro inner marked hlands
  rw [hattached]
  apply BothLand.held
  intro elements
  exact .success (.onParts (.within _ ∅ (.beside [] .here elements)) hplacement hlands)

theorem Node.IsRead.places {known : String → Prop} (hread : node.IsRead known) :
    node.Places name value := by
  induction hread with
  | literal hcommand =>
      apply Node.places_of_layout rfl
      exact bothLand_literalLayout hfresh fun hclass => (hcommand hclass).2
  | sequence _ ih => exact Node.places_sequence ih
  | script _ _ ihbase _ => exact Node.places_of_layout rfl (bothLand_scriptLayout ihbase)
  | @unary style command argument shape _ hshape hone _ ih =>
      obtain ⟨entry, hentry, hserves⟩ := exists_entry_of_shape? hshape
      apply Node.places_of_layout rfl
      intro context
      simp only [commandLayout, hentry]
      cases hserves with
      | braced _ htakes => exact htakes.bothLand hfresh hentry ih context
      | bare htakes => exact htakes.bothLand hfresh hentry ih context
      | operatorName _ =>
          have hplacement := Node.placement_eq_element style argument hentry (by simp)
          exact bothLand_operatorNameLayout hfresh hplacement command _ context
      | twoBraced | text | chemistry | delimiter => simp at hone
  | @chemistry style command curly items _ hshape _ _ =>
      obtain ⟨entry, hentry, hserves⟩ := exists_entry_of_shape? hshape
      apply Node.places_of_layout rfl
      intro context
      simp only [commandLayout, hentry]
      cases hserves with
      | chemistry =>
          have hplacement :=
            Node.placement_eq_element style (.sequence curly items) hentry (by simp)
          exact bothLand_chemicalLayout hfresh hplacement _ context
  | @text style command content _ hshape =>
      obtain ⟨entry, hentry, hserves⟩ := exists_entry_of_shape? hshape
      apply Node.places_of_layout rfl
      intro context
      simp only [commandLayout, hentry]
      cases hserves with
      | text =>
          have hplacement := Node.placement_eq_element style (boxedText content) hentry (by simp)
          simp only [Handler.layout]
          exact bothLand_textLayout hfresh hplacement _ command _ context
  | @delimiter style command literal _ hshape _ =>
      obtain ⟨entry, hentry, hserves⟩ := exists_entry_of_shape? hshape
      apply Node.places_of_layout rfl
      intro context
      simp only [commandLayout, hentry]
      cases hserves with
      | delimiter _ => exact bothLand_delimiterLayout hfresh hentry rfl context
  | binary _ hshape _ _ _ _ =>
      obtain ⟨entry, hentry, hserves⟩ := exists_entry_of_shape? hshape
      apply Node.places_of_layout rfl
      intro context
      simp only [commandLayout, hentry]
      cases hserves with
      | twoBraced htakes => exact htakes.bothLand hfresh rfl context
  | table _ _ =>
      apply Node.places_of_layout rfl
      exact bothLand_environmentLayout hfresh _

end Landing

/-! ## Markup -/

/-- The second markup is the first one with an addition at the end of so many
of its start tags. -/
inductive TagsExtended (addition : String) : Nat → String → String → Prop
  | same (markup : String) : TagsExtended addition 0 markup markup
  | next {count : Nat} {before after extended attributes : String} {tag : Tag}
      (hattributes : IsAttributeList attributes)
      (hafter : TagsExtended addition count after extended) :
      TagsExtended addition (count + 1)
        (before ++ ("<" ++ tag.name ++ attributes ++ ">") ++ after)
        (before ++ ("<" ++ tag.name ++ attributes ++ addition ++ ">") ++ extended)

namespace TagsExtended

variable {addition first firstExtended second secondExtended : String} {count : Nat}

theorem behind (before : String) (hfirst : TagsExtended addition count first firstExtended) :
    TagsExtended addition count (before ++ first) (before ++ firstExtended) := by
  cases hfirst with
  | same => exact .same _
  | @next count inner after extended attributes tag hattributes hafter =>
      have hnext : TagsExtended addition (count + 1)
          ((before ++ inner) ++ ("<" ++ tag.name ++ attributes ++ ">") ++ after)
          ((before ++ inner) ++ ("<" ++ tag.name ++ attributes ++ addition ++ ">") ++ extended) :=
        .next hattributes hafter
      simpa only [String.append_assoc] using hnext

theorem append {others : Nat} (hfirst : TagsExtended addition count first firstExtended)
    (hsecond : TagsExtended addition others second secondExtended) :
    TagsExtended addition (count + others) (first ++ second) (firstExtended ++ secondExtended) := by
  induction hfirst with
  | same markup =>
      rw [Nat.zero_add]
      exact hsecond.behind markup
  | @next count before after extended attributes tag hattributes _ ih =>
      have hnext : TagsExtended addition (count + others + 1)
          (before ++ ("<" ++ tag.name ++ attributes ++ ">") ++ (after ++ second))
          (before ++ ("<" ++ tag.name ++ attributes ++ addition ++ ">") ++
            (extended ++ secondExtended)) :=
        .next hattributes ih
      rw [Nat.add_right_comm]
      simpa only [String.append_assoc] using hnext

theorem enclose (tag : Tag) (attributes : Attributes)
    (hfirst : TagsExtended addition count first firstExtended) :
    TagsExtended addition count (Written.enclose tag attributes first)
      (Written.enclose tag attributes firstExtended) := by
  have hclosed := (hfirst.behind (Written.startTag tag attributes)).append
    (.same (Written.endTag tag))
  exact hclosed

theorem fill (frame : Frame) {inner marked : List Element}
    (hinner : TagsExtended addition count (writeElements inner) (writeElements marked)) :
    TagsExtended addition count (writeElements (frame.fill inner))
      (writeElements (frame.fill marked)) := by
  induction frame with
  | here => exact hinner
  | beside before frame after ih =>
      simp only [Frame.fill, writeElements_append]
      exact (ih.behind (writeElements before)).append (.same (writeElements after))
  | within tag attributes frame ih =>
      simp only [Frame.fill, writeElements_cons, writeElements_nil, String.append_empty,
        write_layout]
      exact ih.enclose (.layout tag) attributes

end TagsExtended

/-- An attribute as it is written in a start tag. -/
def writtenAttribute (name value : String) : String :=
  " " ++ name ++ "=\"" ++ escapeValue value ++ "\""

theorem attributeText_of_isAttributeName {name : String} (hname : IsAttributeName name)
    (value : String) : Written.attributeText name value = writtenAttribute name value := by
  have husable : usableName name = name := by
    unfold usableName
    rw [List.filter_eq_self.mpr, String.ofList_toList]
    intro c hc
    simpa [isNameCharacter, or_assoc] using hname.2 c hc
  have hne : name.isEmpty = false := by simpa using hname.1
  simp [Written.attributeText, husable, hne, writtenAttribute]

theorem startTag_insert {name : String} (hname : IsAttributeName name) {attributes : Attributes}
    (hnew : name ∉ attributes.names) (tag : Tag) (value : String) :
    Written.startTag tag (attributes.insert name value) =
      "<" ++ tag.name ++
        String.join (attributes.entries.map fun entry => Written.attributeText entry.1 entry.2) ++
        writtenAttribute name value ++ ">" := by
  rw [Written.startTag, Dictionary.entries_insert, writeEntry_of_not_mem hnew, List.map_append]
  simp [String.join_append, attributeText_of_isAttributeName hname, String.append_assoc]

theorem TagsExtended.enclose_insert {name : String} (hname : IsAttributeName name)
    {attributes : Attributes} (hnew : name ∉ attributes.names) (tag : Tag)
    (value content : String) :
    TagsExtended (writtenAttribute name value) 1 (Written.enclose tag attributes content)
      (Written.enclose tag (attributes.insert name value) content) := by
  have hattributes := isAttributeList_join attributes.entries
  have hnext : TagsExtended (writtenAttribute name value) 1
      ("" ++ Written.startTag tag attributes ++ (content ++ Written.endTag tag)) _ :=
    .next hattributes (.same (content ++ Written.endTag tag))
  rw [Written.enclose, Written.enclose, startTag_insert hname hnew]
  simpa only [String.empty_append, String.append_assoc] using hnext

theorem writeElements_singleton (element : Element) :
    writeElements [element] = element.write := by
  simp

theorem TagsExtended.element {name : String} (hname : IsAttributeName name) (element : Element)
    (hnew : name ∉ element.attributes.names) (value : String) :
    TagsExtended (writtenAttribute name value) 1 (writeElements [element])
      (writeElements [element.withAttribute name value]) := by
  rw [writeElements_singleton, writeElements_singleton]
  cases element with
  | text tag attributes content =>
      simp only [Element.withAttribute, write_text]
      exact enclose_insert hname hnew (.text tag) value (escapeText content)
  | layout tag attributes children =>
      simp only [Element.withAttribute, write_layout]
      exact enclose_insert hname hnew (.layout tag) value (writeElements children)

end FormulaMarkup
