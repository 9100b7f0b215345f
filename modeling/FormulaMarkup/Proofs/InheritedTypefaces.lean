import FormulaMarkup.Proofs.ChemistryOption
import FormulaMarkup.Proofs.OwnAttributes

/-!
# Typefaces

A command for a typeface is meant for all texts in its argument, except where
another such command stands further in.  What becomes of this is stated on both
sides.  From a tree one can tell the texts that its layout shows, in their
order, and the typeface of each: the one that is asked for closest to it, or
the one that the whole formula is set in, or else one of its own.  From the
elements one can tell the texts and the typefaces that they carry.  The two
agree.
-/

namespace FormulaMarkup

/-- The commands that ask for a typeface. -/
def typefaceCommands : List (String × Variant) :=
  fontCommands ++ [("\\boldsymbol", .boldItalic), ("\\bm", .boldItalic)]

/-- A text that is shown, and the typeface that its element carries. -/
structure ShownText where
  tag : TextTag
  content : String
  typeface : Option String
deriving Repr, DecidableEq

/-- A text in the typeface that is asked for, or else in its own one. -/
def ShownText.of (tag : TextTag) (content : String) (typeface own : Option Variant) : ShownText :=
  ⟨tag, content, (typeface.or own).map Variant.name⟩

/-! ## Texts of trees -/

def literalTexts (typeface : Option Variant) (value : String) : List ShownText :=
  match LiteralClass.of value with
  | .letter => [.of .identifier value typeface none]
  | .digit => [.of .number value typeface none]
  | .symbol => []
  | .command =>
      match Registry.builtin.get? value with
      | some ⟨.identifier, some c, _⟩ =>
          [.of .identifier c.toString typeface
            (if 0x391 ≤ c.toNat ∧ c.toNat ≤ 0x3A9 then some .normal else none)]
      | some ⟨.functionName, _, _⟩ => [.of .identifier (bareName value) typeface none]
      | _ => []

def boxTexts (typeface : Option Variant) (name : String) (argument : Node) : List ShownText :=
  match argument.plainText? true with
  | some raw =>
      [.of .plainText (shownText raw) typeface
        (if name = "\\textrm" then some .normal else none)]
  | none => []

def operatorNameTexts (typeface : Option Variant) (argument : Node) : List ShownText :=
  match argument.plainText? false with
  | some text => [.of .identifier text typeface (if text.length = 1 then some .normal else none)]
  | none => []

mutual

/-- The texts of a tree in a typeface. -/
def Node.shownTexts (typeface : Option Variant) : Node → List ShownText
  | .literal value => literalTexts typeface value
  | .sequence _ items => textsOfAll typeface items
  | .script _ base attached => base.shownTexts typeface ++ attached.shownTexts typeface
  | .unary _ name argument =>
      match typefaceCommands.lookup name with
      | some variant => argument.shownTexts (some variant)
      | none =>
          if shape? name = some .rawText then boxTexts typeface name argument
          else if name ∈ operatorNameCommands then operatorNameTexts typeface argument
          else if name ∈ delimiterCommands then []
          else argument.shownTexts typeface
  | .binary name first second =>
      -- What is stacked on a base is written after it.
      if (stackCommands.lookup name).isSome then
        second.shownTexts typeface ++ first.shownTexts typeface
      else first.shownTexts typeface ++ second.shownTexts typeface
  | .table _ rows => textsOfRows typeface rows

def textsOfAll (typeface : Option Variant) : List Node → List ShownText
  | [] => []
  | node :: rest => node.shownTexts typeface ++ textsOfAll typeface rest

def textsOfRows (typeface : Option Variant) : List (List Node) → List ShownText
  | [] => []
  | row :: rest => textsOfAll typeface row ++ textsOfRows typeface rest

end

def Portion.shownTexts (typeface : Option Variant) : Portion → List ShownText
  | .inline node => node.shownTexts typeface
  | .single node => node.shownTexts typeface
  | .items nodes => textsOfAll typeface nodes
  | .attached node => node.shownTexts typeface
  | .cells nodes => textsOfAll typeface nodes
  | .rows grid => textsOfRows typeface grid
  | .segments _ => []

/-! ## Entries -/

def Entry.typeface? : Entry → Option Variant
  | ⟨.font, _, .font variant⟩ => some variant
  | ⟨.boldSymbol, _, _⟩ => some .boldItalic
  | _ => none

/-- What the names of the registry say about typefaces and the order of texts. -/
structure TypefaceTables : Prop where
  typefaces : ∀ command ∈ builtinEntries,
    command.2.typeface? = typefaceCommands.lookup command.1
  texts : ∀ command ∈ builtinEntries, command.2.handler = .text →
    command.2.family = .text (if command.1 = "\\textrm" then some .normal else none)
  stackings : ∀ command ∈ builtinEntries, command.2.handler = .stack →
    (stackCommands.lookup command.1).isSome
  fractions : ∀ command ∈ builtinEntries, command.2.handler = .fraction →
    (stackCommands.lookup command.1).isNone

theorem typefaceTables : TypefaceTables := by
  constructor
  all_goals decide +kernel

theorem mem_builtinEntries_of_get? {name : String} {entry : Entry}
    (hentry : Registry.builtin.get? name = some entry) : (name, entry) ∈ builtinEntries := by
  obtain ⟨before, after, heq, _⟩ := List.lookup_eq_some_iff.mp hentry
  have hmem : (name, entry) ∈ Registry.builtin.commands := by simp [heq]
  exact hmem

/-- The commands whose argument is not laid out as a formula are known by their
handlers. -/
structure Entry.ReadsRaw (name : String) (shape : Option ArgumentShape) (entry : Entry) :
    Prop where
  text : entry.handler = .text → shape = some .rawText
  operatorName : entry.handler = .operatorName →
    shape = some .braced ∧ name ∈ operatorNameCommands
  delimiter : entry.handler = .delimiter → shape = some .delimiter ∧ name ∈ delimiterCommands

theorem Entry.Serves.readsRaw {name : String} {shape : Option ArgumentShape} {entry : Entry}
    (hserves : entry.Serves name shape) : entry.ReadsRaw name shape := by
  cases hserves with
  | alone halone => cases halone <;> constructor <;> simp
  | braced _ htakes => cases htakes <;> constructor <;> simp
  | bare htakes => cases htakes <;> constructor <;> simp
  | twoBraced htakes => cases htakes <;> constructor <;> simp
  | operatorName hname => constructor <;> simp [hname]
  | delimiter hname => constructor <;> simp [hname]
  | text | chemistry => constructor <;> simp

section Nodes

variable {style : ArgumentStyle} {name : String} {argument : Node} {typeface : Option Variant}

theorem Node.shownTexts_of_isEmptySequence {node : Node} (hempty : node.isEmptySequence = true) :
    node.shownTexts typeface = [] := by
  unfold isEmptySequence at hempty
  split at hempty
  · rw [shownTexts, textsOfAll]
  · cases hempty

theorem Node.shownTexts_typeface {entry : Entry} {variant : Variant}
    (hentry : Registry.builtin.get? name = some entry) (hvariant : entry.typeface? = some variant) :
    (Node.unary style name argument).shownTexts typeface = argument.shownTexts (some variant) := by
  have hlookup := typefaceTables.typefaces _ (mem_builtinEntries_of_get? hentry)
  rw [hvariant] at hlookup
  simp only [shownTexts, ← hlookup]

/-- A command around an argument that asks for no typeface. -/
theorem Node.shownTexts_around {entry : Entry} (hentry : Registry.builtin.get? name = some entry)
    (htakes : entry.TakesOne) (hnone : entry.typeface? = none) :
    (Node.unary style name argument).shownTexts typeface = argument.shownTexts typeface := by
  have hlookup := typefaceTables.typefaces _ (mem_builtinEntries_of_get? hentry)
  rw [hnone] at hlookup
  simp only [shownTexts, ← hlookup]
  have hserves := serves_of_get? hentry
  generalize hshape : shape? name = shape at hserves
  cases hserves with
  | alone halone => cases halone <;> cases htakes
  | braced hname _ =>
      rw [if_neg (by simp), if_neg hname, if_neg]
      exact not_mem_delimiterCommands hshape (by simp)
  | bare _ =>
      rw [if_neg (by simp), if_neg, if_neg]
      · exact not_mem_delimiterCommands hshape (by simp)
      · exact not_mem_operatorNameCommands hshape (by simp)
  | operatorName | text | chemistry | delimiter => cases htakes
  | twoBraced htwo => cases htwo <;> cases htakes

theorem Node.shownTexts_textBox {codepoint : Option Char} {variant : Option Variant} {raw : String}
    (hentry : Registry.builtin.get? name = some ⟨.text, codepoint, .text variant⟩)
    (hraw : argument.plainText? true = some raw) :
    (Node.unary style name argument).shownTexts typeface =
      [.of .plainText (shownText raw) typeface variant] := by
  have hmem := mem_builtinEntries_of_get? hentry
  have hlookup : none = typefaceCommands.lookup name := typefaceTables.typefaces _ hmem
  have hfamily : Family.text variant = .text (if name = "\\textrm" then some .normal else none) :=
    typefaceTables.texts _ hmem rfl
  have hshape := (serves_of_get? hentry).readsRaw.text rfl
  rw [shownTexts, ← hlookup]
  simp only [hshape, if_true, boxTexts, hraw]
  rw [Family.text.inj hfamily]

theorem Node.shownTexts_operatorName {codepoint : Option Char} {family : Family} {text : String}
    (hentry : Registry.builtin.get? name = some ⟨.operatorName, codepoint, family⟩)
    (htext : argument.plainText? false = some text) :
    (Node.unary style name argument).shownTexts typeface =
      [.of .identifier text typeface (if text.length = 1 then some .normal else none)] := by
  have hlookup : none = typefaceCommands.lookup name :=
    typefaceTables.typefaces _ (mem_builtinEntries_of_get? hentry)
  obtain ⟨hshape, hname⟩ := (serves_of_get? hentry).readsRaw.operatorName rfl
  rw [shownTexts, ← hlookup]
  simp only [hshape, hname, if_true, operatorNameTexts, htext]
  rw [if_neg (by simp)]

theorem Node.shownTexts_delimiter {codepoint : Option Char} {family : Family}
    (hentry : Registry.builtin.get? name = some ⟨.delimiter, codepoint, family⟩) :
    (Node.unary style name argument).shownTexts typeface = [] := by
  have hlookup : none = typefaceCommands.lookup name :=
    typefaceTables.typefaces _ (mem_builtinEntries_of_get? hentry)
  obtain ⟨hshape, hname⟩ := (serves_of_get? hentry).readsRaw.delimiter rfl
  have hother := not_mem_operatorNameCommands hshape (by simp)
  rw [shownTexts, ← hlookup]
  simp only [hshape, if_neg hother, if_pos hname]
  rw [if_neg (by simp)]

end Nodes

/-! ## Texts of elements -/

def Element.shownText? : Element → Option ShownText
  | .text tag attributes content =>
      if (Element.text tag attributes content).isLettering then
        some ⟨tag, content, attributes.get? "mathvariant"⟩
      else none
  | .layout _ _ _ => none

def textsOfElements (elements : List Element) : List ShownText :=
  (allElements elements).filterMap Element.shownText?

@[simp] theorem textsOfElements_nil : textsOfElements [] = [] := by
  simp [textsOfElements]

@[simp] theorem textsOfElements_append (first second : List Element) :
    textsOfElements (first ++ second) = textsOfElements first ++ textsOfElements second := by
  simp [textsOfElements]

@[simp] theorem textsOfElements_layout (tag : LayoutTag) (attributes : Attributes)
    (children rest : List Element) :
    textsOfElements (.layout tag attributes children :: rest) =
      textsOfElements children ++ textsOfElements rest := by
  simp [textsOfElements, Element.shownText?, List.filterMap_cons]

@[simp] theorem textsOfElements_operator (attributes : Attributes) (content : String)
    (rest : List Element) :
    textsOfElements (.operator attributes content :: rest) = textsOfElements rest := by
  simp [textsOfElements, Element.operator, Element.shownText?, Element.isLettering]

@[simp] theorem textsOfElements_placeholder (rest : List Element) :
    textsOfElements (.placeholder :: rest) = textsOfElements rest := by
  simp [textsOfElements, Element.placeholder, Element.identifier, Element.shownText?,
    Element.isLettering]

theorem Context.get?_textAttributes {context : Context} (hattributes : context.attributes = ∅)
    (default : Option Variant) :
    (context.textAttributes default).get? "mathvariant" =
      (context.variant.or default).map Variant.name := by
  rw [textAttributes, hattributes]
  cases context.variant.or default with
  | none => rfl
  | some variant => simp [Dictionary.get?, Dictionary.merge, Dictionary.singleton]

theorem textsOfElements_lettering {context : Context} (hattributes : context.attributes = ∅)
    {tag : TextTag} {content : String} {default : Option Variant}
    (hlettering : (Element.text tag (context.textAttributes default) content).isLettering) :
    textsOfElements [.text tag (context.textAttributes default) content] =
      [.of tag content context.variant default] := by
  simp [textsOfElements, Element.shownText?, hlettering, ShownText.of,
    context.get?_textAttributes hattributes]

theorem textsOfElements_tableCell (children rest : List Element) :
    textsOfElements (.tableCell children :: rest) =
      textsOfElements children ++ textsOfElements rest := by
  rw [Element.tableCell, textsOfElements_layout]
  split
  · next hempty => simp [List.isEmpty_iff.mp hempty]
  · rfl

theorem textsOfElements_fractionElement (style : FractionStyle) (attributes : Attributes)
    (parts : List Element) :
    textsOfElements [fractionElement style attributes parts] = textsOfElements parts := by
  cases style <;> simp [fractionElement, Element.row]

theorem textsOfElements_fence (delimiter : Option Char) :
    textsOfElements (fence delimiter) = [] := by
  cases delimiter <;> simp [fence]

/-! ## Agreement -/

/-- The portion is of a formula and not of chemical notation. -/
def Portion.IsFormula : Portion → Prop
  | .segments _ => False
  | _ => True

/-- What is shown in the layout of a portion are the texts of the portion in
the typeface of the context. -/
theorem Laid.textsOfElements_eq {known : String → Prop} (hplain : ¬ known "\\ce")
    {portion : Portion} {context : Context} {elements : List Element}
    (hlaid : Laid known portion context elements) (hformula : portion.IsFormula)
    (hattributes : context.attributes = ∅) (hchemistry : context.chemistry = false) :
    textsOfElements elements = portion.shownTexts context.variant := by
  induction hlaid with
  | letter hclass =>
      rw [hchemistry]
      have hlettering := LiteralClass.ne_empty_of_letter hclass
      refine (textsOfElements_lettering hattributes ?_).trans ?_
      · simpa [Element.isLettering] using hlettering
      · simp [Portion.shownTexts, Node.shownTexts, literalTexts, hclass]
  | number hclass =>
      refine (textsOfElements_lettering hattributes rfl).trans ?_
      simp [Portion.shownTexts, Node.shownTexts, literalTexts, hclass]
  | tie =>
      have hclass : LiteralClass.of "~" = .symbol := by decide
      simp [Element.space, Portion.shownTexts, Node.shownTexts, literalTexts, hclass]
  | symbol hclass => simp [Portion.shownTexts, Node.shownTexts, literalTexts, hclass]
  | identifier hclass hentry =>
      refine (textsOfElements_lettering hattributes ?_).trans ?_
      · simp [Element.isLettering]
      · simp [Portion.shownTexts, Node.shownTexts, literalTexts, hclass, hentry, isGreekCapital]
  | operator hclass hentry =>
      simp [Portion.shownTexts, Node.shownTexts, literalTexts, hclass, hentry]
  | functionName hclass hentry =>
      refine (textsOfElements_lettering hattributes ?_).trans ?_
      · simpa [Element.isLettering] using bareName_ne_empty hclass
      · simp [Portion.shownTexts, Node.shownTexts, literalTexts, hclass, hentry]
  | space hclass hentry =>
      simp [Element.space, Portion.shownTexts, Node.shownTexts, literalTexts, hclass, hentry]
  | noItem | noCell | noRow => simp [Portion.shownTexts, textsOfAll, textsOfRows]
  | plainItem _ _ _ ihfirst ihothers =>
      rw [textsOfElements_append, ihfirst trivial hattributes hchemistry,
        ihothers trivial hattributes hchemistry]
      simp only [Portion.shownTexts, textsOfAll]
  | curlyItem _ _ _ ihfirst ihothers =>
      rw [textsOfElements_append, ihfirst trivial hattributes hchemistry,
        ihothers trivial hattributes hchemistry]
      simp only [Portion.shownTexts, textsOfAll]
  | noSequence | singleNothing => simp [Portion.shownTexts, Node.shownTexts, textsOfAll]
  | sequence _ ih =>
      rw [ih trivial hattributes hchemistry]
      simp only [Portion.shownTexts, Node.shownTexts]
  | alone _ _ ih => exact ih trivial hattributes hchemistry
  | singleOnly _ ih =>
      rw [ih trivial hattributes hchemistry]
      simp only [Portion.shownTexts, Node.shownTexts, textsOfAll, List.append_nil]
  | singleSeveral _ ih =>
      rw [Element.row, textsOfElements_layout, ih trivial hattributes hchemistry]
      simp only [Portion.shownTexts, Node.shownTexts, textsOfElements_nil, List.append_nil]
  | noAttached hempty => simp [Portion.shownTexts, Node.shownTexts_of_isEmptySequence hempty]
  | attached _ _ ih =>
      rw [Element.row, textsOfElements_layout, ih trivial rfl hchemistry]
      simp only [Portion.shownTexts, textsOfElements_nil, List.append_nil]
      rfl
  | script _ _ _ ihbase ihattached =>
      rw [textsOfElements_layout, textsOfElements_append, ihbase trivial hattributes hchemistry,
        ihattached trivial hattributes hchemistry]
      simp only [Portion.shownTexts, Node.shownTexts, textsOfElements_nil, List.append_nil]
  | accent hentry _ ih =>
      rw [textsOfElements_layout, textsOfElements_append, ih trivial hattributes hchemistry]
      simp [Portion.shownTexts, Node.shownTexts_around hentry .accent rfl]
  | @mark _ _ _ _ _ _ inner base hentry _ hbase ih =>
      have htexts : textsOfElements base = textsOfElements inner := by
        rw [hbase]
        split
        · simp [Element.row]
        · rfl
      simp only [Element.row, textsOfElements_layout, textsOfElements_append, htexts,
        ih trivial hattributes hchemistry]
      simp [Portion.shownTexts, Node.shownTexts_around hentry .mark rfl]
  | boldSymbol hentry _ ih =>
      rw [ih trivial hattributes hchemistry]
      simp only [Portion.shownTexts, Node.shownTexts_typeface hentry rfl, Context.withVariant]
  | font hentry _ ih =>
      rw [ih trivial hattributes hchemistry]
      simp only [Portion.shownTexts, Node.shownTexts_typeface hentry rfl, Context.withVariant]
  | enclosure hentry _ ih =>
      rw [Element.enclosure, textsOfElements_layout, ih trivial rfl hchemistry]
      simp [Portion.shownTexts, Node.shownTexts_around hentry .enclosure rfl,
        Context.withoutAttributes]
  | root hentry _ ih =>
      rw [textsOfElements_layout, ih trivial rfl hchemistry]
      simp [Portion.shownTexts, Node.shownTexts_around hentry .root rfl,
        Context.withoutAttributes]
  | text hentry hraw =>
      refine (textsOfElements_lettering hattributes rfl).trans ?_
      simp only [Portion.shownTexts, Node.shownTexts_textBox hentry hraw]
  | operatorName hentry htext hne =>
      refine (textsOfElements_lettering hattributes ?_).trans ?_
      · simpa [Element.isLettering] using hne
      · simp only [Portion.shownTexts, Node.shownTexts_operatorName hentry htext]
  | noDelimiter hentry => simp [Portion.shownTexts, Node.shownTexts_delimiter hentry]
  | delimiter hentry => simp [Portion.shownTexts, Node.shownTexts_delimiter hentry]
  | stack hentry _ _ ihbase ihmark =>
      have hstack := typefaceTables.stackings _ (mem_builtinEntries_of_get? hentry) rfl
      rw [textsOfElements_layout, textsOfElements_append, ihbase trivial rfl hchemistry,
        ihmark trivial rfl hchemistry]
      simp [Portion.shownTexts, Node.shownTexts, hstack, Context.withoutAttributes]
  | fraction hentry _ _ ihupper ihlower =>
      have hfraction := typefaceTables.fractions _ (mem_builtinEntries_of_get? hentry) rfl
      rw [Option.isNone_iff_eq_none] at hfraction
      rw [textsOfElements_fractionElement, textsOfElements_append, ihupper trivial rfl hchemistry,
        ihlower trivial rfl hchemistry]
      simp [Portion.shownTexts, Node.shownTexts, hfraction, Context.withoutAttributes]
  | cell _ _ _ ihcell ihcells =>
      rw [textsOfElements_tableCell, ihcell trivial hattributes hchemistry,
        ihcells trivial hattributes hchemistry]
      simp only [Portion.shownTexts, textsOfAll]
  | row _ _ ihcells ihrows =>
      rw [Element.tableRow, textsOfElements_layout, ihcells trivial hattributes hchemistry,
        ihrows trivial hattributes hchemistry]
      simp only [Portion.shownTexts, textsOfRows]
  | table _ _ ih =>
      rw [Element.table, textsOfElements_layout, ih trivial rfl hchemistry]
      simp [Portion.shownTexts, Node.shownTexts, Context.inTable, Context.withoutAttributes]
  | fencedTable _ ih =>
      simp only [Element.row, Element.table, textsOfElements_layout, textsOfElements_append,
        textsOfElements_fence, ih trivial rfl hchemistry]
      simp [Portion.shownTexts, Node.shownTexts, Context.inTable, Context.withoutAttributes]
  | chemistry hname hshape => exact absurd (eq_of_shape?_chemistry hshape ▸ hname) hplain
  | noSegment | arrow | atom | countedAtom | otherSegment => exact hformula.elim

/-- Every text of a formula without chemical notation is shown in the typeface
that is asked for closest to it, and nothing else carries a typeface. -/
theorem typefaces_of_layout {chemistry : Bool} {formula : String} {tree : Node}
    (hparse : parseFormula chemistry formula = .ok tree)
    (hplain : ¬ CommandIn (tokenize formula) "\\ce") (typeface : Option Variant)
    {elements : List Element}
    (hlayout : tree.layout .builtin { variant := typeface } = .ok elements) :
    (allElements elements).filterMap Element.shownText? = tree.shownTexts typeface ∧
      ∀ element ∈ allElements elements, element.isLettering = false →
        element.attributes.get? "mathvariant" = none := by
  have hlaid := laid_of_parseFormula hparse hlayout
  constructor
  · exact hlaid.textsOfElements_eq hplain trivial rfl rfl
  · intro element hmem hlettering
    have hnames := hlaid.haveOwnNames rfl element hmem
    rw [Element.ownNames, hlettering] at hnames
    apply Dictionary.get?_eq_none_of_not_mem
    intro hvariant
    have hstructural : "mathvariant" ∈ structuralNames := hnames hvariant
    exact absurd hstructural (by decide)

/-- The inner one of two typefaces wins, and a Greek capital that is in none is
upright. -/
theorem typefaces_of_nested_commands :
    ∃ tree elements,
      parseFormula false "\\mathbf\x7bx_\\mathrm\x7by\x7d\x7d\\Gamma+z" = .ok tree ∧
      ¬ CommandIn (tokenize "\\mathbf\x7bx_\\mathrm\x7by\x7d\x7d\\Gamma+z") "\\ce" ∧
      tree.layout .builtin { variant := none } = .ok elements ∧
      (allElements elements).filterMap Element.shownText? =
        [⟨.identifier, "x", some "bold"⟩, ⟨.identifier, "y", some "normal"⟩,
         ⟨.identifier, "Γ", some "normal"⟩, ⟨.identifier, "z", none⟩] := by
  have hparse : parseFormula false "\\mathbf\x7bx_\\mathrm\x7by\x7d\x7d\\Gamma+z" =
      .ok (.sequence false
        [.unary .braced "\\mathbf" (.sequence true
          [.script .under (.literal "x")
            (.unary .braced "\\mathrm" (.sequence true [.literal "y"]))]),
         .literal "\\Gamma", .literal "+", .literal "z"]) := by
    with_unfolding_all rfl
  have hlayout : (Node.sequence false
      [.unary .braced "\\mathbf" (.sequence true
        [.script .under (.literal "x")
          (.unary .braced "\\mathrm" (.sequence true [.literal "y"]))]),
       .literal "\\Gamma", .literal "+", .literal "z"]).layout .builtin { variant := none } =
      .ok [.layout .subscript ∅
          [.identifier (Dictionary.singleton "mathvariant" "bold") "x",
           .row ∅ [.identifier (Dictionary.singleton "mathvariant" "normal") "y"]],
        .identifier (Dictionary.singleton "mathvariant" "normal") "Γ", .operator ∅ "+",
        .identifier ∅ "z"] := by
    with_unfolding_all rfl
  have hplain :
      ¬ CommandIn (tokenize "\\mathbf\x7bx_\\mathrm\x7by\x7d\x7d\\Gamma+z") "\\ce" := by
    have htokens : ∀ lexeme ∈ tokenize "\\mathbf\x7bx_\\mathrm\x7by\x7d\x7d\\Gamma+z",
        lexeme.token ≠ .command "\\ce" := by
      decide +kernel
    rintro ⟨span, hmem⟩
    exact htokens _ hmem rfl
  refine ⟨_, _, hparse, hplain, hlayout, ?_⟩
  rw [(typefaces_of_layout hparse hplain none hlayout).1]
  with_unfolding_all rfl

end FormulaMarkup
