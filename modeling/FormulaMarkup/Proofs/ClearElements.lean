import FormulaMarkup.Proofs.TextBoxes

/-!
# Clear elements

The elements of a formula hold the words of its tree, signs of commands and the
texts of text boxes.  All but the last are without null characters, whatever the
formula: so the elements are clear exactly if the text boxes are.
-/

namespace FormulaMarkup

/-! ## The text that a text box shows -/

theorem mem_dropWhile_iff {p : Char → Bool} {c : Char} (hc : p c = false) (cs : List Char) :
    c ∈ cs.dropWhile p ↔ c ∈ cs := by
  induction cs with
  | nil => rfl
  | cons d rest ih =>
      rw [List.dropWhile_cons]
      split
      · next hd =>
        have hne : c ≠ d := by
          rintro rfl
          rw [hc] at hd
          cases hd
        rw [ih, List.mem_cons, or_iff_right hne]
      · rfl

theorem nul_mem_unescapeText_iff (cs : List Char) : '\x00' ∈ unescapeText cs ↔ '\x00' ∈ cs := by
  fun_induction unescapeText cs with
  | case1 => rfl
  | case2 c rest hescapable ih =>
      rw [List.mem_cons, List.mem_cons, List.mem_cons, ih]
      simp
  | case3 c rest _ ih => rw [List.mem_cons, List.mem_cons, ih]
  | case4 c rest _ ih => rw [List.mem_cons, List.mem_cons, ih]

theorem nul_mem_protectEdgeSpaces_iff (cs : List Char) :
    '\x00' ∈ protectEdgeSpaces cs ↔ '\x00' ∈ cs := by
  have hspace : isSpace '\x00' = false := by decide
  have hfill (count : Nat) : '\x00' ∉ List.replicate count noBreakSpace := by
    rw [List.mem_replicate]
    rintro ⟨_, hsame⟩
    exact absurd hsame (by decide)
  simp only [protectEdgeSpaces, dropTrailingSpaces, List.mem_append, hfill, or_false, false_or,
    List.mem_reverse, mem_dropWhile_iff hspace]

/-- What a text box shows is clear exactly if its content is. -/
theorem isClear_shownText_iff (raw : String) : IsClear (shownText raw) ↔ IsClear raw := by
  rw [IsClear, IsClear, shownText, String.toList_ofList, nul_mem_protectEdgeSpaces_iff,
    nul_mem_unescapeText_iff]

/-- A tree that has a text has no text boxes. -/
theorem Node.WordsClear.of_plainText? {node : Node} (hwords : node.WordsClear)
    {allowCommands : Bool} {text : String} (htext : node.plainText? allowCommands = some text) :
    node.boxes = [] ∧ IsClear text := by
  induction hwords generalizing text with
  | literal hvalue =>
      rw [Node.plainText?] at htext
      split at htext
      · cases htext
        exact ⟨by rw [Node.boxes], hvalue⟩
      · cases htext
  | @sequence curly items _ ih =>
      rw [Node.plainText?] at htext
      rw [Node.boxes]
      clear * - ih htext
      induction items generalizing text with
      | nil =>
          rw [plainTexts?] at htext
          cases htext
          exact ⟨rfl, isClear_empty⟩
      | cons item rest ihrest =>
          rw [List.forall_mem_cons] at ih
          rw [plainTexts?] at htext
          split at htext
          · next first others hfirst hothers =>
            cases htext
            obtain ⟨hboxes, hclear⟩ := ih.1 hfirst
            obtain ⟨hlater, hclears⟩ := ihrest ih.2 hothers
            rw [boxesOfAll, hboxes, hlater, isClear_append]
            exact ⟨rfl, hclear, hclears⟩
          · cases htext
  | script | unary | textBox | binary | table => cases htext

/-! ## Chemical segments -/

def ChemicalSegment.WordsClear : ChemicalSegment → Prop
  | .arrow symbol => IsClear symbol
  | .atom symbol count => IsClear symbol ∧ ∀ number ∈ count, IsClear number
  | .other piece => piece.node.WordsClear

theorem Piece.isClear_of_literal? {piece : Piece} (hpiece : piece.node.WordsClear) {value : String}
    (hvalue : piece.literal? = some value) : IsClear value := by
  obtain ⟨node, layout⟩ := piece
  cases hpiece with
  | literal hliteral =>
      cases hvalue
      exact hliteral
  | _ => cases hvalue

section Segments

variable {pieces : List Piece}

theorem isClear_splitSmallLetters (hpieces : ∀ piece ∈ pieces, piece.node.WordsClear) :
    IsClear (splitSmallLetters pieces).1 := by
  induction pieces with
  | nil => exact isClear_empty
  | cons first others ih =>
      rw [List.forall_mem_cons] at hpieces
      simp only [splitSmallLetters]
      split
      · next hfirst =>
        split
        · exact isClear_append.mpr ⟨Piece.isClear_of_literal? hpieces.1 hfirst, ih hpieces.2⟩
        · exact isClear_empty
      · exact isClear_empty

theorem isClear_splitCount (hpieces : ∀ piece ∈ pieces, piece.node.WordsClear) :
    ∀ number ∈ (splitCount pieces).1, IsClear number := by
  cases pieces with
  | nil => simp [splitCount]
  | cons first others =>
      rw [List.forall_mem_cons] at hpieces
      simp only [splitCount]
      split
      · next hfirst =>
        split
        · rintro number ⟨⟩
          exact Piece.isClear_of_literal? hpieces.1 hfirst
        · simp
      · simp

theorem wordsClear_splitSegment {first : Piece} (hfirst : first.node.WordsClear)
    (hpieces : ∀ piece ∈ pieces, piece.node.WordsClear) :
    (splitSegment first pieces).1.WordsClear := by
  have harrows : ∀ arrow ∈ reactionArrows, IsClear arrow.2 := by decide
  unfold splitSegment
  split
  · next harrow =>
    obtain ⟨arrow, hmem, hfound⟩ := List.exists_of_findSome?_eq_some harrow
    obtain ⟨after, _, hafter⟩ := Option.map_eq_some_iff.mp hfound
    cases hafter
    exact harrows arrow hmem
  · split
    · next hvalue =>
      split
      · refine ⟨isClear_append.mpr ⟨Piece.isClear_of_literal? hfirst hvalue, ?_⟩, ?_⟩
        · exact isClear_splitSmallLetters hpieces
        · exact isClear_splitCount fun piece hmem => hpieces piece (mem_of_splitSmallLetters hmem)
      · exact hfirst
    · exact hfirst

theorem wordsClear_chemicalSegments (hpieces : ∀ piece ∈ pieces, piece.node.WordsClear) :
    ∀ segment ∈ chemicalSegments pieces, segment.WordsClear := by
  fun_induction chemicalSegments pieces with
  | case1 => simp
  | case2 first rest ih =>
      refine List.forall_mem_cons.mpr ⟨?_, ih ?_⟩
      · rw [List.forall_mem_cons] at hpieces
        exact wordsClear_splitSegment hpieces.1 hpieces.2
      · exact fun piece hmem => hpieces piece (mem_of_splitSegment hmem)

end Segments

/-! ## The contents of elements -/

/-- The text that an element itself holds. -/
def Element.content : Element → String
  | .text _ _ content => content
  | .layout _ _ _ => ""

def ContentsClear (elements : List Element) : Prop :=
  ∀ element ∈ allElements elements, IsClear element.content

theorem contentsClear_nil : ContentsClear [] := by simp [ContentsClear]

theorem contentsClear_append_iff {first second : List Element} :
    ContentsClear (first ++ second) ↔ ContentsClear first ∧ ContentsClear second := by
  simp [ContentsClear, or_imp, forall_and]

theorem contentsClear_cons_iff {element : Element} {rest : List Element} :
    ContentsClear (element :: rest) ↔ ContentsClear [element] ∧ ContentsClear rest := by
  rw [← contentsClear_append_iff, List.singleton_append]

theorem contentsClear_text_iff {tag : TextTag} {attributes : Attributes} {content : String} :
    ContentsClear [.text tag attributes content] ↔ IsClear content := by
  simp [ContentsClear, Element.content]

theorem contentsClear_layout_iff {tag : LayoutTag} {attributes : Attributes}
    {children : List Element} :
    ContentsClear [.layout tag attributes children] ↔ ContentsClear children := by
  simp only [ContentsClear, allElements_cons, allElements_nil, List.append_nil, withInner_layout,
    List.forall_mem_cons]
  exact and_iff_right isClear_empty

theorem contentsClear_fractionElement_iff {style : FractionStyle} {attributes : Attributes}
    {parts : List Element} :
    ContentsClear [fractionElement style attributes parts] ↔ ContentsClear parts := by
  cases style with
  | inherited | display | text => exact contentsClear_layout_iff
  | binomial =>
      have hopen : ContentsClear [.operator ∅ "("] := contentsClear_text_iff.mpr (by decide)
      have hclose : ContentsClear [.operator ∅ ")"] := contentsClear_text_iff.mpr (by decide)
      rw [fractionElement, Element.row, contentsClear_layout_iff, contentsClear_cons_iff,
        and_iff_right hopen, contentsClear_cons_iff, and_iff_left hclose, contentsClear_layout_iff]

theorem contentsClear_placeholder : ContentsClear [.placeholder] :=
  contentsClear_text_iff.mpr isClear_empty

theorem contentsClear_tableCell_iff {children : List Element} :
    ContentsClear [.tableCell children] ↔ ContentsClear children := by
  rw [Element.tableCell, contentsClear_layout_iff]
  cases children with
  | nil => exact iff_of_true contentsClear_placeholder contentsClear_nil
  | cons element rest => rfl

theorem contentsClear_fences (environment : Environment) :
    ContentsClear (fence environment.style.opening) ∧
      ContentsClear (fence environment.style.closing) := by
  have hfence {delimiter : Option Char} (hdelimiter : delimiter ≠ some '\x00') :
      ContentsClear (fence delimiter) := by
    cases delimiter with
    | none => exact contentsClear_nil
    | some c =>
        refine contentsClear_text_iff.mpr ?_
        simpa [IsClear, eq_comm] using hdelimiter
  constructor
  · exact hfence (by cases environment <;> decide)
  · exact hfence (by cases environment <;> decide)

theorem isClear_bareName {name : String} (hname : IsClear name) : IsClear (bareName name) := by
  unfold bareName
  split
  · next rest hcharacters =>
    rw [IsClear, hcharacters, List.mem_cons, not_or] at hname
    rw [IsClear, String.toList_ofList]
    exact hname.2
  · exact hname

theorem isClear_delimiterText {name value text : String} (hvalue : IsClear value)
    (htext : delimiterText .builtin name value = .ok (some text)) : IsClear text := by
  unfold delimiterText at htext
  split at htext
  · split at htext
    · cases htext
    · cases htext
      exact hvalue
  · split at htext
    · cases htext
    · next entry hentry =>
      split at htext
      · next c hcodepoint =>
        cases htext
        exact isClear_of_get? hentry _ (by simp [Entry.texts, hcodepoint])
      · cases htext
  · cases htext

/-! ## Portions of a tree -/

theorem shape?_eq_rawText_iff {name : String} {entry : Entry}
    (hentry : Registry.builtin.get? name = some entry) :
    shape? name = some .rawText ↔ entry.handler = .text := by
  have hserves := serves_of_get? hentry
  generalize shape? name = shape at hserves
  cases hserves with
  | alone halone => cases halone <;> simp
  | braced _ htakes => cases htakes <;> simp
  | bare htakes => cases htakes <;> simp
  | twoBraced htakes => cases htakes <;> simp
  | operatorName | text | chemistry | delimiter => simp

/-- A command that takes no text box has the text boxes of its argument. -/
theorem Node.WordsClear.argument {style : ArgumentStyle} {name : String} {argument : Node}
    (hwords : (Node.unary style name argument).WordsClear)
    (hshape : shape? name ≠ some .rawText) :
    argument.WordsClear ∧ (Node.unary style name argument).boxes = argument.boxes := by
  refine ⟨?_, boxes_unary hshape⟩
  cases hwords with
  | unary _ _ hargument => exact hargument
  | textBox _ hraw => exact absurd hraw hshape

def Portion.WordsClear : Portion → Prop
  | .inline node => node.WordsClear
  | .single node => node.WordsClear
  | .items nodes => ∀ node ∈ nodes, node.WordsClear
  | .attached node => node.WordsClear
  | .cells nodes => ∀ node ∈ nodes, node.WordsClear
  | .rows grid => ∀ row ∈ grid, ∀ cell ∈ row, cell.WordsClear
  | .segments parts => ∀ part ∈ parts, part.WordsClear

def Portion.boxes : Portion → List String
  | .inline node => node.boxes
  | .single node => node.boxes
  | .items nodes => boxesOfAll nodes
  | .attached node => node.boxes
  | .cells nodes => boxesOfAll nodes
  | .rows grid => boxesOfRows grid
  | .segments parts => parts.flatMap (ChemicalSegment.collect Node.boxes)

theorem iff_of_no_boxes {elements : List Element} {boxes : List String} (hboxes : boxes = [])
    (helements : ContentsClear elements) :
    ContentsClear elements ↔ ∀ box ∈ boxes, IsClear box := by
  simp [hboxes, helements]

/-- The elements of a portion are clear exactly if its text boxes are. -/
theorem Laid.contentsClear_iff {known : String → Prop} {portion : Portion} {context : Context}
    {elements : List Element} (hlaid : Laid known portion context elements)
    (hwords : portion.WordsClear) :
    ContentsClear elements ↔ ∀ box ∈ portion.boxes, IsClear box := by
  have hreplaced : ∀ shown ∈ ["−", "′", "∗"], IsClear shown := by decide
  have hsign {name : String} {handler : Handler} {c : Char} {family : Family}
      (hentry : Registry.builtin.get? name = some ⟨handler, some c, family⟩) :
      IsClear c.toString :=
    isClear_of_get? hentry _ (by simp [Entry.texts])
  have htextless {name : String} {entry : Entry}
      (hentry : Registry.builtin.get? name = some entry) (hhandler : entry.handler ≠ .text) :
      shape? name ≠ some .rawText :=
    fun hshape => hhandler ((shape?_eq_rawText_iff hentry).mp hshape)
  induction hlaid with
  | letter _ | number _ =>
      cases hwords with
      | literal hvalue => exact iff_of_no_boxes rfl (contentsClear_text_iff.mpr hvalue)
  | tie => exact iff_of_no_boxes rfl (contentsClear_layout_iff.mpr contentsClear_nil)
  | @symbol value shown _ _ hshown =>
      cases hwords with
      | literal hvalue =>
          refine iff_of_no_boxes rfl (contentsClear_text_iff.mpr ?_)
          rcases hshown with rfl | hshown
          · exact hvalue
          · exact hreplaced shown hshown
  | identifier _ hentry | operator _ hentry =>
      exact iff_of_no_boxes rfl (contentsClear_text_iff.mpr (hsign hentry))
  | functionName _ _ =>
      cases hwords with
      | literal hvalue =>
          exact iff_of_no_boxes rfl (contentsClear_text_iff.mpr (isClear_bareName hvalue))
  | space => exact iff_of_no_boxes rfl (contentsClear_layout_iff.mpr contentsClear_nil)
  | noItem | noCell | noRow | noSegment => exact iff_of_no_boxes rfl contentsClear_nil
  | plainItem _ _ _ ihfirst ihothers | curlyItem _ _ _ ihfirst ihothers =>
      rw [Portion.WordsClear, List.forall_mem_cons] at hwords
      rw [Portion.boxes, boxesOfAll, List.forall_mem_append, contentsClear_append_iff]
      exact and_congr (ihfirst hwords.1) (ihothers hwords.2)
  | noSequence | singleNothing => exact iff_of_no_boxes rfl contentsClear_placeholder
  | @noAttached node _ hempty =>
      refine iff_of_no_boxes ?_ contentsClear_placeholder
      unfold Node.isEmptySequence at hempty
      split at hempty
      · rfl
      · cases hempty
  | sequence _ ih =>
      cases hwords with
      | sequence hitems => exact ih hitems
  | alone _ _ ih => exact ih hwords
  | singleOnly _ ih =>
      cases hwords with
      | sequence hitems =>
          rw [Portion.boxes, Node.boxes, boxesOfAll, boxesOfAll, List.append_nil]
          exact ih (hitems _ List.mem_cons_self)
  | singleSeveral _ ih =>
      cases hwords with
      | sequence hitems =>
          rw [Element.row, contentsClear_layout_iff]
          exact ih hitems
  | attached _ _ ih =>
      rw [Element.row, contentsClear_layout_iff]
      exact ih hwords
  | script _ _ _ ihbase ihattached =>
      cases hwords with
      | script hbase hattached =>
          rw [Portion.boxes, Node.boxes, List.forall_mem_append, contentsClear_layout_iff,
            contentsClear_append_iff]
          exact and_congr (ihbase hbase) (ihattached hattached)
  | accent hentry _ ih =>
      obtain ⟨hargument, hboxes⟩ := hwords.argument (htextless hentry (by simp))
      rw [Portion.boxes, hboxes, contentsClear_layout_iff, contentsClear_append_iff]
      exact (and_iff_left (contentsClear_text_iff.mpr (hsign hentry))).trans (ih hargument)
  | @mark _ _ _ _ _ _ elements base hentry _ hbase ih =>
      obtain ⟨hargument, hboxes⟩ := hwords.argument (htextless hentry (by simp))
      have hbase : ContentsClear base ↔ ContentsClear elements := by
        rw [hbase]
        split
        · exact contentsClear_layout_iff
        · rfl
      rw [Portion.boxes, hboxes, Element.row, contentsClear_layout_iff, contentsClear_layout_iff,
        contentsClear_append_iff, hbase]
      exact (and_iff_left (contentsClear_text_iff.mpr (hsign hentry))).trans (ih hargument)
  | boldSymbol hentry _ ih | font hentry _ ih =>
      obtain ⟨hargument, hboxes⟩ := hwords.argument (htextless hentry (by simp))
      rw [Portion.boxes, hboxes]
      exact ih hargument
  | enclosure hentry _ ih | root hentry _ ih =>
      obtain ⟨hargument, hboxes⟩ := hwords.argument (htextless hentry (by simp))
      rw [Portion.boxes, hboxes]
      exact contentsClear_layout_iff.trans (ih hargument)
  | text hentry hraw =>
      have hshape := (shape?_eq_rawText_iff hentry).mpr rfl
      cases hwords with
      | unary _ hother _ => exact absurd hshape hother
      | textBox _ _ =>
          rw [plainText?_boxedText] at hraw
          cases hraw
          rw [Portion.boxes, boxes_unary_rawText _ hshape, List.forall_mem_singleton,
            ← isClear_shownText_iff]
          exact contentsClear_text_iff
  | operatorName hentry htext _ =>
      obtain ⟨hargument, hboxes⟩ := hwords.argument (htextless hentry (by simp))
      obtain ⟨hnone, hclear⟩ := hargument.of_plainText? htext
      exact iff_of_no_boxes (hboxes.trans hnone) (contentsClear_text_iff.mpr hclear)
  | noDelimiter hentry _ =>
      obtain ⟨_, hboxes⟩ := hwords.argument (htextless hentry (by simp))
      exact iff_of_no_boxes hboxes contentsClear_nil
  | delimiter hentry htext =>
      obtain ⟨hargument, hboxes⟩ := hwords.argument (htextless hentry (by simp))
      refine iff_of_no_boxes hboxes (contentsClear_text_iff.mpr ?_)
      cases hargument with
      | literal hvalue => exact isClear_delimiterText hvalue htext
  | stack _ _ _ ihbase ihmark =>
      cases hwords with
      | binary _ hfirst hsecond =>
          rw [Portion.boxes, Node.boxes, List.forall_mem_append, contentsClear_layout_iff,
            contentsClear_append_iff, and_comm]
          exact and_congr (ihmark hfirst) (ihbase hsecond)
  | fraction _ _ _ ihupper ihlower =>
      cases hwords with
      | binary _ hfirst hsecond =>
          rw [Portion.boxes, Node.boxes, List.forall_mem_append, contentsClear_fractionElement_iff,
            contentsClear_append_iff]
          exact and_congr (ihupper hfirst) (ihlower hsecond)
  | cell _ _ _ ihcell ihcells =>
      rw [Portion.WordsClear, List.forall_mem_cons] at hwords
      rw [Portion.boxes, boxesOfAll, List.forall_mem_append, contentsClear_cons_iff,
        contentsClear_tableCell_iff]
      exact and_congr (ihcell hwords.1) (ihcells hwords.2)
  | row _ _ ihcells ihrows =>
      rw [Portion.WordsClear, List.forall_mem_cons] at hwords
      rw [Portion.boxes, boxesOfRows, List.forall_mem_append, contentsClear_cons_iff,
        Element.tableRow, contentsClear_layout_iff]
      exact and_congr (ihcells hwords.1) (ihrows hwords.2)
  | table _ _ ih =>
      cases hwords with
      | table hcells => exact contentsClear_layout_iff.trans (ih hcells)
  | @fencedTable environment _ _ _ _ ih =>
      cases hwords with
      | table hcells =>
          obtain ⟨hopen, hclose⟩ := contentsClear_fences environment
          rw [Element.row, contentsClear_layout_iff, contentsClear_append_iff,
            contentsClear_append_iff, and_iff_left hclose, and_iff_right hopen]
          exact contentsClear_layout_iff.trans (ih hcells)
  | @chemistry _ _ _ items _ _ _ hshape _ ih =>
      obtain ⟨hargument, hboxes⟩ := hwords.argument (by simp [hshape])
      cases hargument with
      | sequence hitems =>
          have hpieces : ∀ piece ∈ items.map fun item => (⟨item, item.layout .builtin⟩ : Piece),
              piece.node.WordsClear := by
            simpa using hitems
          have hsegments := ih (wordsClear_chemicalSegments hpieces)
          rw [Portion.boxes, flatMap_chemicalSegments fun _ => rfl, List.flatMap_map] at hsegments
          rw [Portion.boxes, hboxes, Node.boxes, boxesOfAll_eq_flatMap, Element.row,
            contentsClear_layout_iff]
          exact hsegments
  | arrow _ ih =>
      rw [Portion.WordsClear, List.forall_mem_cons] at hwords
      rw [contentsClear_cons_iff]
      exact (and_iff_right (contentsClear_text_iff.mpr hwords.1)).trans (ih hwords.2)
  | atom _ _ ih =>
      rw [Portion.WordsClear, List.forall_mem_cons] at hwords
      rw [contentsClear_cons_iff]
      exact (and_iff_right (contentsClear_text_iff.mpr hwords.1.1)).trans (ih hwords.2)
  | countedAtom _ _ ih =>
      rw [Portion.WordsClear, List.forall_mem_cons] at hwords
      obtain ⟨⟨hsymbol, hcount⟩, hothers⟩ := hwords
      rw [contentsClear_cons_iff, contentsClear_layout_iff, contentsClear_cons_iff]
      refine (and_iff_right ⟨?_, ?_⟩).trans (ih hothers)
      · exact contentsClear_text_iff.mpr hsymbol
      · exact contentsClear_text_iff.mpr (hcount _ rfl)
  | otherSegment _ _ ihpiece ihothers =>
      rw [Portion.WordsClear, List.forall_mem_cons] at hwords
      rw [Portion.boxes, List.flatMap_cons, List.forall_mem_append, contentsClear_append_iff]
      exact and_congr (ihpiece hwords.1) (ihothers hwords.2)

end FormulaMarkup
