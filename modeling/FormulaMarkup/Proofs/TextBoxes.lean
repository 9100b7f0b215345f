import FormulaMarkup.Proofs.BracedScripts
import FormulaMarkup.Proofs.CharacterPlaces
import FormulaMarkup.Proofs.OwnAttributes

/-!
# Text boxes

The text boxes of a formula are kept as they are: the tree has the contents of
all of them, in their order, and they are written again in its canonical text.
Everything else in a tree was read character by character and is clear, that is
without null characters.  So null characters of the canonical text come from text
boxes.
-/

namespace FormulaMarkup

/-! ## Clear texts -/

theorem isClear_empty : IsClear "" := by decide

theorem isClear_append {first second : String} :
    IsClear (first ++ second) ↔ IsClear first ∧ IsClear second := by
  simp [IsClear]

theorem isClear_join {texts : List String} :
    IsClear (String.join texts) ↔ ∀ text ∈ texts, IsClear text := by
  induction texts with
  | nil => exact iff_of_true isClear_empty nofun
  | cons text rest ih => rw [String.join_cons, isClear_append, ih, List.forall_mem_cons]

theorem isClear_intercalate {separator : String} (hseparator : IsClear separator)
    {texts : List String} :
    IsClear (String.intercalate separator texts) ↔ ∀ text ∈ texts, IsClear text := by
  have hlist : ∀ texts : List (List Char),
      '\x00' ∉ List.intercalate separator.toList texts ↔ ∀ text ∈ texts, '\x00' ∉ text := by
    intro texts
    induction texts with
    | nil => simp [List.intercalate]
    | cons text rest ih =>
        cases rest with
        | nil => simp [List.intercalate]
        | cons next others =>
            have hsplit : List.intercalate separator.toList (text :: next :: others) =
                text ++ (separator.toList ++
                  List.intercalate separator.toList (next :: others)) := by
              simp [List.intercalate]
            have hbetween : '\x00' ∉ separator.toList := hseparator
            rw [hsplit, List.mem_append, List.mem_append, not_or, not_or, ih,
              and_iff_right hbetween]
            exact (List.forall_mem_cons (p := fun text => '\x00' ∉ text)).symm
  simpa [IsClear] using hlist (texts.map String.toList)

theorem isClear_inBraces {text : String} : IsClear (inBraces text) ↔ IsClear text := by
  simp [inBraces, IsClear]

theorem isClear_bracing {node : Node} {text : String} :
    IsClear (node.bracing text) ↔ IsClear text := by
  unfold Node.bracing
  split
  · rfl
  · exact isClear_inBraces

theorem isClear_literalText {mode : TextMode} {value : String} :
    IsClear (literalText mode value) ↔ IsClear value := by
  cases mode with
  | verbatim => rfl
  | canonical =>
      simp only [literalText]
      split
      · simp [IsClear]
      · rfl

theorem IsPlain.isClear {c : Char} (hplain : IsPlain c) : IsClear c.toString := by
  have hspecial := hplain.special
  simp only [List.mem_cons, List.not_mem_nil, or_false, not_or] at hspecial
  simpa [IsClear] using Ne.symm hspecial.2.2.2.2

theorem IsCommand.isClear {name : String} (hname : IsCommand name) : IsClear name := by
  obtain ⟨word, rfl, hword⟩ := hname
  simpa [IsClear] using hword.not_mem (c := '\x00') (by simp)

/-! ## The text boxes of a tree -/

mutual

/-- The contents of the text boxes of a tree, in order. -/
def Node.boxes : Node → List String
  | .literal _ => []
  | .sequence _ items => boxesOfAll items
  | .script _ base attached => base.boxes ++ attached.boxes
  | .unary _ name argument =>
      if shape? name = some .rawText then [argument.text .verbatim] else argument.boxes
  | .binary _ first second => first.boxes ++ second.boxes
  | .table _ rows => boxesOfRows rows

def boxesOfAll : List Node → List String
  | [] => []
  | node :: rest => node.boxes ++ boxesOfAll rest

def boxesOfRows : List (List Node) → List String
  | [] => []
  | row :: rest => boxesOfAll row ++ boxesOfRows rest

end

theorem boxesOfAll_eq_flatMap (nodes : List Node) :
    boxesOfAll nodes = nodes.flatMap Node.boxes := by
  induction nodes with
  | nil => rfl
  | cons node rest ih => rw [boxesOfAll, ih, List.flatMap_cons]

theorem boxesOfRows_eq_flatMap (rows : List (List Node)) :
    boxesOfRows rows = rows.flatMap boxesOfAll := by
  induction rows with
  | nil => rfl
  | cons row rest ih => rw [boxesOfRows, ih, List.flatMap_cons]

theorem boxes_unary_rawText (style : ArgumentStyle) {name : String}
    (hshape : shape? name = some .rawText) (content : String) :
    (Node.unary style name (boxedText content)).boxes = [content] := by
  rw [Node.boxes, if_pos hshape, text_boxedText]

theorem boxes_unary {style : ArgumentStyle} {name : String} {argument : Node}
    (hshape : shape? name ≠ some .rawText) :
    (Node.unary style name argument).boxes = argument.boxes := by
  rw [Node.boxes, if_neg hshape]

/-- Everything in the tree but the contents of its text boxes is clear. -/
inductive Node.WordsClear : Node → Prop
  | literal {value : String} (hvalue : IsClear value) : WordsClear (.literal value)
  | sequence {curly : Bool} {items : List Node} (hitems : ∀ item ∈ items, item.WordsClear) :
      WordsClear (.sequence curly items)
  | script {side : Side} {base attached : Node} (hbase : base.WordsClear)
      (hattached : attached.WordsClear) : WordsClear (.script side base attached)
  | unary {style : ArgumentStyle} {name : String} {argument : Node} (hname : IsClear name)
      (hshape : shape? name ≠ some .rawText) (hargument : argument.WordsClear) :
      WordsClear (.unary style name argument)
  | textBox {name content : String} (hname : IsClear name)
      (hshape : shape? name = some .rawText) :
      WordsClear (.unary .braced name (boxedText content))
  | binary {name : String} {first second : Node} (hname : IsClear name)
      (hfirst : first.WordsClear) (hsecond : second.WordsClear) :
      WordsClear (.binary name first second)
  | table {environment : Environment} {rows : List (List Node)}
      (hcells : ∀ row ∈ rows, ∀ cell ∈ row, cell.WordsClear) :
      WordsClear (.table environment rows)

theorem forall_mem_boxesOfAll_iff {nodes : List Node} :
    (∀ box ∈ boxesOfAll nodes, IsClear box) ↔ ∀ node ∈ nodes, ∀ box ∈ node.boxes, IsClear box := by
  rw [boxesOfAll_eq_flatMap, List.forall_mem_flatMap]

theorem forall_mem_boxesOfRows_iff {rows : List (List Node)} :
    (∀ box ∈ boxesOfRows rows, IsClear box) ↔
      ∀ row ∈ rows, ∀ cell ∈ row, ∀ box ∈ cell.boxes, IsClear box := by
  rw [boxesOfRows_eq_flatMap, List.forall_mem_flatMap]
  simp only [forall_mem_boxesOfAll_iff]

/-- The canonical text is clear exactly if all text boxes are. -/
theorem Node.WordsClear.isClear_text_iff {node : Node} (hwords : node.WordsClear) :
    IsClear (node.text .canonical) ↔ ∀ box ∈ node.boxes, IsClear box := by
  induction hwords with
  | literal hvalue => simpa [Node.text, Node.boxes, isClear_literalText] using hvalue
  | @sequence curly items _ ih =>
      have hitems : IsClear (String.join (items.map fun item => item.text .canonical)) ↔
          ∀ item ∈ items, ∀ box ∈ item.boxes, IsClear box := by
        rw [isClear_join, List.forall_mem_map]
        exact forall₂_congr ih
      rw [Node.boxes, forall_mem_boxesOfAll_iff, ← hitems, Node.text, nodeTexts_eq_map]
      cases curly with
      | false => rfl
      | true => exact isClear_inBraces
  | @script side base attached _ _ ihbase ihattached =>
      have hmark : IsClear side.mark := by cases side <;> decide
      rw [Node.boxes, List.forall_mem_append, ← ihbase, ← ihattached, Node.text, isClear_append,
        isClear_append, isClear_bracing, and_iff_left hmark]
  | @unary style name argument hname hshape _ ih =>
      rw [boxes_unary hshape, ← ih]
      cases style with
      | braced =>
          rw [Node.text, if_neg hshape, isClear_append, isClear_bracing, and_iff_right hname]
      | bare =>
          have hblank : IsClear (name ++ " ") := isClear_append.mpr ⟨hname, by decide⟩
          rw [Node.text, isClear_append, and_iff_right hblank]
  | textBox hname hshape =>
      rw [boxes_unary_rawText _ hshape, Node.text, if_pos hshape, text_boxedText, isClear_append,
        isClear_inBraces, and_iff_right hname, List.forall_mem_singleton]
  | binary hname _ _ ihfirst ihsecond =>
      rw [Node.boxes, List.forall_mem_append, ← ihfirst, ← ihsecond, Node.text, isClear_append,
        isClear_append, isClear_bracing, isClear_bracing, and_iff_right hname]
  | @table environment rows _ ih =>
      have hname : IsClear (inBraces environment.name) := by cases environment <;> decide
      have hrows : IsClear (String.intercalate "\\\\" (rowTexts rows)) ↔
          ∀ row ∈ rows, ∀ cell ∈ row, ∀ box ∈ cell.boxes, IsClear box := by
        rw [isClear_intercalate (by decide), rowTexts_eq_map, List.forall_mem_map]
        refine forall₂_congr fun row hrow => ?_
        rw [isClear_intercalate (by decide), List.forall_mem_map]
        exact forall₂_congr (ih row hrow)
      rw [Node.boxes, forall_mem_boxesOfRows_iff, ← hrows, Node.text]
      simp only [isClear_append, hname, and_true]
      exact ⟨fun h => h.1.2, fun h => ⟨⟨by decide, h⟩, by decide⟩⟩

/-! ## Trees of formulas -/

/-- The words of a phrase are clear.  Scripts keep what holds of their base. -/
def Phrase.WordsClear : Phrase → Prop
  | .primary node => node.WordsClear
  | .group node => node.WordsClear
  | .scripts _ base node => base.WordsClear → node.WordsClear
  | .items nodes => ∀ node ∈ nodes, node.WordsClear
  | .sequence nodes => ∀ node ∈ nodes, node.WordsClear
  | .rows _ grid => ∀ row ∈ grid, ∀ cell ∈ row, cell.WordsClear

theorem Formed.wordsClear {chemistry : Bool} {phrase : Phrase}
    (hformed : Formed chemistry phrase) : phrase.WordsClear := by
  induction hformed with
  | character hplain _ => exact .literal hplain.isClear
  | @number c numerals hplain _ hnumerals =>
      refine .literal ?_
      have hcharacters : ∀ d ∈ c :: numerals, IsPlain d :=
        List.forall_mem_cons.mpr ⟨hplain, fun d hd => (hnumerals d hd).plain⟩
      rw [IsClear, String.toList_ofList]
      exact fun hnul => (hcharacters _ hnul).special (by simp)
  | command hname _ => exact .literal hname.isClear
  | inBraces _ ih => exact ih
  | braced hname hshape _ ih => exact .unary hname.isClear (by simp [hshape]) ih
  | chemical _ hname hshape _ ih => exact .unary hname.isClear (by simp [hshape]) ih
  | bare hname hshape _ ih => exact .unary hname.isClear (by simp [hshape]) ih
  | twoBraced hname _ _ _ ihfirst ihsecond => exact .binary hname.isClear ihfirst ihsecond
  | textBox hname hshape _ => exact .textBox hname.isClear hshape
  | symbolDelimiter hname hshape hplain _ =>
      exact .unary hname.isClear (by simp [hshape]) (.literal hplain.isClear)
  | commandDelimiter hname hshape hdelimiter _ =>
      exact .unary hname.isClear (by simp [hshape]) (.literal hdelimiter.isClear)
  | environment _ ih => exact .table ih
  | group _ ih => exact .sequence ih
  | noScript => exact id
  | script _ _ ihattached ihscripts =>
      intro hbase
      exact ihscripts (.script hbase ihattached)
  | noItem => exact nofun
  | item _ _ _ _ ihbase ihscripts ihnodes =>
      exact List.forall_mem_cons.mpr ⟨ihscripts ihbase, ihnodes⟩
  | sequence _ ih => exact ih
  | sequenceOfScripts _ _ _ _ ihscripts ihnodes =>
      exact List.forall_mem_cons.mpr ⟨ihscripts (.sequence nofun), ihnodes⟩
  | lastCell _ ih => simpa [Phrase.WordsClear] using Node.WordsClear.sequence ih
  | nextCell _ _ ihcell ihrows =>
      rw [Phrase.WordsClear, List.forall_mem_cons] at ihrows ⊢
      exact ⟨List.forall_mem_cons.mpr ⟨.sequence ihcell, ihrows.1⟩, ihrows.2⟩
  | nextRow _ _ ihcell ihrows =>
      refine List.forall_mem_cons.mpr ⟨?_, ihrows⟩
      simpa using Node.WordsClear.sequence ihcell

def Token.box? : Token → Option String
  | .rawText content => some content
  | _ => none

/-- The contents of the text boxes among the lexemes. -/
def boxesOfLexemes (lexemes : List Lexeme) : List String :=
  lexemes.filterMap fun lexeme => lexeme.token.box?

theorem boxesOfLexemes_cons {lexeme : Lexeme} (hbox : lexeme.token.box? = none)
    (rest : List Lexeme) : boxesOfLexemes (lexeme :: rest) = boxesOfLexemes rest :=
  List.filterMap_cons_none hbox

theorem NumberRun.boxesOfLexemes_eq {offset : Nat} {input rest : List Lexeme}
    {numerals : List Char} (hrun : NumberRun offset input numerals rest) :
    boxesOfLexemes input = boxesOfLexemes rest := by
  induction hrun with
  | stop => rfl
  | @next lexeme c _ _ _ hnumeral _ ih =>
      have hbox : lexeme.token.box? = none := by
        rcases Token.numeral?_eq_some_iff.mp hnumeral with htoken | ⟨htoken, _⟩
        · rw [htoken]
          rfl
        · rw [htoken]
          rfl
      rw [boxesOfLexemes_cons hbox, ih]

/-- The text boxes that were read before a phrase.  Scripts come after their base. -/
def Phrase.boxesBefore : Phrase → List String
  | .scripts _ base _ => base.boxes
  | _ => []

/-- The text boxes that have been read after a phrase. -/
def Phrase.boxes : Phrase → List String
  | .primary node => node.boxes
  | .group node => node.boxes
  | .scripts _ _ node => node.boxes
  | .items nodes => boxesOfAll nodes
  | .sequence nodes => boxesOfAll nodes
  | .rows _ grid => boxesOfRows grid

theorem LastRowDropped.boxesOfRows_eq {read kept : List (List Node)}
    (hkept : LastRowDropped read kept) : boxesOfRows read = boxesOfRows kept := by
  rcases hkept with ⟨_, rfl⟩ | ⟨rfl, _⟩
  · rw [boxesOfRows_eq_flatMap, boxesOfRows_eq_flatMap, List.flatMap_append]
    simp [boxesOfAll, Node.boxes]
  · rfl

/-- The text boxes of a phrase are those among its lexemes. -/
theorem Derives.boxes_eq {chemistry : Bool} {depth : Nat} {phrase : Phrase}
    {input rest : List Lexeme} (hderives : Derives chemistry depth phrase input rest) :
    phrase.boxesBefore ++ boxesOfLexemes input = phrase.boxes ++ boxesOfLexemes rest := by
  induction hderives with
  | letter | symbol | command => rfl
  | number hrun => exact hrun.boxesOfLexemes_eq
  | inBraces _ ih | sequence _ ih => exact ih
  | braced hshape _ ih | chemical _ hshape _ ih | bare hshape _ ih =>
      rw [Phrase.boxes, boxes_unary (by simp [hshape])]
      exact ih
  | @twoBraced _ _ _ first second input middle rest _ _ _ ihfirst ihsecond =>
      calc boxesOfLexemes input = first.boxes ++ boxesOfLexemes middle := ihfirst
        _ = first.boxes ++ (second.boxes ++ boxesOfLexemes rest) := congrArg _ ihsecond
        _ = _ := (List.append_assoc _ _ _).symm
  | emptyText hshape =>
      have hbox := boxes_unary_rawText .braced hshape ""
      rw [boxedText, if_pos rfl] at hbox
      rw [Phrase.boxes, hbox]
      rfl
  | @text _ _ content _ _ _ hshape hcontent =>
      have hbox := boxes_unary_rawText .braced hshape content
      rw [boxedText, if_neg hcontent] at hbox
      rw [Phrase.boxes, hbox]
      rfl
  | symbolDelimiter hshape | commandDelimiter hshape _ =>
      rw [Phrase.boxes, boxes_unary (by simp [hshape])]
      rfl
  | environment _ hkept ih =>
      rw [Phrase.boxes, Node.boxes, ← hkept.boxesOfRows_eq]
      exact ih
  | group _ ih => exact ih
  | noScript => rfl
  | @script _ _ _ base attached node _ input middle rest _ _ ihattached ihscripts =>
      calc base.boxes ++ boxesOfLexemes input
          = base.boxes ++ (attached.boxes ++ boxesOfLexemes middle) := congrArg _ ihattached
        _ = base.boxes ++ attached.boxes ++ boxesOfLexemes middle :=
          (List.append_assoc _ _ _).symm
        _ = node.boxes ++ boxesOfLexemes rest := ihscripts
  | noItem => rfl
  | @item _ _ base node nodes input middle after rest _ _ _ _ ihbase ihscripts ihnodes =>
      calc boxesOfLexemes input = base.boxes ++ boxesOfLexemes middle := ihbase
        _ = node.boxes ++ boxesOfLexemes after := ihscripts
        _ = node.boxes ++ (boxesOfAll nodes ++ boxesOfLexemes rest) := congrArg _ ihnodes
        _ = _ := (List.append_assoc _ _ _).symm
  | @sequenceOfScripts _ _ node nodes input after rest _ _ _ _ ihscripts ihnodes =>
      calc boxesOfLexemes input = node.boxes ++ boxesOfLexemes after := ihscripts
        _ = node.boxes ++ (boxesOfAll nodes ++ boxesOfLexemes rest) := congrArg _ ihnodes
        _ = _ := (List.append_assoc _ _ _).symm
  | @lastCell _ _ nodes _ input rest _ ih =>
      calc boxesOfLexemes input = boxesOfAll nodes ++ boxesOfLexemes rest := ih
        _ = _ := by simp [Phrase.boxes, boxesOfRows, boxesOfAll, Node.boxes]
  | @nextCell _ _ nodes row rows _ input middle rest _ _ ihcell ihrows =>
      calc boxesOfLexemes input = boxesOfAll nodes ++ boxesOfLexemes middle := ihcell
        _ = boxesOfAll nodes ++ (boxesOfRows (row :: rows) ++ boxesOfLexemes rest) :=
          congrArg _ ihrows
        _ = _ := by simp [Phrase.boxes, boxesOfRows, boxesOfAll, Node.boxes]
  | @nextRow _ _ nodes rows _ input middle rest _ _ ihcell ihrows =>
      calc boxesOfLexemes input = boxesOfAll nodes ++ boxesOfLexemes middle := ihcell
        _ = boxesOfAll nodes ++ (boxesOfRows rows ++ boxesOfLexemes rest) := congrArg _ ihrows
        _ = _ := by simp [Phrase.boxes, boxesOfRows, boxesOfAll, Node.boxes]

/-- The tree of a formula has its text boxes, and is clear apart from them. -/
theorem boxes_of_parseFormula {chemistry : Bool} {formula : String} {tree : Node}
    (hparse : parseFormula chemistry formula = .ok tree) :
    tree.WordsClear ∧ tree.boxes = boxesOfLexemes (tokenize formula) := by
  obtain ⟨nodes, rfl, hderives⟩ := readTokens_eq_ok_iff.mp hparse
  constructor
  · have hformed := hderives.formed fun _ hlexeme => Lexer.isLegible_of_mem_lexemes hlexeme
    exact .sequence hformed.wordsClear
  · have hboxes := hderives.boxes_eq
    simpa [Phrase.boxesBefore, Phrase.boxes, boxesOfLexemes, Node.boxes] using hboxes.symm

end FormulaMarkup
