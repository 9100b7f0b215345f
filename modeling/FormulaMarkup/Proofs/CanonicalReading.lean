import FormulaMarkup.Proofs.GrammarReading
import FormulaMarkup.Proofs.WrittenPhrases

/-!
# Reading the canonical text

A formula that was read can be written in its canonical text and read again.
What comes out is the same tree with braces around its scripts, if no numeral
of the formula is parted from the next one by a blank, no table ends in a blank
row, and the braces do not make the tree too deep.

The proof follows the derivation of the tree.  A derivation knows which tokens
a node was made of, and a token that came out of the formula comes out again
where it is written.  Each part of the derivation also says that its text
begins with a numeral only if the formula did so at that place.
-/

namespace FormulaMarkup

/-- Lexemes of a formula in which no numeral is parted from the next one. -/
structure Rewritable (input : List Lexeme) : Prop where
  legible : ∀ lexeme ∈ input, lexeme.token.IsLegible
  unbroken : UnbrokenNumerals input

namespace Rewritable

variable {input rest : List Lexeme}

theorem head {lexeme : Lexeme} (hinput : Rewritable (lexeme :: input)) :
    lexeme.token.IsLegible :=
  hinput.legible lexeme (by simp)

theorem tail {lexeme : Lexeme} (hinput : Rewritable (lexeme :: input)) : Rewritable input :=
  ⟨(List.forall_mem_cons.mp hinput.legible).2, hinput.unbroken.tail⟩

theorem after
    {chemistry : Bool} {depth : Nat} {phrase : Phrase} (hinput : Rewritable input)
    (hderives : Derives chemistry depth phrase input rest) :
    Rewritable rest := by
  obtain ⟨taken, rfl, _⟩ := hderives.wellFormedBetween
  constructor
  · intro lexeme hlexeme
    exact hinput.legible lexeme (List.mem_append_right taken hlexeme)
  · exact hinput.unbroken.right_of_append

end Rewritable

/-- What was read between these lexemes is read again from its text. -/
def Phrase.Returns (chemistry : Bool) (input rest : List Lexeme) : Phrase → Prop
  | .primary node => ∀ depth, node.Fits depth →
      Rereads chemistry depth (.primary node.braceScripts) node.written
        (FollowsLike rest) (NumeralNext input)
  | .group node => node.isCurly = true ∧ ∀ depth, node.Fits depth →
      Rereads chemistry depth (.group node.braceScripts) node.written (fun _ => True) False
  | .scripts count base node => ∃ text, node.written = base.written ++ text ∧
      ∀ depth, node.Fits depth → base.Fits depth ∧
        Rereads chemistry depth (.scripts count base.braceScripts node.braceScripts) text
          (FollowsLike rest) (NumeralNext input)
  | .items nodes => ∀ depth, (∀ node ∈ nodes, node.Fits depth) →
      Rereads chemistry depth (.items (nodes.map Node.braceScripts)) (nodes.flatMap Node.written)
        AtSequenceEnd (NumeralNext input)
  | .sequence nodes => ∀ depth, (∀ node ∈ nodes, node.Fits depth) →
      Rereads chemistry depth (.sequence (nodes.map Node.braceScripts))
        (nodes.flatMap Node.written) AtSequenceEnd (NumeralNext input)
  | .rows _ grid => grid ≠ [] ∧ ∀ row ∈ grid, row ≠ [] ∧ ∀ cell ∈ row, ∀ depth,
      cell.Fits depth → cell.RereadsAsCell chemistry depth

namespace Phrase.Returns

variable {chemistry : Bool} {input middle rest : List Lexeme}

theorem character
    {c : Char} {token : Token} {span : Span} (hplain : IsPlain c)
    (htoken : characterToken c = token)
    (hrule : ∀ depth span out,
      Derives chemistry depth (.primary (.ofChar c)) (⟨token, span⟩ :: out) out) :
    (Phrase.primary (.ofChar c)).Returns chemistry (⟨token, span⟩ :: rest) rest := by
  intro depth _
  rw [Node.written_ofChar hplain, numeralNext_cons]
  exact rereads_character hplain htoken (hrule depth)

theorem number
    {c : Char} {numerals : List Char} {span : Span}
    (hinput : Rewritable (⟨.digit c, span⟩ :: input))
    (hrun : NumberRun span.stop input numerals rest) :
    (Phrase.primary (.literal (String.ofList (c :: numerals)))).Returns chemistry
      (⟨.digit c, span⟩ :: input) rest := by
  intro depth _
  obtain ⟨hplain, hdigit⟩ := hinput.head
  have hnumerals := hrun.isNumeral hinput.tail.legible
  have hdigitNumeral : (Token.digit c).numeral? ≠ none := Option.some_ne_none c
  have hrest : ¬ NumeralNext rest := hrun.not_numeralNext hdigitNumeral rfl hinput.unbroken
  rw [Node.written_of_isPlain hplain]
  have hstarts : NumeralNext (⟨.digit c, span⟩ :: input) :=
    (numeralNext_cons _ _).mpr hdigitNumeral
  exact rereads_number hplain hdigit hnumerals hrest hstarts

theorem command
    {name : String} {span : Span} (hname : IsCommand name) (hshape : shape? name = none) :
    (Phrase.primary (.literal name)).Returns chemistry (⟨.command name, span⟩ :: rest) rest := by
  intro depth _
  refine (spells_literal hname hshape).mono ?_
  rintro _ ⟨mark, rfl⟩ out _
  exact ⟨.command hshape, NumeralNext.elim rfl⟩

theorem inBraces
    {node : Node} (hgroup : (Phrase.group node).Returns chemistry input rest) :
    (Phrase.primary node).Returns chemistry input rest := by
  intro depth hfits
  exact (hgroup.2 depth hfits).primary_of_group

theorem braced
    {name : String} {argument : Node} {span : Span} (hname : IsCommand name)
    (hshape : shape? name ≠ some .rawText)
    (hargument : (Phrase.group argument).Returns chemistry input rest)
    (hrule : ∀ depth argument span input rest,
      Derives chemistry depth (.group argument) input rest →
        Derives chemistry (depth + 1) (.primary (.unary .braced name argument))
          (⟨.command name, span⟩ :: input) rest) :
    (Phrase.primary (.unary .braced name argument)).Returns chemistry
      (⟨.command name, span⟩ :: input) rest := by
  intro depth hfits
  obtain ⟨hcurly, hargument⟩ := hargument
  obtain ⟨below, rfl, hbelow⟩ := hfits.argument hshape
  have hbrace := Node.written_of_isCurly hcurly
  rw [Node.written_braced hshape hcurly]
  refine (spells_bracedCommand hname hshape hbrace (hargument below hbelow)).mono ?_
  rintro _ ⟨mark, lexemes, hread, rfl⟩ out _
  exact ⟨hrule _ _ _ _ _ (hread out trivial).1, NumeralNext.elim rfl⟩

theorem bare
    {name : String} {argument : Node} {span : Span} (hname : IsCommand name)
    (hshape : shape? name = some .bare)
    (hargument : (Phrase.primary argument).Returns chemistry input rest) :
    (Phrase.primary (.unary .bare name argument)).Returns chemistry
      (⟨.command name, span⟩ :: input) rest := by
  intro depth hfits
  have hraw : shape? name ≠ some .rawText := by simp [hshape]
  obtain ⟨below, rfl, hbelow⟩ := hfits.argument hraw
  refine (spells_bareCommand hname hraw (hargument below hbelow)).mono ?_
  rintro _ ⟨mark, lexemes, hread, rfl⟩ out hout
  exact ⟨.bare hshape (hread out hout).1, NumeralNext.elim rfl⟩

theorem delimiter
    {name : String} {delimiter : Node} {token : Token} {span : Span} (hname : IsCommand name)
    (hshape : shape? name = some .delimiter)
    (hdelimiter : Spells delimiter.written fun lexemes => ∃ span, lexemes = [⟨token, span⟩])
    (hplain : delimiter.braceScripts = delimiter)
    (hrule : ∀ depth span mark out,
      Derives chemistry (depth + 1) (.primary (.unary .bare name delimiter))
        (⟨.command name, span⟩ :: ⟨token, mark⟩ :: out) out) :
    (Phrase.primary (.unary .bare name delimiter)).Returns chemistry
      (⟨.command name, span⟩ :: input) rest := by
  intro depth hfits
  have hraw : shape? name ≠ some .rawText := by simp [hshape]
  obtain ⟨below, rfl, _⟩ := hfits.argument hraw
  refine (spells_bareCommand hname hraw hdelimiter).mono ?_
  rintro _ ⟨first, _, ⟨second, rfl⟩, rfl⟩ out _
  rw [Node.braceScripts, hplain]
  exact ⟨hrule below first second out, NumeralNext.elim rfl⟩

theorem twoBraced
    {name : String} {first second : Node} {span : Span} (hname : IsCommand name)
    (hshape : shape? name = some .twoBraced)
    (hfirst : (Phrase.group first).Returns chemistry input middle)
    (hsecond : (Phrase.group second).Returns chemistry middle rest) :
    (Phrase.primary (.binary name first second)).Returns chemistry
      (⟨.command name, span⟩ :: input) rest := by
  intro depth hfits
  obtain ⟨hfirstCurly, hfirst⟩ := hfirst
  obtain ⟨hsecondCurly, hsecond⟩ := hsecond
  have hraw : shape? name ≠ some .rawText := by simp [hshape]
  obtain ⟨below, rfl, hfirstFits, hsecondFits⟩ := hfits.arguments
  have hbrace : ∃ after, first.written ++ second.written = '{' :: after := by
    obtain ⟨after, hafter⟩ := Node.written_of_isCurly hfirstCurly
    exact ⟨after ++ second.written, by rw [hafter, List.cons_append]⟩
  have hboth : Spells (first.written ++ second.written) fun lexemes => ∀ out, ∃ between,
      Derives chemistry below (.group first.braceScripts) (lexemes ++ out) between ∧
        Derives chemistry below (.group second.braceScripts) between out := by
    refine Spells.append (hfirst below hfirstFits) (hsecond below hsecondFits) ?_
    intro lexemes others hlexemes hothers out
    rw [List.append_assoc]
    exact ⟨others ++ out, (hlexemes _ trivial).1, (hothers out trivial).1⟩
  rw [Node.written_binary hfirstCurly hsecondCurly]
  refine (spells_bracedCommand hname hraw hbrace hboth).mono ?_
  rintro _ ⟨mark, lexemes, hread, rfl⟩ out _
  obtain ⟨between, hone, htwo⟩ := hread out
  exact ⟨.twoBraced hshape hone htwo, NumeralNext.elim rfl⟩

theorem textBox
    {name : String} {argument : Node} {span : Span} (hname : IsCommand name)
    (hshape : shape? name = some .rawText)
    (hcontent : Lexer.IsBoxContent (argument.text .verbatim).toList)
    (hplain : argument.braceScripts = argument)
    (hrule : ∀ depth span box out,
      Derives chemistry (depth + 1) (.primary (.unary .braced name argument))
        (⟨.command name, span⟩ :: ⟨.rawText (argument.text .verbatim), box⟩ :: out) out) :
    (Phrase.primary (.unary .braced name argument)).Returns chemistry
      (⟨.command name, span⟩ :: input) rest := by
  intro depth hfits
  obtain ⟨below, rfl⟩ := hfits.exists_below_of_unary
  rw [Node.written_textBox hshape]
  refine (Spells.textBox hname hshape hcontent).mono ?_
  rintro _ ⟨mark, box, rfl⟩ out _
  rw [String.ofList_toList, Node.braceScripts, hplain]
  exact ⟨hrule below mark box out, NumeralNext.elim rfl⟩

theorem environment
    {environment : Environment} {read kept : List (List Node)} {span : Span}
    (hrows : (Phrase.rows environment read).Returns chemistry input rest)
    (hkept : LastRowDropped read kept) :
    (Phrase.primary (.table environment kept)).Returns chemistry
      (⟨.beginning environment.name, span⟩ :: input) rest := by
  intro depth hfits
  obtain ⟨hread, hcells⟩ := hrows
  obtain ⟨below, rfl, hblank, hbelow⟩ := hfits.cells
  have hne : kept ≠ [] := by
    rcases hkept with ⟨hne, _⟩ | ⟨rfl, _⟩
    · exact hne
    · exact hread
  have hsubset : ∀ row ∈ kept, row ∈ read := by
    rcases hkept with ⟨_, rfl⟩ | ⟨rfl, _⟩
    · intro row hrow
      exact List.mem_append_left _ hrow
    · exact fun row hrow => hrow
  refine rereads_table hblank (rereads_rows hne ?_)
  intro row hrow
  obtain ⟨hrowNe, hrowCells⟩ := hcells row (hsubset row hrow)
  refine ⟨hrowNe, ?_⟩
  intro cell hcell
  exact hrowCells cell hcell below (hbelow row hrow cell hcell)

theorem group
    {nodes : List Node} {after : List Lexeme} {opening : Span}
    (hnodes : (Phrase.sequence nodes).Returns chemistry input after) :
    (Phrase.group (.sequence true nodes)).Returns chemistry
      (⟨.openBrace, opening⟩ :: input) rest := by
  refine ⟨rfl, ?_⟩
  intro depth hfits
  obtain ⟨below, rfl, hbelow⟩ := hfits.group
  have hsequence := hnodes below hbelow.items
  rw [Node.written_group, Node.braceScripts, braceScriptsOfAll_eq_map]
  exact rereads_group hsequence

theorem noScript {base : Node} : (Phrase.scripts 0 base base).Returns chemistry rest rest := by
  refine ⟨[], (List.append_nil _).symm, ?_⟩
  intro depth hfits
  refine ⟨hfits, Spells.nil ?_⟩
  intro out hout
  exact ⟨.noScript, hout⟩

theorem script
    {count : Nat} {side : Side} {base attached node : Node} {span : Span}
    (hattached : (Phrase.primary attached).Returns chemistry input middle)
    (hscripts : (Phrase.scripts count (.script side base attached) node).Returns chemistry
      middle rest) :
    (Phrase.scripts (count + 1) base node).Returns chemistry
      (⟨.script side, span⟩ :: input) rest := by
  obtain ⟨text, hwritten, hscripts⟩ := hscripts
  refine ⟨side.mark.toList ++ (attached.enclosed.written ++ text), ?_, ?_⟩
  · rw [hwritten, Node.written_script]
    simp only [List.append_assoc]
  intro depth hfits
  obtain ⟨hscript, htext⟩ := hscripts depth hfits
  refine ⟨hscript.base, ?_⟩
  have hmark : Spells side.mark.toList fun lexemes => ∃ span, lexemes = [⟨.script side, span⟩] := by
    match side with
    | .over => exact Spells.plain ⟨by decide, by decide⟩
    | .under => exact Spells.plain ⟨by decide, by decide⟩
  have henclosed := rereads_enclosed hattached hscript.attached
  have hafter : Spells (attached.enclosed.written ++ text) fun lexemes =>
      ∀ out, FollowsLike rest out → ∃ between,
        Derives chemistry depth (.primary attached.enclosed.braceScripts)
          (lexemes ++ out) between ∧
        Derives chemistry depth
          (.scripts count (Node.script side base attached).braceScripts node.braceScripts)
          between out := by
    refine Spells.append henclosed htext ?_
    intro first second hfirst hsecond out hout
    obtain ⟨hderives, hnumeral⟩ := hsecond out hout
    rw [List.append_assoc]
    exact ⟨second ++ out, (hfirst _ hnumeral).1, hderives⟩
  refine Spells.append hmark hafter ?_
  rintro _ lexemes ⟨mark, rfl⟩ hread out hout
  obtain ⟨between, hprimary, hrest⟩ := hread out hout
  rw [Node.braceScripts, ← Node.braceScripts_enclosed] at hrest
  exact ⟨.script hprimary hrest, NumeralNext.elim rfl⟩

theorem noItem : (Phrase.items []).Returns chemistry rest rest := by
  intro depth _
  refine Spells.nil ?_
  intro out hout
  exact ⟨.noItem hout, fun hnumeral => absurd hnumeral hout.not_numeralNext⟩

/-- The scripts of an item and the items after it. -/
theorem scripts_items
    {count depth : Nat} {base node : Node} {nodes : List Node} {text : List Char}
    (hscripts : Rereads chemistry depth (.scripts count base.braceScripts node.braceScripts) text
      (FollowsLike middle) (NumeralNext input))
    (hnodes : (Phrase.items nodes).Returns chemistry middle rest)
    (hfits : ∀ node ∈ nodes, node.Fits depth) :
    Spells (text ++ nodes.flatMap Node.written) fun lexemes => ∀ out, AtSequenceEnd out →
      (∃ between,
        Derives chemistry depth (.scripts count base.braceScripts node.braceScripts)
          (lexemes ++ out) between ∧
        Derives chemistry depth (.items (nodes.map Node.braceScripts)) between out) ∧
      (NumeralNext (lexemes ++ out) → NumeralNext input) := by
  refine Spells.append hscripts (hnodes depth hfits) ?_
  intro first second hfirst hsecond out hout
  obtain ⟨hitems, hmiddle⟩ := hsecond out hout
  obtain ⟨hderives, hinput⟩ := hfirst _ hmiddle
  rw [List.append_assoc]
  exact ⟨⟨second ++ out, hderives, hitems⟩, hinput⟩

theorem item
    {count : Nat} {base node : Node} {nodes : List Node} {after : List Lexeme}
    (hbase : (Phrase.primary base).Returns chemistry input middle)
    (hcount : count ≤ nestingLimit)
    (hscripts : (Phrase.scripts count base node).Returns chemistry middle after)
    (hnodes : (Phrase.items nodes).Returns chemistry after rest) :
    (Phrase.items (node :: nodes)).Returns chemistry input rest := by
  intro depth hfits
  rw [List.forall_mem_cons] at hfits
  obtain ⟨text, hwritten, hscripts⟩ := hscripts
  obtain ⟨hbaseFits, htext⟩ := hscripts depth hfits.1
  rw [List.flatMap_cons, hwritten, List.append_assoc]
  refine Spells.append (hbase depth hbaseFits) (scripts_items htext hnodes hfits.2) ?_
  intro first second hfirst hsecond out hout
  obtain ⟨⟨between, hderives, hitems⟩, hmiddle⟩ := hsecond out hout
  obtain ⟨hprimary, hinput⟩ := hfirst _ hmiddle
  rw [List.append_assoc]
  exact ⟨.item hprimary hcount hderives hitems, hinput⟩

theorem sequence
    {nodes : List Node} (hnodes : (Phrase.items nodes).Returns chemistry input rest) :
    (Phrase.sequence nodes).Returns chemistry input rest := by
  intro depth hfits
  refine (hnodes depth hfits).mono ?_
  intro lexemes hread out hout
  obtain ⟨hitems, hinput⟩ := hread out hout
  exact ⟨.sequence hitems, hinput⟩

theorem sequenceOfScripts
    {count : Nat} {node : Node} {nodes : List Node}
    (hpositive : 0 < count) (hcount : count ≤ nestingLimit)
    (hscripts : (Phrase.scripts count (.sequence false []) node).Returns chemistry input middle)
    (hnodes : (Phrase.items nodes).Returns chemistry middle rest) :
    (Phrase.sequence (node :: nodes)).Returns chemistry input rest := by
  intro depth hfits
  rw [List.forall_mem_cons] at hfits
  obtain ⟨text, hwritten, hscripts⟩ := hscripts
  obtain ⟨_, htext⟩ := hscripts depth hfits.1
  rw [Node.written_sequence, List.flatMap_nil, List.nil_append] at hwritten
  rw [List.flatMap_cons, hwritten]
  refine (scripts_items htext hnodes hfits.2).mono ?_
  intro lexemes hread out hout
  obtain ⟨⟨between, hderives, hitems⟩, hinput⟩ := hread out hout
  exact ⟨.sequenceOfScripts hpositive hcount hderives hitems, hinput⟩

theorem cell
    {nodes : List Node} (hnodes : (Phrase.sequence nodes).Returns chemistry input rest)
    (depth : Nat) (hfits : (Node.sequence false nodes).Fits depth) :
    (Node.sequence false nodes).RereadsAsCell chemistry depth := by
  refine ⟨nodes.map Node.braceScripts, ?_, ?_⟩
  · rw [Node.braceScripts, braceScriptsOfAll_eq_map]
  · rw [Node.written_sequence]
    refine (hnodes depth hfits.items).mono ?_
    intro lexemes hread out hout
    exact ⟨(hread out hout).1, fun _ => trivial⟩

end Phrase.Returns

/-- Whatever was derived from the lexemes of a formula is derived from the
lexemes of its text. -/
theorem Derives.returns
    {chemistry : Bool} {depth : Nat} {phrase : Phrase} {input rest : List Lexeme}
    (hderives : Derives chemistry depth phrase input rest) (hinput : Rewritable input) :
    phrase.Returns chemistry input rest := by
  induction hderives with
  | letter => exact .character hinput.head.1 hinput.head.2 fun _ _ _ => .letter
  | symbol => exact .character hinput.head.1 hinput.head.2 fun _ _ _ => .symbol
  | number hrun => exact .number hinput hrun
  | command hshape => exact .command hinput.head hshape
  | inBraces _ ih => exact .inBraces (ih hinput)
  | braced hshape _ ih =>
      exact .braced hinput.head (by simp [hshape]) (ih hinput.tail)
        fun _ _ _ _ _ => .braced hshape
  | chemical hchemistry hshape _ ih =>
      exact .braced hinput.head (by simp [hshape]) (ih hinput.tail)
        fun _ _ _ _ _ => .chemical hchemistry hshape
  | bare hshape _ ih => exact .bare hinput.head hshape (ih hinput.tail)
  | twoBraced hshape hfirst _ ihfirst ihsecond =>
      exact .twoBraced hinput.head hshape (ihfirst hinput.tail)
        (ihsecond (hinput.tail.after hfirst))
  | emptyText hshape =>
      exact .textBox hinput.head hshape hinput.tail.head rfl fun _ _ _ _ => .emptyText hshape
  | @text depth name content span box rest hshape hcontent =>
      have hverbatim : (Node.sequence true [.literal content]).text .verbatim = content := by
        simp [Node.text, literalText, String.join_cons]
      have hbox : Lexer.IsBoxContent content.toList := hinput.tail.head
      refine .textBox hinput.head hshape (hverbatim.symm ▸ hbox) rfl ?_
      intro depth span box out
      rw [hverbatim]
      exact .text hshape hcontent
  | @symbolDelimiter depth name c span mark rest hshape =>
      obtain ⟨hplain, htoken⟩ := hinput.tail.head
      refine .delimiter hinput.head hshape ?_ rfl fun _ _ _ _ => .symbolDelimiter hshape
      rw [Node.written_ofChar hplain, ← htoken]
      exact Spells.plain hplain
  | commandDelimiter hshape hplain =>
      have hdelimiter := spells_literal hinput.tail.head hplain
      exact .delimiter hinput.head hshape hdelimiter rfl
        fun _ _ _ _ => .commandDelimiter hshape hplain
  | environment _ hkept ih => exact .environment (ih hinput.tail) hkept
  | group _ ih => exact .group (ih hinput.tail)
  | noScript => exact .noScript
  | script hattached _ ihattached ihscripts =>
      exact .script (ihattached hinput.tail) (ihscripts (hinput.tail.after hattached))
  | noItem => exact .noItem
  | item hbase hcount hscripts _ ihbase ihscripts ihnodes =>
      have hmiddle := hinput.after hbase
      exact .item (ihbase hinput) hcount (ihscripts hmiddle) (ihnodes (hmiddle.after hscripts))
  | sequence _ ih => exact .sequence (ih hinput)
  | sequenceOfScripts hpositive hcount hscripts _ ihscripts ihnodes =>
      exact .sequenceOfScripts hpositive hcount (ihscripts hinput) (ihnodes (hinput.after hscripts))
  | lastCell _ ih =>
      refine ⟨by simp, ?_⟩
      simpa using (ih hinput).cell
  | nextCell hcell _ ihcell ihrows =>
      obtain ⟨_, hcells⟩ := ihrows (hinput.after hcell).tail
      rw [List.forall_mem_cons] at hcells
      refine ⟨by simp, List.forall_mem_cons.mpr ⟨⟨by simp, ?_⟩, hcells.2⟩⟩
      exact List.forall_mem_cons.mpr ⟨(ihcell hinput).cell, hcells.1.2⟩
  | nextRow hcell _ ihcell ihrows =>
      obtain ⟨_, hcells⟩ := ihrows (hinput.after hcell).tail
      refine ⟨by simp, List.forall_mem_cons.mpr ⟨⟨by simp, ?_⟩, hcells⟩⟩
      simpa using (ihcell hinput).cell

/-- The canonical text of a formula that was read is read as the same tree with
braces around its scripts, which has the same text. -/
theorem parseFormula_canonicalText
    (chemistry : Bool) (formula : String) (tree : Node)
    (hparse : parseFormula chemistry formula = .ok tree)
    (hrows : ∀ rows ∈ tree.tables, endsInBlankRow rows = false)
    (hnumerals : UnbrokenNumerals (tokenize formula))
    (hnesting : tree.braceScripts.nesting ≤ nestingLimit) :
    parseFormula chemistry tree.canonicalText = .ok tree.braceScripts ∧
      tree.braceScripts.canonicalText = tree.canonicalText := by
  refine ⟨?_, tree.text_braceScripts .canonical⟩
  obtain ⟨nodes, rfl, hderives⟩ := readTokens_eq_ok_iff.mp hparse
  have hinput : Rewritable (tokenize formula) :=
    ⟨fun lexeme hlexeme => Lexer.isLegible_of_mem_lexemes hlexeme, hnumerals⟩
  have hfits : (Node.sequence false nodes).Fits nestingLimit := ⟨hrows, hnesting⟩
  have hreturns := hderives.returns hinput nestingLimit hfits.items
  have hagain : Derives chemistry nestingLimit (.sequence (nodes.map Node.braceScripts))
      (tokenize (Node.sequence false nodes).canonicalText) [] := by
    rw [← Node.written_sequence] at hreturns
    have hread := Spells.tokenize hreturns [] (by simp [AtSequenceEnd])
    simpa using hread.1
  refine readTokens_eq_ok_iff.mpr ⟨_, ?_, hagain⟩
  rw [Node.braceScripts, braceScriptsOfAll_eq_map]

theorem parseFormula_canonicalText_cases :
    ∃ tree,
      parseFormula true
        "\\begin\x7bcases\x7dx^2_\\pi&3.14\\\\ \\ce\x7bH2O\x7d^+\\end\x7bcases\x7d" = .ok tree ∧
      parseFormula true tree.canonicalText = .ok tree.braceScripts ∧
        tree.braceScripts.canonicalText = tree.canonicalText := by
  have hparse : parseFormula true
      "\\begin\x7bcases\x7dx^2_\\pi&3.14\\\\ \\ce\x7bH2O\x7d^+\\end\x7bcases\x7d" =
        .ok (.sequence false [.table .cases
          [[.sequence false [.script .under (.script .over (.literal "x") (.literal "2"))
                (.literal "\\pi")],
              .sequence false [.literal "3.14"]],
            [.sequence false [.script .over
              (.unary .braced "\\ce" (.sequence true [.literal "H", .literal "2", .literal "O"]))
              (.literal "+")]]]]) := by
    with_unfolding_all rfl
  exact ⟨_, hparse, parseFormula_canonicalText true _ _ hparse
    (by decide +kernel) (by decide +kernel) (by decide +kernel)⟩

end FormulaMarkup
