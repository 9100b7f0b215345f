import FormulaMarkup.Proofs.GrammarReading
import FormulaMarkup.Proofs.WrittenPhrases
import FormulaMarkup.TextArguments

/-!
# Trees that formulas are read as

The grammar of formulas relates lexemes and phrases.  Here the lexemes are
forgotten, and what is left is a grammar of trees: which nodes can stand where,
which names can have which arguments, and what the literals are.  Every tree
that a formula is read as has this form.
-/

namespace FormulaMarkup

/-- The argument of a command whose text box has this content. -/
def boxedText (content : String) : Node :=
  .sequence true (if content = "" then [] else [.literal content])

theorem text_boxedText (content : String) : (boxedText content).text .verbatim = content := by
  unfold boxedText
  split
  · next hempty => simp [hempty, Node.text, nodeTexts]
  · simp [Node.text, nodeTexts, literalText]

theorem plainText?_boxedText (content : String) :
    (boxedText content).plainText? true = some content := by
  unfold boxedText
  split
  · next hempty => simp [hempty, Node.plainText?, plainTexts?]
  · simp [Node.plainText?, plainTexts?]

/-- The phrases that come out of reading. -/
inductive Formed (chemistry : Bool) : Phrase → Prop
  | character {c : Char} (hplain : IsPlain c)
      (htoken : characterToken c = .letter c ∨ characterToken c = .symbol c) :
      Formed chemistry (.primary (.ofChar c))
  | number {c : Char} {numerals : List Char} (hplain : IsPlain c)
      (hdigit : characterToken c = .digit c) (hnumerals : ∀ d ∈ numerals, IsNumeral d) :
      Formed chemistry (.primary (.literal (String.ofList (c :: numerals))))
  | command {name : String} (hname : IsCommand name) (hshape : shape? name = none) :
      Formed chemistry (.primary (.literal name))
  | inBraces {node : Node} (hgroup : Formed chemistry (.group node)) :
      Formed chemistry (.primary node)
  | braced {name : String} {argument : Node} (hname : IsCommand name)
      (hshape : shape? name = some .braced)
      (hargument : Formed chemistry (.group argument)) :
      Formed chemistry (.primary (.unary .braced name argument))
  | chemical {name : String} {argument : Node} (hchemistry : chemistry = true)
      (hname : IsCommand name) (hshape : shape? name = some .chemistry)
      (hargument : Formed chemistry (.group argument)) :
      Formed chemistry (.primary (.unary .braced name argument))
  | bare {name : String} {argument : Node} (hname : IsCommand name)
      (hshape : shape? name = some .bare)
      (hargument : Formed chemistry (.primary argument)) :
      Formed chemistry (.primary (.unary .bare name argument))
  | twoBraced {name : String} {first second : Node} (hname : IsCommand name)
      (hshape : shape? name = some .twoBraced)
      (hfirst : Formed chemistry (.group first)) (hsecond : Formed chemistry (.group second)) :
      Formed chemistry (.primary (.binary name first second))
  | textBox {name content : String} (hname : IsCommand name)
      (hshape : shape? name = some .rawText)
      (hcontent : Lexer.IsBoxContent content.toList) :
      Formed chemistry (.primary (.unary .braced name (boxedText content)))
  | symbolDelimiter {name : String} {c : Char} (hname : IsCommand name)
      (hshape : shape? name = some .delimiter) (hplain : IsPlain c)
      (htoken : characterToken c = .symbol c) :
      Formed chemistry (.primary (.unary .bare name (.ofChar c)))
  | commandDelimiter {name delimiter : String} (hname : IsCommand name)
      (hshape : shape? name = some .delimiter) (hdelimiter : IsCommand delimiter)
      (hunshaped : shape? delimiter = none) :
      Formed chemistry (.primary (.unary .bare name (.literal delimiter)))
  | environment {environment : Environment} {grid : List (List Node)}
      (hrows : Formed chemistry (.rows environment grid)) :
      Formed chemistry (.primary (.table environment grid))
  | group {nodes : List Node} (hnodes : Formed chemistry (.sequence nodes)) :
      Formed chemistry (.group (.sequence true nodes))
  | noScript {base : Node} : Formed chemistry (.scripts 0 base base)
  | script {count : Nat} {side : Side} {base attached node : Node}
      (hattached : Formed chemistry (.primary attached))
      (hscripts : Formed chemistry (.scripts count (.script side base attached) node)) :
      Formed chemistry (.scripts (count + 1) base node)
  | noItem : Formed chemistry (.items [])
  | item {count : Nat} {base node : Node} {nodes : List Node}
      (hbase : Formed chemistry (.primary base)) (hcount : count ≤ nestingLimit)
      (hscripts : Formed chemistry (.scripts count base node))
      (hnodes : Formed chemistry (.items nodes)) :
      Formed chemistry (.items (node :: nodes))
  | sequence {nodes : List Node} (hnodes : Formed chemistry (.items nodes)) :
      Formed chemistry (.sequence nodes)
  | sequenceOfScripts {count : Nat} {node : Node} {nodes : List Node}
      (hpositive : 0 < count) (hcount : count ≤ nestingLimit)
      (hscripts : Formed chemistry (.scripts count (.sequence false []) node))
      (hnodes : Formed chemistry (.items nodes)) :
      Formed chemistry (.sequence (node :: nodes))
  | lastCell {environment : Environment} {nodes : List Node}
      (hcell : Formed chemistry (.sequence nodes)) :
      Formed chemistry (.rows environment [[.sequence false nodes]])
  | nextCell {environment : Environment} {nodes row : List Node} {rows : List (List Node)}
      (hcell : Formed chemistry (.sequence nodes))
      (hrows : Formed chemistry (.rows environment (row :: rows))) :
      Formed chemistry (.rows environment ((.sequence false nodes :: row) :: rows))
  | nextRow {environment : Environment} {nodes : List Node} {rows : List (List Node)}
      (hcell : Formed chemistry (.sequence nodes))
      (hrows : Formed chemistry (.rows environment rows)) :
      Formed chemistry (.rows environment ([.sequence false nodes] :: rows))

/-- Rows remain after the last one is left out, if it is not the only one. -/
theorem Formed.dropLast_rows
    {chemistry : Bool} {environment : Environment} {kept : List (List Node)} {last : List Node}
    (hrows : Formed chemistry (.rows environment (kept ++ [last]))) (hkept : kept ≠ []) :
    Formed chemistry (.rows environment kept) := by
  generalize hphrase : Phrase.rows environment (kept ++ [last]) = phrase at hrows
  induction hrows generalizing kept with
  | lastCell hcell =>
      injection hphrase with _ hgrid
      obtain ⟨row, others, rfl⟩ := List.exists_cons_of_ne_nil hkept
      simp at hgrid
  | nextCell hcell _ _ ih =>
      injection hphrase with henvironment hgrid
      subst henvironment
      obtain ⟨row, others, rfl⟩ := List.exists_cons_of_ne_nil hkept
      obtain ⟨rfl, rfl⟩ := List.cons.inj hgrid
      exact .nextCell hcell (ih (List.cons_ne_nil _ _) rfl)
  | nextRow hcell _ _ ih =>
      injection hphrase with henvironment hgrid
      subst henvironment
      obtain ⟨row, others, rfl⟩ := List.exists_cons_of_ne_nil hkept
      obtain ⟨rfl, rfl⟩ := List.cons.inj hgrid
      by_cases hothers : others = []
      · subst hothers
        exact .lastCell hcell
      · exact .nextRow hcell (ih hothers rfl)
  | _ => cases hphrase

/-- Lexemes whose tokens come out again wherever they are written. -/
def Legible (input : List Lexeme) : Prop := ∀ lexeme ∈ input, lexeme.token.IsLegible

namespace Legible

variable {input rest : List Lexeme}

theorem head {lexeme : Lexeme} (hinput : Legible (lexeme :: input)) : lexeme.token.IsLegible :=
  hinput lexeme List.mem_cons_self

theorem tail {lexeme : Lexeme} (hinput : Legible (lexeme :: input)) : Legible input :=
  fun other hother => hinput other (List.mem_cons_of_mem _ hother)

theorem after
    {chemistry : Bool} {depth : Nat} {phrase : Phrase} (hinput : Legible input)
    (hderives : Derives chemistry depth phrase input rest) : Legible rest := by
  obtain ⟨taken, rfl, _⟩ := hderives.wellFormedBetween
  exact fun lexeme hlexeme => hinput lexeme (List.mem_append_right taken hlexeme)

end Legible

theorem Derives.formed
    {chemistry : Bool} {depth : Nat} {phrase : Phrase} {input rest : List Lexeme}
    (hderives : Derives chemistry depth phrase input rest) (hinput : Legible input) :
    Formed chemistry phrase := by
  induction hderives with
  | letter => exact .character hinput.head.1 (.inl hinput.head.2)
  | symbol => exact .character hinput.head.1 (.inr hinput.head.2)
  | number hrun => exact .number hinput.head.1 hinput.head.2 (hrun.isNumeral hinput.tail)
  | command hshape => exact .command hinput.head hshape
  | inBraces _ ih => exact .inBraces (ih hinput)
  | braced hshape _ ih => exact .braced hinput.head hshape (ih hinput.tail)
  | chemical hchemistry hshape _ ih =>
      exact .chemical hchemistry hinput.head hshape (ih hinput.tail)
  | bare hshape _ ih => exact .bare hinput.head hshape (ih hinput.tail)
  | twoBraced hshape hfirst _ ihfirst ihsecond =>
      exact .twoBraced hinput.head hshape (ihfirst hinput.tail)
        (ihsecond (hinput.tail.after hfirst))
  | emptyText hshape => exact .textBox hinput.head hshape hinput.tail.head
  | @text _ _ content _ _ _ hshape hcontent =>
      have hbox : Formed chemistry _ := .textBox hinput.head hshape hinput.tail.head
      rwa [boxedText, if_neg hcontent] at hbox
  | symbolDelimiter hshape =>
      exact .symbolDelimiter hinput.head hshape hinput.tail.head.1 hinput.tail.head.2
  | commandDelimiter hshape hunshaped =>
      exact .commandDelimiter hinput.head hshape hinput.tail.head hunshaped
  | environment _ hkept ih =>
      -- The last row may have been left out.
      have hread := ih hinput.tail
      rcases hkept with ⟨hne, rfl⟩ | ⟨rfl, _⟩
      · exact .environment (hread.dropLast_rows hne)
      · exact .environment hread
  | group _ ih => exact .group (ih hinput.tail)
  | noScript => exact .noScript
  | script hattached _ ihattached ihscripts =>
      exact .script (ihattached hinput.tail) (ihscripts (hinput.tail.after hattached))
  | noItem => exact .noItem
  | item hbase hcount hscripts _ ihbase ihscripts ihnodes =>
      have hmiddle := hinput.after hbase
      exact .item (ihbase hinput) hcount (ihscripts hmiddle) (ihnodes (hmiddle.after hscripts))
  | sequence _ ih => exact .sequence (ih hinput)
  | sequenceOfScripts hpositive hcount hscripts _ ihscripts ihnodes =>
      exact .sequenceOfScripts hpositive hcount (ihscripts hinput)
        (ihnodes (hinput.after hscripts))
  | lastCell _ ih => exact .lastCell (ih hinput)
  | nextCell hcell _ ihcell ihrows =>
      exact .nextCell (ihcell hinput) (ihrows (hinput.after hcell).tail)
  | nextRow hcell _ ihcell ihrows =>
      exact .nextRow (ihcell hinput) (ihrows (hinput.after hcell).tail)

/-- A formula is read as a sequence of nodes. -/
theorem formed_of_parseFormula
    {chemistry : Bool} {formula : String} {tree : Node}
    (hparse : parseFormula chemistry formula = .ok tree) :
    ∃ nodes, tree = .sequence false nodes ∧ Formed chemistry (.sequence nodes) := by
  obtain ⟨nodes, rfl, hderives⟩ := readTokens_eq_ok_iff.mp hparse
  exact ⟨nodes, rfl, hderives.formed fun _ hlexeme => Lexer.isLegible_of_mem_lexemes hlexeme⟩

end FormulaMarkup
