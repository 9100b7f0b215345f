import FormulaMarkup.CommandLine
import FormulaMarkup.Proofs.CommandUses
import FormulaMarkup.Proofs.FilledPlaces
import FormulaMarkup.Proofs.SettledErrors

/-!
# Blanks at the end of a formula

Blanks at the end of a formula are dropped before it is converted.  A lexer that
comes upon blanks at the end passes over them, also if it is in a comment, and a
text box or the name of an environment that is not closed before them is not
closed by them either.  There is one exception: after a backslash the first of
the blanks is the name of a control symbol.  Without the blank the backslash is
alone, so the formula is refused.
-/

namespace FormulaMarkup

/-! ## Splits of a text with blanks behind it -/

def AreBlank (cs : List Char) : Prop := ∀ c ∈ cs, isBlank c = true

theorem areBlank_cons {c : Char} {cs : List Char} :
    AreBlank (c :: cs) ↔ isBlank c = true ∧ AreBlank cs := List.forall_mem_cons

variable {blanks : List Char}

theorem AreBlank.ne (hblanks : AreBlank blanks) {c d : Char} (hc : c ∈ blanks)
    (hd : isBlank d = false) : c ≠ d := by
  rintro rfl
  rw [hblanks c hc] at hd
  cases hd

theorem AreBlank.stopsName (hblanks : AreBlank blanks) : StopsName blanks := by
  intro c hc
  have hmem : c ∈ blanks := List.mem_of_head? hc
  refine ⟨?_, hblanks.ne hmem (by decide)⟩
  cases hletter : c.isAlpha with
  | false => rfl
  | true =>
      have hblank := hblanks c hmem
      rw [isBlank_eq_false_of_isAlpha hletter] at hblank
      cases hblank

theorem splitGap_blanks (hblanks : AreBlank blanks) {inComment : Bool} {cs : List Char}
    (hrest : (splitGap inComment cs).2 = []) : (splitGap inComment (cs ++ blanks)).2 = [] := by
  induction cs generalizing inComment with
  | nil =>
      rw [List.nil_append]
      clear hrest
      induction blanks generalizing inComment with
      | nil => rfl
      | cons c rest ih =>
          rw [areBlank_cons] at hblanks
          simp [splitGap, hblanks.1, ih hblanks.2]
  | cons c rest ih =>
      rw [List.cons_append]
      simp only [splitGap] at hrest ⊢
      split
      · next hgap =>
          rw [if_pos hgap] at hrest
          exact ih hrest
      · next hgap =>
          rw [if_neg hgap] at hrest
          cases hrest

theorem splitControlName_blanks (hblanks : AreBlank blanks) {cs : List Char} (hne : cs ≠ []) :
    splitControlName (cs ++ blanks) =
      ((splitControlName cs).1, (splitControlName cs).2 ++ blanks) := by
  by_cases hafter : cs.dropWhile Char.isAlpha = []
  · -- All of it are letters, and no name goes on in the blanks.
    have hword : cs.takeWhile Char.isAlpha = cs := by
      simpa [hafter] using List.takeWhile_append_dropWhile (p := Char.isAlpha) (l := cs)
    have hletters : ∀ c ∈ cs, c.isAlpha = true := by
      rw [← hword]
      exact List.all_eq_true.mp List.all_takeWhile
    have hshort : splitControlName (cs ++ []) = (cs, []) :=
      splitControlName_word hletters hne (by simp [StopsName])
    rw [List.append_nil] at hshort
    rw [splitControlName_word hletters hne hblanks.stopsName, hshort]
    rfl
  · exact splitControlName_append_of_dropWhile hafter blanks

theorem splitEnvironmentName_blanks (hblanks : AreBlank blanks) {cs : List Char} (hne : cs ≠ []) :
    ((splitEnvironmentName cs).1 = none ∧ (splitEnvironmentName (cs ++ blanks)).1 = none) ∨
      splitEnvironmentName (cs ++ blanks) =
        ((splitEnvironmentName cs).1, (splitEnvironmentName cs).2.1,
          (splitEnvironmentName cs).2.2 ++ blanks) := by
  by_cases hrest : (splitEnvironmentName cs).2.2 = []
  · obtain ⟨first, after, rfl⟩ := List.exists_cons_of_ne_nil hne
    by_cases hbrace : first = '{'
    · subst hbrace
      by_cases hafter : after.dropWhile isEnvironmentNameCharacter = []
      · -- What comes after the name is a blank, if there is anything.
        left
        have hdrop : (after ++ blanks).dropWhile isEnvironmentNameCharacter =
            blanks.dropWhile isEnvironmentNameCharacter := by
          simp [List.dropWhile_append, hafter]
        refine ⟨by simp [splitEnvironmentName, hafter], ?_⟩
        simp only [List.cons_append, splitEnvironmentName, hdrop]
        split
        · rfl
        · next c rest hcons =>
            have hmem : c ∈ blanks :=
              (List.dropWhile_sublist _).subset (hcons ▸ List.mem_cons_self)
            exact if_neg (hblanks.ne hmem (by decide))
      · right
        obtain ⟨htake, hdrop⟩ := takeWhile_append_of_dropWhile hafter blanks
        obtain ⟨c, others, hcons⟩ := List.exists_cons_of_ne_nil hafter
        simp only [List.cons_append, splitEnvironmentName, htake, hdrop, hcons]
    · rw [splitEnvironmentName] at hrest
      · cases hrest
      · simp [hbrace]
  · exact .inr (splitEnvironmentName_append_right hrest blanks)

theorem outcome_splitTextBox_of_areBlank (hblanks : AreBlank blanks) (depth : Nat) :
    (splitTextBox depth blanks).2.1 = .unclosed := by
  induction blanks generalizing depth with
  | nil => rfl
  | cons c rest ih =>
      have hmark {d : Char} (hd : isBlank d = false) : c ≠ d := hblanks.ne List.mem_cons_self hd
      have hclose : c ≠ '}' := hmark (by decide)
      rw [splitTextBox_cons (hmark (by decide)), if_neg (hmark (by decide)),
        if_neg fun h => hclose h.1]
      exact ih (areBlank_cons.mp hblanks).2 _

theorem splitTextBox_blanks (hblanks : AreBlank blanks) (depth : Nat) (cs : List Char) :
    ((splitTextBox depth cs).2.1 = .unclosed ∧
        (splitTextBox depth (cs ++ blanks)).2.1 = .unclosed) ∨
      splitTextBox depth (cs ++ blanks) =
        ((splitTextBox depth cs).1, (splitTextBox depth cs).2.1,
          (splitTextBox depth cs).2.2 ++ blanks) := by
  fun_induction splitTextBox depth cs with
  | case1 depth => exact .inl ⟨rfl, outcome_splitTextBox_of_areBlank hblanks depth⟩
  | case2 depth =>
      -- The backslash hides the first of the blanks.
      left
      refine ⟨rfl, ?_⟩
      cases blanks with
      | nil => rfl
      | cons c rest => exact outcome_splitTextBox_of_areBlank (areBlank_cons.mp hblanks).2 depth
  | case3 depth hidden rest content outcome after hsplit ih =>
      rw [hsplit] at ih
      exact ih.imp id fun hsame => by simp [splitTextBox, hsame]
  | case4 depth rest => exact .inr (by simp [splitTextBox])
  | case5 depth c rest hlast hhidden hnul hclose =>
      exact .inr (by simp [splitTextBox, hclose.1, hclose.2])
  | case6 depth c rest hlast hhidden hnul hclose inner content outcome after hsplit ih =>
      have hslash : c ≠ '\\' := ne_backslash_of_cases hlast hhidden
      rw [hsplit] at ih
      rw [List.cons_append, splitTextBox_cons hslash, if_neg hnul, if_neg hclose]
      exact ih.imp id fun hsame => by
        simp only [inner] at hsame
        simp only [hsame]

namespace Lexer

/-! ## One token with blanks behind it -/

/-- What a lexer reads next in a text, and in the same text with blanks behind it. -/
inductive ReadsAlike (blanks : List Char) : Lexeme × Lexer → Lexeme × Lexer → Prop
  | same {short long : Lexeme × Lexer} (hlong : long = (short.1, short.2.extend blanks)) :
      ReadsAlike blanks short long
  | stops {short long : Lexeme × Lexer} (hshort : short.1.token.isLast = true)
      (hlong : long.1.token.isLast = true)
      (hend : short.1.token = .endOfInput ↔ long.1.token = .endOfInput) :
      ReadsAlike blanks short long
  | cuts {short long : Lexeme × Lexer} {c : Char} (hblank : isBlank c = true)
      (hshort : short.1.token = .malformed .incompleteCommand)
      (hlong : long.1.token = .command (String.ofList ['\\', c]))
      (hstart : long.1.span.start + 1 = short.2.finish) : ReadsAlike blanks short long

theorem ReadsAlike.faults {short long : Lexeme × Lexer} {fault other : LexicalFault}
    (hshort : short.1.token = .malformed fault) (hlong : long.1.token = .malformed other) :
    ReadsAlike blanks short long :=
  .stops (by simp [hshort, Token.isLast]) (by simp [hlong, Token.isLast]) (by simp [hshort, hlong])

theorem readsAlike_scanTextBox (hblanks : AreBlank blanks) (lexer : Lexer) (after : List Char) :
    ReadsAlike blanks (lexer.scanTextBox after)
      ((lexer.extend blanks).scanTextBox (after ++ blanks)) := by
  rcases splitTextBox_blanks hblanks 0 after with ⟨hshort, hlong⟩ | hsame
  · have hfault {here : Lexer} {cs : List Char} (hopen : (splitTextBox 0 cs).2.1 = .unclosed) :
        (here.scanTextBox cs).1.token = .malformed .unclosedText := by
      unfold scanTextBox
      split <;> simp_all [emit]
    exact .faults (hfault hshort) (hfault hlong)
  · exact .same (scanTextBox_extend_of_split hsame)

theorem token_scanEnvironment_of_none {lexer : Lexer} {begins : Bool} {start : Nat}
    (hname : (splitEnvironmentName lexer.skipGap.rest).1 = none) :
    (lexer.scanEnvironment begins start).1.token = .malformed .unclosedEnvironmentName := by
  simp only [scanEnvironment, hname]

theorem readsAlike_scanEnvironment (hblanks : AreBlank blanks) (lexer : Lexer) (begins : Bool)
    (start : Nat) :
    ReadsAlike blanks (lexer.scanEnvironment begins start)
      ((lexer.extend blanks).scanEnvironment begins start) := by
  by_cases hgap : lexer.skipGap.rest = []
  · have hlonger : (lexer.extend blanks).skipGap.rest = [] := splitGap_blanks hblanks hgap
    exact .faults (token_scanEnvironment_of_none (by rw [hgap]; rfl))
      (token_scanEnvironment_of_none (by rw [hlonger]; rfl))
  have hskip := skipGap_extend hgap blanks
  rcases splitEnvironmentName_blanks hblanks hgap with ⟨hshort, hlong⟩ | hsame
  · exact .faults (token_scanEnvironment_of_none hshort)
      (token_scanEnvironment_of_none (by rw [hskip]; exact hlong))
  · exact .same (scanEnvironment_extend_of_split hgap hsame)

/-- A backslash alone is no command, and with a blank behind it, it is one. -/
theorem readsAlike_lone_backslash (hblanks : AreBlank blanks) (lexer : Lexer) :
    ReadsAlike blanks (lexer.scanControl []) ((lexer.extend blanks).scanControl blanks) := by
  cases blanks with
  | nil => exact .faults rfl rfl
  | cons c rest =>
      have hmark {d : Char} (hd : isBlank d = false) : c ≠ d := hblanks.ne List.mem_cons_self hd
      have hslash : c ≠ '\\' := hmark (by decide)
      have hnul : c ≠ '\x00' := hmark (by decide)
      have hletter : c.isAlpha = false := (hblanks.stopsName c rfl).1
      have hname : splitControlName (c :: rest) = ([c], rest) := by
        simp [splitControlName, hletter]
      obtain ⟨hbegin, hend⟩ := (IsCommandName.symbol hletter hslash hnul).ne_environment
      rw [scanControl_of_name _ hnul hslash, hname]
      simp only [if_neg hbegin, if_neg hend]
      exact .cuts (areBlank_cons.mp hblanks).1 rfl rfl rfl

theorem readsAlike_scanControl (hblanks : AreBlank blanks) (lexer : Lexer) (after : List Char) :
    ReadsAlike blanks (lexer.scanControl after)
      ((lexer.extend blanks).scanControl (after ++ blanks)) := by
  cases after with
  | nil => exact readsAlike_lone_backslash hblanks lexer
  | cons c cs =>
      rw [List.cons_append]
      by_cases hnul : c = '\x00'
      · subst hnul
        exact .same rfl
      by_cases hslash : c = '\\'
      · subst hslash
        exact .same rfl
      have hname := splitControlName_blanks hblanks (List.cons_ne_nil c cs)
      rw [List.cons_append] at hname
      rw [scanControl_of_name lexer hnul hslash,
        scanControl_of_name (lexer.extend blanks) hnul hslash, hname]
      simp only
      split
      · exact readsAlike_scanEnvironment hblanks _ _ _
      · split
        · exact readsAlike_scanEnvironment hblanks _ _ _
        · exact .same rfl

theorem endLexeme_token_congr {first second : Lexer}
    (hgroups : first.openGroups = second.openGroups)
    (henvironments : first.openEnvironments = second.openEnvironments) :
    first.endLexeme.token = second.endLexeme.token := by
  unfold endLexeme
  rw [hgroups, henvironments]
  repeat' split
  all_goals rfl

theorem readsAlike_scan (hblanks : AreBlank blanks) (lexer : Lexer) :
    ReadsAlike blanks lexer.scan (lexer.extend blanks).scan := by
  cases hgap : lexer.skipGap.rest with
  | nil =>
      have hlonger : (lexer.extend blanks).skipGap.rest = [] := splitGap_blanks hblanks hgap
      have hends : lexer.skipGap.endLexeme.token = (lexer.extend blanks).skipGap.endLexeme.token :=
        endLexeme_token_congr rfl rfl
      simp only [scan, hgap, hlonger]
      exact .stops (isLast_endLexeme _) (isLast_endLexeme _) (Eq.congr_left hends)
  | cons c after =>
      have hskip : (lexer.extend blanks).skipGap = lexer.skipGap.extend blanks :=
        skipGap_extend (by simp [hgap]) blanks
      have hlonger : (lexer.extend blanks).skipGap.rest = c :: (after ++ blanks) := by
        rw [hskip, extend, hgap]
        rfl
      have hbox : (lexer.extend blanks).textBoxNext = lexer.textBoxNext := rfl
      rw [scan_of_skipGap hgap, scan_of_skipGap hlonger, hskip, hbox]
      simp only
      let here := { lexer.skipGap with textBoxNext := false }
      split
      · exact readsAlike_scanTextBox hblanks here after
      · split
        · exact readsAlike_scanControl hblanks here after
        · exact .same (scanCharacter_extend here c after blanks)

end Lexer

/-! ## All tokens -/

/-- The formula ends with a control symbol whose name is the first of the blanks
at its end. -/
def EndsInBlankSymbol (formula : String) : Prop :=
  ∃ c span, isBlank c = true ∧ ⟨.command (String.ofList ['\\', c]), span⟩ ∈ tokenize formula ∧
    span.start + 1 = byteLength (dropTrailingBlanks formula).toList

/-- The tokens of a text that ends at the offset, and of the same text with
blanks behind it. -/
inductive BlanksAdded (finish : Nat) : List Lexeme → List Lexeme → Prop
  | same (lexemes : List Lexeme) : BlanksAdded finish lexemes lexemes
  | faults {short long : List Lexeme} (hshort : ¬WellFormed short) (hlong : ¬WellFormed long) :
      BlanksAdded finish short long
  | cuts {short long : List Lexeme} {c : Char} {span : Span} (hblank : isBlank c = true)
      (hshort : ¬WellFormed short)
      (hlong : ⟨.command (String.ofList ['\\', c]), span⟩ ∈ long)
      (hstart : span.start + 1 = finish) : BlanksAdded finish short long

theorem not_wellFormed_of_malformed {lexeme : Lexeme} {fault : LexicalFault}
    (htoken : lexeme.token = .malformed fault) (lexemes : List Lexeme) :
    ¬WellFormed (lexeme :: lexemes) :=
  fun hformed => hformed lexeme List.mem_cons_self fault htoken

theorem BlanksAdded.cons {finish : Nat} {short long : List Lexeme}
    (hadded : BlanksAdded finish short long) (lexeme : Lexeme) :
    BlanksAdded finish (lexeme :: short) (lexeme :: long) := by
  have hmore {lexemes : List Lexeme} (hfault : ¬WellFormed lexemes) :
      ¬WellFormed (lexeme :: lexemes) :=
    fun hformed => hfault fun other hmem => hformed other (List.mem_cons_of_mem lexeme hmem)
  cases hadded with
  | same => exact .same _
  | faults hshort hlong => exact .faults (hmore hshort) (hmore hlong)
  | cuts hblank hshort hlong hstart =>
      exact .cuts hblank (hmore hshort) (List.mem_cons_of_mem lexeme hlong) hstart

theorem blanksAdded_lexemes (hblanks : AreBlank blanks) (lexer : Lexer) :
    BlanksAdded lexer.finish lexer.lexemes (lexer.extend blanks).lexemes := by
  induction lexer using Lexer.lexemes_induction with
  | finish lexer hend =>
      have hlonger : (lexer.extend blanks).scan.1.token = .endOfInput := by
        cases lexer.readsAlike_scan hblanks with
        | same hlong => rw [hlong, hend]
        | stops _ _ hends => exact hends.mp hend
        | cuts _ hshort _ _ => cases hend.symm.trans hshort
      rw [Lexer.lexemes_eq, hlonger]
      exact .same []
  | malformed lexer fault htoken =>
      have hshort := not_wellFormed_of_malformed htoken []
      cases lexer.readsAlike_scan hblanks with
      | same hlong =>
          rw [Lexer.lexemes_eq, hlong, htoken]
          exact .same _
      | stops _ hlong hends =>
          have hend : (lexer.extend blanks).scan.1.token ≠ .endOfInput := by
            intro hend
            cases htoken.symm.trans (hends.mpr hend)
          obtain ⟨other, hother⟩ := Token.exists_fault_of_isLast hlong hend
          rw [Lexer.lexemes_eq, if_pos hlong, if_neg hend]
          exact .faults hshort (not_wellFormed_of_malformed hother [])
      | @cuts c hblank _ hlong hstart =>
          have hmem : ⟨.command (String.ofList ['\\', c]), (lexer.extend blanks).scan.1.span⟩ ∈
              (lexer.extend blanks).lexemes := by
            rw [Lexer.lexemes_eq, if_neg (by simp [hlong, Token.isLast]), ← hlong]
            exact List.mem_cons_self
          exact .cuts hblank hshort hmem (hstart.trans lexer.takes_scan.finish_eq)
  | next lexer hlast ih =>
      cases lexer.readsAlike_scan hblanks with
      | same hlong =>
          rw [Lexer.lexemes_eq (lexer.extend blanks), hlong, if_neg (by simp [hlast]),
            ← lexer.takes_scan.finish_eq]
          exact ih.cons lexer.scan.1
      | stops hshort _ _ => cases hlast.symm.trans hshort
      | cuts _ hshort _ _ =>
          rw [hshort] at hlast
          cases hlast

/-! ## All of a formula -/

theorem exists_areBlank_dropTrailingBlanks (formula : String) :
    ∃ blanks, AreBlank blanks ∧
      formula.toList = (dropTrailingBlanks formula).toList ++ blanks := by
  refine ⟨(formula.toList.reverse.takeWhile isBlank).reverse, ?_, ?_⟩
  · intro c hc
    rw [List.mem_reverse] at hc
    exact List.all_eq_true.mp List.all_takeWhile c hc
  · rw [dropTrailingBlanks, String.toList_ofList, ← List.reverse_append,
      List.takeWhile_append_dropWhile, List.reverse_reverse]

theorem blanksAdded_tokenize (formula : String) :
    BlanksAdded (byteLength (dropTrailingBlanks formula).toList)
      (tokenize (dropTrailingBlanks formula)) (tokenize formula) := by
  obtain ⟨blanks, hblanks, hformula⟩ := exists_areBlank_dropTrailingBlanks formula
  have hstart : Lexer.start formula = (Lexer.start (dropTrailingBlanks formula)).extend blanks := by
    simp [Lexer.start, Lexer.extend, hformula]
  have hfinish : (Lexer.start (dropTrailingBlanks formula)).finish =
      byteLength (dropTrailingBlanks formula).toList := by
    simp [Lexer.start, Lexer.finish]
  have hadded := blanksAdded_lexemes hblanks (Lexer.start (dropTrailingBlanks formula))
  rwa [hfinish, ← hstart] at hadded

/-- A control symbol at the end has no place in the formula without its blanks. -/
theorem not_endsInBlankSymbol {formula : String}
    (hsame : tokenize (dropTrailingBlanks formula) = tokenize formula) :
    ¬EndsInBlankSymbol formula := by
  rintro ⟨c, span, hblank, hmem, hstart⟩
  rw [← hsame] at hmem
  obtain ⟨before, text, after, happend, ⟨htext, _⟩, hspan⟩ :=
    (interleaves_tokenize (dropTrailingBlanks formula)).exists_text hmem (by simp)
  have hlength := length_le_byteLength text
  obtain rfl : span = _ := hspan
  rw [htext, String.toList_ofList] at hlength
  rw [happend, htext, String.toList_ofList] at hstart
  simp only [byteLength_append, List.length_cons, List.length_nil] at hstart hlength
  omega

theorem parseFormula_dropTrailingBlanks_eq_ok_iff (chemistry : Bool) (formula : String)
    (tree : Node) :
    parseFormula chemistry (dropTrailingBlanks formula) = .ok tree ↔
      parseFormula chemistry formula = .ok tree ∧ ¬EndsInBlankSymbol formula := by
  have htokens (hsame : tokenize (dropTrailingBlanks formula) = tokenize formula) :
      parseFormula chemistry (dropTrailingBlanks formula) = .ok tree ↔
        parseFormula chemistry formula = .ok tree := by
    rw [parseFormula, parseFormula, readTokens_eq_ok_iff, readTokens_eq_ok_iff, hsame]
  generalize hshort : tokenize (dropTrailingBlanks formula) = short at htokens
  generalize hlong : tokenize formula = long at htokens
  have hadded := blanksAdded_tokenize formula
  rw [hshort, hlong] at hadded
  cases hadded with
  | same =>
      rw [htokens rfl]
      exact (and_iff_left (not_endsInBlankSymbol (hshort.trans hlong.symm))).symm
  | faults hfault hfaults =>
      constructor
      · intro hparse
        exact absurd (hshort ▸ wellFormed_of_parseFormula hparse) hfault
      · intro hparse
        exact absurd (hlong ▸ wellFormed_of_parseFormula hparse.1) hfaults
  | cuts hblank hfault hmem hstart =>
      constructor
      · intro hparse
        exact absurd (hshort ▸ wellFormed_of_parseFormula hparse) hfault
      · intro hparse
        exact absurd ⟨_, _, hblank, hlong ▸ hmem, hstart⟩ hparse.2

/-- What a tree is converted to. -/
def Settings.Writes (settings : Settings) (form : OutputForm) (display : Display)
    (attributes : Attributes) (tree : Node) (output : String) : Prop :=
  match form with
  | .text => output = tree.canonicalText
  | .markup =>
      ∃ elements, tree.layout .builtin { attributes } = .ok elements ∧
        output = (settings.mathElement display tree elements).write

theorem Settings.convert_eq_ok_iff {settings : Settings} {formula : String} {form : OutputForm}
    {display : Display} {attributes : Attributes} {output : String} :
    settings.convert formula form display attributes = .ok output ↔
      ∃ tree, settings.parse formula = .ok tree ∧
        settings.Writes form display attributes tree output := by
  cases form with
  | text =>
      cases hparse : settings.parse formula <;>
        simp [convert, canonicalText, Writes, hparse, eq_comm]
  | markup => simp [convert, Writes, markup_eq_ok_iff]

/-- Without the blanks at its end a formula is converted to the same output,
except if it ends in a control symbol whose name is the first of them: without
its blanks such a formula is refused. -/
theorem convert_dropTrailingBlanks_eq_ok_iff (settings : Settings) (formula : String)
    (form : OutputForm) (display : Display) (attributes : Attributes) (output : String) :
    settings.convert (dropTrailingBlanks formula) form display attributes = .ok output ↔
      settings.convert formula form display attributes = .ok output ∧
        ¬EndsInBlankSymbol formula := by
  rw [Settings.convert_eq_ok_iff, Settings.convert_eq_ok_iff]
  simp only [Settings.parse, parseFormula_dropTrailingBlanks_eq_ok_iff]
  constructor
  · rintro ⟨tree, ⟨hparse, hsymbol⟩, hwrites⟩
    exact ⟨⟨tree, hparse, hwrites⟩, hsymbol⟩
  · rintro ⟨⟨tree, hparse, hwrites⟩, hsymbol⟩
    exact ⟨tree, ⟨hparse, hsymbol⟩, hwrites⟩

/-- The blank after the backslash is dropped, so the run fails on a formula that
is its own canonical text. -/
theorem convert_dropTrailingBlanks_of_control_space :
    ({} : Settings).convert "x\\ " .text .inline ∅ = .ok "x\\ " ∧
      ({} : Settings).convert (dropTrailingBlanks "x\\ ") .text .inline ∅ =
        .error ⟨⟨1, 2⟩, .lexical .incompleteCommand⟩ ∧
      (runCommandLine ["-t", "-f", "x\\ "] (fun _ => .error .notFound) .empty).status = 2 := by
  refine ⟨?_, ?_, ?_⟩
  · with_unfolding_all rfl
  · with_unfolding_all rfl
  · with_unfolding_all rfl

end FormulaMarkup
