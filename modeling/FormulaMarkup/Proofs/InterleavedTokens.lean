import FormulaMarkup.Proofs.LexerSteps

/-!
# A formula is its tokens and the gaps between them

Up to the end, or up to the first malformed token, the characters of a formula
are gaps and spelled tokens in turn, so nothing is lost between two tokens and
nothing is read twice.  The span of each token is where its spelling stands.
The byte offsets are computed from the characters in front, so they fall
between characters whatever the length of their UTF-8 forms.
-/

namespace FormulaMarkup

/-- How a token is spelled in front of the given characters.  The end of the
formula and malformed tokens have no spelling. -/
def Token.IsSpelled (text after : List Char) : Token → Prop
  | .endOfInput => False
  | .beginning name =>
      ∃ gap, IsGap ('{' :: (name.toList ++ '}' :: after)) gap ∧
        text = Lexer.spacedMark true gap name.toList
  | .ending name =>
      ∃ gap, IsGap ('{' :: (name.toList ++ '}' :: after)) gap ∧
        text = Lexer.spacedMark false gap name.toList
  | .openBrace => text = ['{']
  | .closeBrace => text = ['}']
  | .script .over => text = ['^']
  | .script .under => text = ['_']
  | .nextCell => text = ['&']
  | .nextRow => text = ['\\', '\\']
  | .command name => text = name.toList ∧ IsCommand name ∧ EndsName text after
  | .digit c => text = [c]
  | .letter c => text = [c]
  | .symbol c => text = [c]
  | .rawText content => text = '{' :: content.toList ++ ['}']
  | .malformed _ => False

theorem Token.IsSpelled.ne_nil
    {token : Token} {text after : List Char} (htext : token.IsSpelled text after) :
    text ≠ [] := by
  rintro rfl
  cases token with
  | script side => cases side <;> simp [IsSpelled] at htext
  | command name =>
      obtain ⟨htext, ⟨word, rfl, _⟩, _⟩ := htext
      simp at htext
  | _ => simp_all [IsSpelled, Lexer.spacedMark]

theorem isSpelled_characterToken (c : Char) (after : List Char) :
    (characterToken c).IsSpelled [c] after := by
  unfold characterToken
  repeat' split
  all_goals simp_all [Token.IsSpelled]

/-- The span of a text, by the characters in front of it. -/
def textSpan (before text : List Char) : Span :=
  ⟨byteLength before, byteLength before + byteLength text⟩

/-- From the offset on, the characters are gaps and spelled tokens in turn, up
to the end or up to a malformed token. -/
inductive Interleaves : Nat → List Char → List Lexeme → Prop
  | finish {offset : Nat} {gap : List Char} (hgap : IsGap [] gap) : Interleaves offset gap []
  | malformed {offset : Nat} {cs : List Char} {fault : LexicalFault} {span : Span} :
      Interleaves offset cs [⟨.malformed fault, span⟩]
  | next {offset : Nat} {gap text rest : List Char} {lexeme : Lexeme} {lexemes : List Lexeme}
      (hgap : IsGap (text ++ rest) gap) (htext : lexeme.token.IsSpelled text rest)
      (hspan : lexeme.span =
        ⟨offset + byteLength gap, offset + byteLength gap + byteLength text⟩)
      (hrest : Interleaves (offset + byteLength gap + byteLength text) rest lexemes) :
      Interleaves offset (gap ++ (text ++ rest)) (lexeme :: lexemes)

namespace Lexer

/-! ## One step -/

variable {boxed : Bool} {lexer : Lexer} {result : Lexeme × Lexer}

theorem Scans.isSpelled
    (hscans : Scans boxed lexer result) (hlast : result.1.token.isLast = false) :
    ∃ text, lexer.rest = text ++ result.2.rest ∧
      result.1.token.IsSpelled text result.2.rest ∧
      result.1.span = ⟨lexer.position, lexer.position + byteLength text⟩ ∧
      result.2.position = lexer.position + byteLength text := by
  cases hscans with
  | finish hrest => simp [isLast_endLexeme] at hlast
  | plain hrest hplain => exact ⟨_, hrest, isSpelled_characterToken _ _, rfl, rfl⟩
  | openBrace hrest => exact ⟨_, hrest, rfl, rfl, rfl⟩
  | closeBrace hrest hgroups => exact ⟨_, hrest, rfl, rfl, rfl⟩
  | textBox hboxed hrest => exact ⟨_, by simp [hrest], by simp [emit, Token.IsSpelled], rfl, rfl⟩
  | nextRow hrest => exact ⟨_, hrest, rfl, rfl, rfl⟩
  | command hrest hname hends =>
      exact ⟨_, hrest, ⟨by simp, ⟨_, rfl, hname⟩, hends⟩, rfl, rfl⟩
  | beginning hrest hgap hspan =>
      exact ⟨_, hrest, ⟨_, by simpa using hgap, by simp⟩, hspan, rfl⟩
  | ending hrest hgap => exact ⟨_, hrest, ⟨_, by simpa using hgap, by simp⟩, rfl, rfl⟩
  | unmatchedClose | broken | nul => cases hlast

theorem Scans.rest_eq_nil
    (hscans : Scans boxed lexer result) (hend : result.1.token = .endOfInput) :
    lexer.rest = [] := by
  cases hscans with
  | finish hrest => exact hrest
  | @plain c rest hrest hplain =>
      have hlast := isLast_characterToken c
      have htoken : characterToken c = .endOfInput := hend
      rw [htoken] at hlast
      cases hlast
  | _ => cases hend

/-- A text box is read only where the step before asked for one. -/
theorem Scans.boxed_of_rawText
    (hscans : Scans boxed lexer result) {content : String}
    (htoken : result.1.token = .rawText content) :
    boxed = true := by
  cases hscans with
  | textBox hboxed hrest => exact hboxed
  | finish hrest =>
      have hlast := lexer.isLast_endLexeme
      rw [htoken] at hlast
      cases hlast
  | @plain c rest hrest hplain =>
      revert htoken
      simp only [emit, characterToken]
      repeat' split
      all_goals simp
  | _ => cases htoken

/-- Only a command whose argument is raw text asks for a text box. -/
theorem Scans.command_of_textBoxNext
    (hscans : Scans boxed lexer result) (hbefore : lexer.textBoxNext = false)
    (hafter : result.2.textBoxNext = true) :
    ∃ name, result.1.token = .command name ∧ shape? name = some .rawText := by
  cases hscans with
  | command hrest hname hends => exact ⟨_, rfl, by simpa [emit, advance] using hafter⟩
  | _ => exact absurd (hbefore.symm.trans hafter) (by decide)

/-! ## All steps -/

theorem interleaves_lexemes (lexer : Lexer) :
    Interleaves lexer.position lexer.rest lexer.lexemes := by
  induction lexer using lexemes_induction with
  | finish lexer hend =>
      have hgap := isGap_splitGap lexer.rest
      have happend := splitGap_append false lexer.rest
      have hrest : (splitGap false lexer.rest).2 = [] := lexer.scans_scan.rest_eq_nil hend
      rw [hrest, List.append_nil] at happend
      rw [hrest, happend] at hgap
      exact .finish hgap
  | malformed lexer fault htoken =>
      have hlexeme : lexer.scan.1 = ⟨.malformed fault, lexer.scan.1.span⟩ := by rw [← htoken]
      rw [hlexeme]
      exact .malformed
  | next lexer hlast ih =>
      obtain ⟨text, hrest, htext, hspan, hposition⟩ := lexer.scans_scan.isSpelled hlast
      have hgap := isGap_splitGap lexer.rest
      have happend := splitGap_append false lexer.rest
      have hafter : (splitGap false lexer.rest).2 = text ++ lexer.scan.2.rest := hrest
      have hstart : lexer.skipGap.position =
          lexer.position + byteLength (splitGap false lexer.rest).1 := rfl
      rw [hafter] at hgap happend
      simp only [hstart] at hspan hposition
      rw [← happend]
      apply Interleaves.next hgap htext hspan
      rw [← hposition]
      exact ih

/-- The text box asked for by a command is read right after it, and there is
no other. -/
theorem command_before_rawText
    (lexer : Lexer) {before after : List Lexeme} {content : String} {span : Span}
    (hlexemes : lexer.lexemes = before ++ ⟨.rawText content, span⟩ :: after) :
    (before = [] ∧ lexer.textBoxNext = true) ∨
      ∃ name place, before.getLast? = some ⟨.command name, place⟩ ∧
        shape? name = some .rawText := by
  induction lexer using lexemes_induction generalizing before with
  | finish lexer hend => simp at hlexemes
  | malformed lexer fault htoken =>
      have hmem : ⟨.rawText content, span⟩ ∈ [lexer.scan.1] := by simp [hlexemes]
      rw [← List.mem_singleton.mp hmem] at htoken
      cases htoken
  | next lexer hlast ih =>
      have hscans := lexer.scans_scan
      cases before with
      | nil =>
          have hbox : lexer.scan.1.token = .rawText content := by
            rw [(List.cons.inj hlexemes).1]
          exact .inl ⟨rfl, hscans.boxed_of_rawText hbox⟩
      | cons first others =>
          obtain ⟨rfl, hothers⟩ := List.cons.inj hlexemes
          right
          rcases ih hothers with ⟨rfl, hasked⟩ | ⟨name, place, hlast, hshape⟩
          · obtain ⟨name, htoken, hshape⟩ := hscans.command_of_textBoxNext rfl hasked
            exact ⟨name, lexer.scan.1.span, by rw [← htoken]; rfl, hshape⟩
          · exact ⟨name, place, by rw [List.getLast?_cons, hlast]; rfl, hshape⟩

end Lexer

namespace Interleaves

variable {offset : Nat} {cs : List Char} {lexemes : List Lexeme}

/-- Each token stands where its span says. -/
theorem exists_text
    (hlexemes : Interleaves offset cs lexemes) {lexeme : Lexeme} (hmem : lexeme ∈ lexemes)
    (hread : ∀ fault, lexeme.token ≠ .malformed fault) :
    ∃ before text after, cs = before ++ (text ++ after) ∧
      lexeme.token.IsSpelled text after ∧
      lexeme.span =
        ⟨offset + byteLength before, offset + byteLength before + byteLength text⟩ := by
  induction hlexemes with
  | finish hgap => simp at hmem
  | @malformed _ _ fault span =>
      obtain rfl := List.mem_singleton.mp hmem
      exact absurd rfl (hread fault)
  | @next offset gap text rest first lexemes hgap htext hspan hrest ih =>
      rcases List.mem_cons.mp hmem with rfl | hmem
      · exact ⟨gap, text, rest, rfl, htext, hspan⟩
      · obtain ⟨before, later, after, rfl, hlater, hplace⟩ := ih hmem
        refine ⟨gap ++ (text ++ before), later, after, by simp, hlater, ?_⟩
        simpa [Nat.add_assoc] using hplace

theorem pairwise
    (hlexemes : Interleaves offset cs lexemes) :
    lexemes.Pairwise fun first second =>
      (∀ fault, second.token ≠ .malformed fault) →
        first.span.start < first.span.stop ∧ first.span.stop ≤ second.span.start := by
  induction hlexemes with
  | finish hgap => exact .nil
  | malformed => exact List.pairwise_singleton _ _
  | next hgap htext hspan hrest ih =>
      refine List.pairwise_cons.mpr ⟨?_, ih⟩
      intro second hmem hread
      have hpos := byteLength_pos htext.ne_nil
      obtain ⟨before, later, after, _, _, hplace⟩ := hrest.exists_text hmem hread
      rw [hspan, hplace]
      constructor
      · simp only
        omega
      · simp only
        omega

end Interleaves

theorem interleaves_tokenize (formula : String) :
    Interleaves 0 formula.toList (tokenize formula) :=
  Lexer.interleaves_lexemes (Lexer.start formula)

/-- The lexemes of a formula, up to a malformed one, interleave with gaps to
the formula.  Their spans follow one another and are where they are spelled,
and a text box comes directly after the command that asks for it. -/
theorem tokenize_interleaves (formula : String) :
    Interleaves 0 formula.toList (tokenize formula) ∧
      (tokenize formula).Pairwise (fun first second =>
        (∀ fault, second.token ≠ .malformed fault) →
          first.span.start < first.span.stop ∧ first.span.stop ≤ second.span.start) ∧
      (∀ lexeme ∈ tokenize formula, (∀ fault, lexeme.token ≠ .malformed fault) →
        ∃ before text after, formula.toList = before ++ (text ++ after) ∧
          lexeme.token.IsSpelled text after ∧ lexeme.span = textSpan before text) ∧
      ∀ before content span after,
        tokenize formula = before ++ ⟨.rawText content, span⟩ :: after →
          ∃ name place, before.getLast? = some ⟨.command name, place⟩ ∧
            shape? name = some .rawText := by
  have hlexemes : Interleaves 0 formula.toList (tokenize formula) :=
    Lexer.interleaves_lexemes (Lexer.start formula)
  refine ⟨hlexemes, hlexemes.pairwise, ?_, ?_⟩
  · intro lexeme hmem hread
    obtain ⟨before, text, after, happend, htext, hspan⟩ := hlexemes.exists_text hmem hread
    exact ⟨before, text, after, happend, htext, by simpa [textSpan] using hspan⟩
  · intro before content span after hbox
    rcases Lexer.command_before_rawText (Lexer.start formula) hbox with ⟨_, hasked⟩ | hcommand
    · cases hasked
    · exact hcommand

theorem tokenize_interleaves_boxed :
    tokenize "é%x\n\\text \x7bα\x7d" =
        [⟨.letter 'é', ⟨0, 2⟩⟩, ⟨.command "\\text", ⟨5, 10⟩⟩, ⟨.rawText "α", ⟨11, 15⟩⟩] ∧
      (∃ before text after, "é%x\n\\text \x7bα\x7d".toList = before ++ (text ++ after) ∧
        (Token.rawText "α").IsSpelled text after ∧ ⟨11, 15⟩ = textSpan before text) ∧
      ∃ name place,
        [⟨.letter 'é', ⟨0, 2⟩⟩, ⟨.command "\\text", ⟨5, 10⟩⟩].getLast? =
            some (⟨.command name, place⟩ : Lexeme) ∧
          shape? name = some .rawText := by
  have hlexemes : tokenize "é%x\n\\text \x7bα\x7d" =
      [⟨.letter 'é', ⟨0, 2⟩⟩, ⟨.command "\\text", ⟨5, 10⟩⟩, ⟨.rawText "α", ⟨11, 15⟩⟩] := by
    with_unfolding_all rfl
  obtain ⟨_, _, hspelled, hasked⟩ := tokenize_interleaves "é%x\n\\text \x7bα\x7d"
  rw [hlexemes] at hspelled hasked
  exact ⟨hlexemes, hspelled ⟨.rawText "α", ⟨11, 15⟩⟩ (by simp) nofun,
    hasked [⟨.letter 'é', ⟨0, 2⟩⟩, ⟨.command "\\text", ⟨5, 10⟩⟩] "α" ⟨11, 15⟩ [] rfl⟩

end FormulaMarkup
