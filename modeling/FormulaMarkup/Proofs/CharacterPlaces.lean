import FormulaMarkup.Proofs.GrammarReading
import FormulaMarkup.Proofs.OpenConstructs

/-!
# Where characters stand

A character of a formula stands in a comment, is a blank, or belongs to the
spelling of a token.  Some characters are neither blanks nor part of the mark
of an environment, so for them the choice is between a comment and a token; the
backslash and the null character are the two that matter.

A comment begins with a percent sign that no token covers.  The exception is the
mark of an environment, whose span takes in the gap between the command and the
name.
-/

namespace FormulaMarkup

/-- A character that is found neither in a gap, outside of comments, nor in the
mark of an environment, after its first character. -/
structure IsSolid (c : Char) : Prop where
  blank : isBlank c = false
  percent : c ≠ '%'
  name : isEnvironmentNameCharacter c = false
  braces : c ∉ ['{', '}']

theorem isSolid_nul : IsSolid '\x00' := by
  constructor <;> decide

/-- The name of a control sequence has neither backslashes nor null characters. -/
theorem IsCommandName.not_mem {word : List Char} (hname : IsCommandName word) {c : Char}
    (hc : c ∈ ['\\', '\x00']) : c ∉ word := by
  have hmark : c.isAlpha = false ∧ c ≠ '*' := by
    simp only [List.mem_cons, List.not_mem_nil, or_false] at hc
    rcases hc with rfl | rfl <;> decide
  have hword {letters : List Char} (hletters : ∀ d ∈ letters, d.isAlpha = true) :
      c ∉ letters := by
    intro hmem
    rw [hletters c hmem] at hmark
    cases hmark.1
  cases hname with
  | word hletters _ _ _ => exact hword hletters
  | starred hletters _ _ => simpa using ⟨hword hletters, hmark.2⟩
  | symbol _ hslash hnul =>
      simp only [List.mem_cons, List.not_mem_nil, or_false] at hc ⊢
      rcases hc with rfl | rfl
      · exact hslash.symm
      · exact hnul.symm

/-- A character stands in one of two parts. -/
theorem exists_of_append_eq_append_cons {first second before after : List Char} {c : Char}
    (happend : first ++ second = before ++ c :: after) :
    (∃ tail, first = before ++ c :: tail ∧ after = tail ++ second) ∨
      ∃ lead, before = first ++ lead ∧ second = lead ++ c :: after := by
  rcases List.append_eq_append_iff.mp happend with ⟨lead, hbefore, hsecond⟩ | ⟨tail, hfirst, hafter⟩
  · exact .inr ⟨lead, hbefore, hsecond⟩
  · cases tail with
    | nil => exact .inr ⟨[], by simpa using hfirst.symm, by simpa using hafter.symm⟩
    | cons d tail =>
        obtain ⟨rfl, rfl⟩ := List.cons.inj hafter
        exact .inl ⟨tail, hfirst, rfl⟩

/-! ## Gaps and marks -/

/-- In a gap, a solid character stands behind a percent sign in the same line. -/
theorem IsGap.exists_percent {after gap : List Char} (hgap : IsGap after gap)
    {before tail : List Char} {c : Char} (hc : IsSolid c) (hsplit : gap = before ++ c :: tail) :
    ∃ lead body, before = lead ++ '%' :: body ∧ '\n' ∉ body := by
  induction hgap generalizing before with
  | nothing => simp at hsplit
  | @blank d rest hblank _ ih =>
      cases before with
      | nil =>
          obtain ⟨rfl, _⟩ := List.cons.inj hsplit
          rw [hc.blank] at hblank
          cases hblank
      | cons e before =>
          obtain ⟨rfl, hrest⟩ := List.cons.inj hsplit
          obtain ⟨lead, body, rfl, hbody⟩ := ih hrest
          exact ⟨d :: lead, body, rfl, hbody⟩
  | @comment body rest hbody hstop _ ih =>
      cases before with
      | nil => exact absurd (List.cons.inj hsplit).1.symm hc.percent
      | cons e before =>
          obtain ⟨rfl, hrest⟩ := List.cons.inj hsplit
          rcases exists_of_append_eq_append_cons hrest with ⟨tail, rfl, _⟩ | ⟨lead, rfl, hlater⟩
          · refine ⟨[], before, rfl, ?_⟩
            exact fun hline => hbody (List.mem_append_left _ hline)
          · obtain ⟨lead, other, rfl, hother⟩ := ih hlater
            exact ⟨'%' :: (body ++ lead), other, by simp, hother⟩

theorem isEnvironmentNameCharacter_of_mem_environmentCommand {begins : Bool} {c : Char}
    (hmem : c ∈ Lexer.environmentCommand begins) : isEnvironmentNameCharacter c = true := by
  have hletters : ∀ c ∈ Lexer.environmentCommand begins, isEnvironmentNameCharacter c = true := by
    cases begins <;> simp [Lexer.environmentCommand, isEnvironmentNameCharacter]
  exact hletters c hmem

/-- In the mark of an environment, a solid character is the backslash at its
beginning or stands in the gap. -/
theorem exists_of_spacedMark {begins : Bool} {gap word before after : List Char} {c : Char}
    (hc : IsSolid c) (hword : ∀ d ∈ word, isEnvironmentNameCharacter d = true)
    (hmark : Lexer.spacedMark begins gap word = before ++ c :: after) :
    before = [] ∨ ∃ lead tail, gap = lead ++ c :: tail ∧
      before = '\\' :: (Lexer.environmentCommand begins ++ lead) := by
  have hnotName (hname : isEnvironmentNameCharacter c = true) : False := by
    rw [hc.name] at hname
    cases hname
  cases before with
  | nil => exact .inl rfl
  | cons d before =>
      obtain ⟨rfl, hinner⟩ := List.cons.inj hmark
      rcases exists_of_append_eq_append_cons hinner with ⟨tail, hcommand, _⟩ | ⟨inner, rfl, hspaced⟩
      · have hmem : c ∈ Lexer.environmentCommand begins := by simp [hcommand]
        exact (hnotName (isEnvironmentNameCharacter_of_mem_environmentCommand hmem)).elim
      · rcases exists_of_append_eq_append_cons hspaced with ⟨tail, hgap, _⟩ | ⟨lead, _, hbraced⟩
        · exact .inr ⟨inner, tail, hgap, rfl⟩
        · have hmem : c ∈ '{' :: (word ++ ['}']) := by simp [hbraced]
          have hbraces := hc.braces
          simp only [List.mem_cons, List.mem_append, List.not_mem_nil, or_false, not_or]
            at hmem hbraces
          rcases hmem with hopen | hinside | hclose
          · exact absurd hopen hbraces.1
          · exact (hnotName (hword c hinside)).elim
          · exact absurd hclose hbraces.2

/-- The names of environments have only the characters of such names. -/
def Token.HasPlainName : Token → Prop
  | .beginning name => ∀ c ∈ name.toList, isEnvironmentNameCharacter c = true
  | .ending name => ∀ c ∈ name.toList, isEnvironmentNameCharacter c = true
  | _ => True

namespace Lexer

theorem Scans.hasPlainName {boxed : Bool} {lexer : Lexer} {result : Lexeme × Lexer}
    (hscans : Scans boxed lexer result) : result.1.token.HasPlainName := by
  cases hscans with
  | finish =>
      simp only [endLexeme]
      repeat' split
      all_goals trivial
  | plain =>
      simp only [emit, characterToken]
      repeat' split
      all_goals trivial
  | beginning _ _ _ hword => simpa [Token.HasPlainName] using hword
  | ending _ _ hword => simpa [emit, Token.HasPlainName] using hword
  | _ => trivial

theorem hasPlainName_of_mem_lexemes {lexer : Lexer} {lexeme : Lexeme}
    (hmem : lexeme ∈ lexer.lexemes) : lexeme.token.HasPlainName := by
  induction lexer using lexemes_induction with
  | finish lexer hend => cases hmem
  | malformed lexer fault htoken =>
      rw [List.mem_singleton.mp hmem]
      exact lexer.scans_scan.hasPlainName
  | next lexer hlast ih =>
      rcases List.mem_cons.mp hmem with rfl | hlater
      · exact lexer.scans_scan.hasPlainName
      · exact ih hlater

end Lexer

/-! ## Comments and tokens -/

def Lexeme.Covers (lexeme : Lexeme) (offset : Nat) : Prop :=
  lexeme.span.start ≤ offset ∧ offset < lexeme.span.stop

/-- Whether a token is the beginning or the end of an environment. -/
def Token.isMark : Token → Bool
  | .beginning _ => true
  | .ending _ => true
  | _ => false

/-- After these characters, which begin at the offset, a comment goes on. -/
def InComment (offset : Nat) (lexemes : List Lexeme) (before : List Char) : Prop :=
  ∃ lead body, before = lead ++ '%' :: body ∧ '\n' ∉ body ∧
    ∀ lexeme ∈ lexemes, lexeme.Covers (offset + byteLength lead) → lexeme.token.isMark = true

/-- After these characters, which begin at the offset, the next character is one
of the spelling of the lexeme. -/
def InSpelling (offset : Nat) (lexeme : Lexeme) (before : List Char) (c : Char)
    (after : List Char) : Prop :=
  ∃ lead front back rest, before = lead ++ front ∧ after = back ++ rest ∧
    lexeme.token.IsSpelled (front ++ c :: back) rest ∧
    lexeme.span = ⟨offset + byteLength lead,
      offset + byteLength lead + byteLength (front ++ c :: back)⟩ ∧
    (lexeme.token.isMark = true → front = [])

/-- The lexemes that come next do not cover what is before them. -/
theorem Interleaves.start_le {offset : Nat} {cs : List Char} {lexemes : List Lexeme}
    (hlexemes : Interleaves offset cs lexemes)
    (hformed : WellFormed lexemes)
    {lexeme : Lexeme} (hmem : lexeme ∈ lexemes) : offset ≤ lexeme.span.start := by
  obtain ⟨before, text, after, _, _, hspan⟩ := hlexemes.exists_text hmem (hformed lexeme hmem)
  rw [hspan]
  exact Nat.le_add_right _ _

theorem Token.exists_spacedMark {token : Token} {text rest : List Char}
    (htext : token.IsSpelled text rest) (hname : token.HasPlainName) (hmark : token.isMark = true) :
    ∃ begins gap word, text = Lexer.spacedMark begins gap word ∧
      IsGap ('{' :: (word ++ '}' :: rest)) gap ∧
      ∀ c ∈ word, isEnvironmentNameCharacter c = true := by
  cases token with
  | beginning name =>
      obtain ⟨gap, hgap, rfl⟩ := htext
      exact ⟨true, gap, name.toList, rfl, hgap, hname⟩
  | ending name =>
      obtain ⟨gap, hgap, rfl⟩ := htext
      exact ⟨false, gap, name.toList, rfl, hgap, hname⟩
  | _ => cases hmark

/-- Up to the end of the lexemes, a solid character stands in a comment or in
the spelling of a lexeme. -/
theorem Interleaves.inComment_or_inSpelling {offset : Nat} {cs : List Char}
    {lexemes : List Lexeme} (hlexemes : Interleaves offset cs lexemes)
    (hformed : WellFormed lexemes)
    (hnames : ∀ lexeme ∈ lexemes, lexeme.token.HasPlainName)
    {before after : List Char} {c : Char} (hc : IsSolid c) (hcs : cs = before ++ c :: after) :
    InComment offset lexemes before ∨
      ∃ lexeme ∈ lexemes, InSpelling offset lexeme before c after := by
  induction hlexemes generalizing before with
  | finish hgap =>
      obtain ⟨lead, body, rfl, hbody⟩ := hgap.exists_percent hc hcs
      exact .inl ⟨lead, body, rfl, hbody, by simp⟩
  | malformed => exact absurd rfl (hformed _ List.mem_cons_self _)
  | @next offset gap text rest first lexemes hgap htext hspan hrest ih =>
      rw [WellFormed, List.forall_mem_cons] at hformed
      rw [List.forall_mem_cons] at hnames
      have hlater {lexeme : Lexeme} (hmem : lexeme ∈ lexemes) {position : Nat}
          (hposition : position < offset + byteLength gap + byteLength text) :
          ¬ lexeme.Covers position := by
        have hstart := hrest.start_le hformed.2 hmem
        rintro ⟨hbefore, _⟩
        omega
      rcases exists_of_append_eq_append_cons hcs with ⟨tail, hingap, rfl⟩ | ⟨front, rfl, hinner⟩
      · obtain ⟨lead, body, rfl, hbody⟩ := hgap.exists_percent hc hingap
        refine .inl ⟨lead, body, rfl, hbody, ?_⟩
        have hlead : byteLength lead < byteLength gap := by
          have hpercent := Char.utf8Size_pos '%'
          simp only [hingap, byteLength_append, byteLength_cons]
          omega
        intro lexeme hmem hcovers
        rcases List.mem_cons.mp hmem with rfl | hmem
        · rw [Lexeme.Covers, hspan] at hcovers
          have hstart := hcovers.1
          simp only at hstart
          omega
        · exact absurd hcovers (hlater hmem (by omega))
      · rcases exists_of_append_eq_append_cons hinner with ⟨back, rfl, rfl⟩ | ⟨lead, rfl, hinrest⟩
        · by_cases hfront : first.token.isMark = true → front = []
          · exact .inr ⟨first, List.mem_cons_self, gap, front, back, rest, rfl, rfl, htext, hspan,
              hfront⟩
          · -- The character is in the gap of the mark of an environment.
            simp only [Classical.not_imp] at hfront
            obtain ⟨hmark, hne⟩ := hfront
            obtain ⟨begins, inner, word, htext, hspaced, hword⟩ :=
              Token.exists_spacedMark htext hnames.1 hmark
            obtain hnil | ⟨lead, tail, hsplit, rfl⟩ := exists_of_spacedMark hc hword htext.symm
            · exact absurd hnil hne
            obtain ⟨lead, body, rfl, hbody⟩ := hspaced.exists_percent hc hsplit
            refine .inl ⟨gap ++ '\\' :: (Lexer.environmentCommand begins ++ lead), body, by simp,
              hbody, ?_⟩
            intro lexeme hmem hcovers
            rcases List.mem_cons.mp hmem with rfl | hmem
            · exact hmark
            · refine absurd hcovers (hlater hmem ?_)
              have hpercent := Char.utf8Size_pos '%'
              simp only [byteLength_append, byteLength_cons]
              omega
        · rcases ih hformed.2 hnames.2 hinrest with
            ⟨inner, body, rfl, hbody, houtside⟩ |
              ⟨lexeme, hmem, inner, front, back, tail, rfl, rfl, hspelled, hplace, hfront⟩
          · refine .inl ⟨gap ++ (text ++ inner), body, by simp, hbody, ?_⟩
            have hoffset : offset + byteLength (gap ++ (text ++ inner)) =
                offset + byteLength gap + byteLength text + byteLength inner := by
              simp only [byteLength_append]
              omega
            rw [hoffset]
            intro lexeme hmem hcovers
            rcases List.mem_cons.mp hmem with rfl | hmem
            · rw [Lexeme.Covers, hspan] at hcovers
              have hstop := hcovers.2
              simp only at hstop
              omega
            · exact houtside lexeme hmem hcovers
          · refine .inr ⟨lexeme, List.mem_cons_of_mem _ hmem, gap ++ (text ++ inner), front, back,
              tail, by simp, rfl, hspelled, ?_, hfront⟩
            simpa [Nat.add_assoc] using hplace

theorem wellFormed_of_parseFormula {chemistry : Bool} {formula : String} {tree : Node}
    (hparse : parseFormula chemistry formula = .ok tree) : WellFormed (tokenize formula) := by
  obtain ⟨nodes, _, hderives⟩ := readTokens_eq_ok_iff.mp hparse
  obtain ⟨taken, htaken, hformed⟩ := hderives.wellFormedBetween
  rw [List.append_nil] at htaken
  exact htaken ▸ hformed

/-- In a formula whose lexemes are all well formed, a solid character stands in
a comment or in the spelling of a lexeme. -/
theorem inComment_or_inSpelling {formula : String}
    (hformed : WellFormed (tokenize formula))
    {before after : List Char} {c : Char} (hc : IsSolid c)
    (hformula : formula.toList = before ++ c :: after) :
    InComment 0 (tokenize formula) before ∨
      ∃ lexeme ∈ tokenize formula, InSpelling 0 lexeme before c after := by
  have hlexemes := interleaves_tokenize formula
  exact hlexemes.inComment_or_inSpelling hformed
    (fun _ hmem => Lexer.hasPlainName_of_mem_lexemes hmem) hc hformula

end FormulaMarkup
