import FormulaMarkup.Proofs.InterleavedTokens
import FormulaMarkup.Proofs.NamedFailures

/-!
# Where errors are

The place of an error is a text of the formula.  An error of the reader is
about a lexeme or about the end of the formula, and the lexer keeps only
offsets that it has seen: of the characters it takes, of the braces and of the
environments that are open.  An error of the layout is given the first place
at which its command can be found, and there is one, since the command is a
token of the formula.
-/

namespace FormulaMarkup

/-- The span is the place of a text among the characters. -/
def Span.IsIn (span : Span) (cs : List Char) : Prop :=
  ∃ before text after, cs = before ++ (text ++ after) ∧ span = textSpan before text

theorem Span.IsIn.le {span : Span} {cs : List Char} (hspan : span.IsIn cs) :
    span.start ≤ span.stop ∧ span.stop ≤ byteLength cs := by
  obtain ⟨before, text, after, rfl, rfl⟩ := hspan
  simp only [textSpan, byteLength_append]
  omega

/-! ## The spans of lexemes -/

/-- The lexer is inside these characters, and what it has seen open is there. -/
structure Lexer.ReadsIn (cs : List Char) (lexer : Lexer) : Prop where
  place : ∃ before, cs = before ++ lexer.rest ∧ lexer.position = byteLength before
  groups : ∀ offset ∈ lexer.openGroups, Span.IsIn ⟨offset, offset + 1⟩ cs
  environments : ∀ opened ∈ lexer.openEnvironments, opened.2.IsIn cs

namespace Lexer

variable {cs : List Char} {lexer : Lexer}

theorem ReadsIn.isIn (hlexer : lexer.ReadsIn cs) {skipped text after : List Char}
    (hrest : lexer.rest = skipped ++ (text ++ after)) :
    Span.IsIn ⟨lexer.position + byteLength skipped,
      lexer.position + byteLength skipped + byteLength text⟩ cs := by
  obtain ⟨before, rfl, hposition⟩ := hlexer.place
  refine ⟨before ++ skipped, text, after, by simp [hrest], ?_⟩
  simp [textSpan, hposition]

theorem ReadsIn.advance (hlexer : lexer.ReadsIn cs) {taken rest : List Char}
    (hrest : lexer.rest = taken ++ rest) : (lexer.advance taken rest).ReadsIn cs := by
  obtain ⟨before, hbefore, hposition⟩ := hlexer.place
  refine ⟨⟨before ++ taken, ?_, ?_⟩, hlexer.groups, hlexer.environments⟩
  · rw [hbefore, hrest, List.append_assoc]
    rfl
  · simp [hposition]

/-- The place of characters that come next. -/
theorem ReadsIn.isIn_here (hlexer : lexer.ReadsIn cs) {text after : List Char}
    (hrest : lexer.rest = text ++ after) :
    Span.IsIn ⟨lexer.position, lexer.position + byteLength text⟩ cs := by
  have hnothing : lexer.rest = [] ++ (text ++ after) := hrest
  simpa using hlexer.isIn hnothing

theorem ReadsIn.emit (hlexer : lexer.ReadsIn cs) {token : Token} {taken rest : List Char}
    (hrest : lexer.rest = taken ++ rest) :
    (lexer.emit token taken rest).1.span.IsIn cs ∧ (lexer.emit token taken rest).2.ReadsIn cs :=
  ⟨hlexer.isIn_here hrest, hlexer.advance hrest⟩

theorem ReadsIn.endLexeme (hlexer : lexer.ReadsIn cs) : lexer.endLexeme.span.IsIn cs := by
  have hnothing : lexer.rest = [] ++ lexer.rest := rfl
  have hend := hlexer.isIn_here hnothing
  have hgroups := hlexer.groups
  have henvironments := hlexer.environments
  unfold Lexer.endLexeme
  split
  · exact hend
  · next group _ hopen _ => exact hgroups group (by simp [hopen])
  · next name span outer _ hopen => exact henvironments (name, span) (by simp [hopen])
  · next group _ name span _ hgroup henvironment =>
      split
      · exact hgroups group (by simp [hgroup])
      · exact henvironments (name, span) (by simp [henvironment])

theorem ReadsIn.skipGap (hlexer : lexer.ReadsIn cs) :
    ({ lexer.skipGap with textBoxNext := false }).ReadsIn cs := by
  have hgap := hlexer.advance (splitGap_append false lexer.rest).symm
  exact ⟨hgap.place, hgap.groups, hgap.environments⟩

end Lexer

end FormulaMarkup
