import FormulaMarkup.FormulaConversion
import FormulaMarkup.Proofs.ComparedReadings

/-!
# Chemical notation as an option

To allow chemical notation changes nothing for formulas that do without it.
The two readings of a formula go together until the first one refuses a
command for chemical notation, and no reading gets past such a command without
the permission; so the refused command is the first one of the formula.
-/

namespace FormulaMarkup

/-- The formula is read without and with chemical notation, and the first
reading may refuse it. -/
def chemistryReading (finish : Nat) : Comparison where
  first := ⟨false, finish⟩
  second := ⟨true, finish⟩
  Loose _ := False
  Excused error := error.cause = .chemistryDisabled
  excused_of_raises := False.elim
  chemistry := .inr ⟨rfl, fun _ => rfl⟩

/-- What is read from the lexemes does not depend on the rules beyond the
reading of the nodes. -/
theorem readTokens_eq_of_readSequence
    {rules others : ReadingRules} {input : List Lexeme}
    (hsame : readSequence rules (levelWithin rules nestingLimit).primary input =
      readSequence others (levelWithin others nestingLimit).primary input) :
    readTokens rules input = readTokens others input := by
  unfold readTokens
  rw [hsame]
  rcases readSequence others (levelWithin others nestingLimit).primary input with
    error | ⟨nodes, _ | ⟨lexeme, rest⟩⟩ <;> rfl

theorem parseFormula_chemistry_eq_or
    (formula : String) :
    (∃ span, parseFormula false formula = .error ⟨span, .chemistryDisabled⟩) ∨
      parseFormula false formula = parseFormula true formula := by
  let c := chemistryReading (byteLength formula.toList)
  have hlevels := Comparison.levels_levelWithin (c := c) nestingLimit
  rcases Comparison.readSequence_eq_or_excused (c := c) rfl (fun _ => id) hlevels.primary
    (tokenize formula) with ⟨⟨span, cause⟩, herror, hread⟩ | hsame
  · obtain rfl : cause = .chemistryDisabled := herror
    exact .inl ⟨span, readTokens_eq_error_iff.mpr (.inl hread)⟩
  · exact .inr (readTokens_eq_of_readSequence hsame)

theorem eq_of_shape?_chemistry {name : String} (hshape : shape? name = some .chemistry) :
    name = "\\ce" := by
  have honly : ∀ command ∈ shapedCommands, command.2 = .chemistry → command.1 = "\\ce" := by
    decide +kernel
  obtain ⟨before, after, htable, _⟩ := List.lookup_eq_some_iff.mp hshape
  exact honly (name, .chemistry) (by simp [htable]) rfl

theorem Token.Causes.eq_command {token : Token} (hcauses : token.Causes .chemistryDisabled) :
    token = .command "\\ce" := by
  cases hcauses with
  | chemistry hshape => rw [eq_of_shape?_chemistry hshape]
  | grammatical _ hcause => cases hcause

/-- The lexeme that is refused is the first one of its kind. -/
theorem find?_of_readTokens_chemistryDisabled
    {finish : Nat} {input : List Lexeme} {span : Span}
    (hread : readTokens ⟨false, finish⟩ input = .error ⟨span, .chemistryDisabled⟩) :
    input.find? (·.token = .command "\\ce") = some ⟨.command "\\ce", span⟩ := by
  obtain ⟨rest, ⟨taken, rfl, htaken⟩, hraises⟩ := exists_raises_of_readTokens hread
  have hspan := hraises.span
  have htoken := hraises.causes.eq_command
  cases rest with
  | nil => cases htoken
  | cons lexeme rest =>
      obtain ⟨token, place⟩ := lexeme
      simp only [ReadingRules.peek] at hspan htoken
      subst hspan htoken
      refine List.find?_eq_some_iff_append.mpr ⟨by simp, taken, rest, rfl, ?_⟩
      intro earlier hearlier
      have hother : earlier.token ≠ .command "\\ce" := by
        intro hcommand
        have hallowed := htaken earlier hearlier "\\ce" hcommand (by decide +kernel)
        cases hallowed
      simp [hother]

/-- Where chemical notation is refused, it is refused at the first command for
it.  A formula for which this does not happen is read in the same way, or has
the same error at the same place, if chemical notation is allowed. -/
theorem parse_eq_of_chemistry (settings : Settings) (formula : String) :
    ((∀ span, { settings with chemistry := false }.parse formula ≠
        .error ⟨span, .chemistryDisabled⟩) →
      { settings with chemistry := true }.parse formula =
        { settings with chemistry := false }.parse formula) ∧
    ∀ span, { settings with chemistry := false }.parse formula =
        .error ⟨span, .chemistryDisabled⟩ →
      (tokenize formula).find? (·.token = .command "\\ce") =
        some ⟨.command "\\ce", span⟩ := by
  constructor
  · intro hallowed
    rcases parseFormula_chemistry_eq_or formula with ⟨span, hrefused⟩ | hsame
    · exact absurd hrefused (hallowed span)
    · exact hsame.symm
  · intro span hrefused
    exact find?_of_readTokens_chemistryDisabled hrefused

theorem parse_eq_of_chemistry_after_left :
    { chemistry := true : Settings }.parse "x^\\left\\ce" =
        { chemistry := false : Settings }.parse "x^\\left\\ce" ∧
      (tokenize "é\\sqrt\x7b\\ce x\x7d\\ce").find? (·.token = .command "\\ce") =
        some ⟨.command "\\ce", ⟨8, 11⟩⟩ := by
  have hlater : { chemistry := false : Settings }.parse "x^\\left\\ce" =
      .error ⟨⟨7, 10⟩, .delimiterMissing "\\left"⟩ := by
    with_unfolding_all rfl
  have hrefused : { chemistry := false : Settings }.parse "é\\sqrt\x7b\\ce x\x7d\\ce" =
      .error ⟨⟨8, 11⟩, .chemistryDisabled⟩ := by
    with_unfolding_all rfl
  constructor
  · apply (parse_eq_of_chemistry {} "x^\\left\\ce").1
    intro span
    rw [hlater]
    simp
  · exact (parse_eq_of_chemistry {} "é\\sqrt\x7b\\ce x\x7d\\ce").2 ⟨8, 11⟩ hrefused

end FormulaMarkup
