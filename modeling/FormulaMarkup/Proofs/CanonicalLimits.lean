import FormulaMarkup.Proofs.CanonicalReading
import FormulaMarkup.Proofs.ComparedReadings

/-!
# Canonical texts and the limit of nesting

The canonical text of a formula has braces that the formula need not have, so
it may be too deep where the formula is not.  Nothing else can go wrong for
want of depth: a text that could be read with more depth is read in the same
way, or it is refused because it is nested too deep.
-/

namespace FormulaMarkup

/-! ## The same lexemes at two depths -/

/-- Both readings have the same lexemes, and the first one may reach the limit
where the second one does not. -/
def deeperReading (rules : ReadingRules) : Comparison where
  first := rules
  second := rules
  Loose _ := False
  Excused error := error.cause = .limitExceeded
  excused_of_raises := False.elim
  chemistry := .inl rfl

/-- With more depth a reading has the same result, unless it reached the limit. -/
theorem readSequence_levelWithin_of_le
    (rules : ReadingRules) (input : List Lexeme) {depth greater : Nat} (hle : depth ≤ greater) :
    (∃ span, readSequence rules (levelWithin rules depth).primary input =
      .error ⟨span, .limitExceeded⟩) ∨
    readSequence rules (levelWithin rules depth).primary input =
      readSequence rules (levelWithin rules greater).primary input := by
  have hlevels := Comparison.levels_levelWithin_of_le (c := deeperReading rules)
    (fun _ => rfl) hle
  rcases Comparison.readSequence_eq_or_excused (c := deeperReading rules) rfl (fun _ => id)
    hlevels.primary input with ⟨error, herror, hread⟩ | hsame
  · obtain ⟨span, cause⟩ := error
    obtain rfl : cause = .limitExceeded := herror
    exact .inl ⟨span, hread⟩
  · exact .inr hsame

/-- What is derived at any depth is what is read, unless the limit is reached. -/
theorem parseFormula_of_derives
    {chemistry : Bool} {formula : String} {depth : Nat} {nodes : List Node}
    (hderives : Derives chemistry depth (.sequence nodes) (tokenize formula) []) :
    parseFormula chemistry formula = .ok (.sequence false nodes) ∨
      ∃ span, parseFormula chemistry formula = .error ⟨span, .limitExceeded⟩ := by
  let rules : ReadingRules := ⟨chemistry, byteLength formula.toList⟩
  have hread : readSequence rules (levelWithin rules depth).primary (tokenize formula) =
      .ok (nodes, []) :=
    (readSequence_eq_ok_iff rules (readsDepth_levelWithin rules depth).primary).mpr hderives
  have hok (hlimit : readSequence rules (levelWithin rules nestingLimit).primary
      (tokenize formula) = .ok (nodes, [])) :
      parseFormula chemistry formula = .ok (.sequence false nodes) := by
    unfold parseFormula readTokens
    rw [hlimit]
  rcases Nat.le_total depth nestingLimit with hle | hle
  · left
    rcases readSequence_levelWithin_of_le rules (tokenize formula) hle with ⟨span, hlimit⟩ | hsame
    · rw [hlimit] at hread
      cases hread
    · exact hok (hsame.symm.trans hread)
  · rcases readSequence_levelWithin_of_le rules (tokenize formula) hle with ⟨span, hlimit⟩ | hsame
    · exact .inr ⟨span, readTokens_eq_error_iff.mpr (.inl hlimit)⟩
    · exact .inl (hok (hsame.trans hread))

/-- The canonical text of nodes that were derived from rewritable lexemes. -/
theorem Derives.tokenize_canonicalText
    {chemistry : Bool} {depth enough : Nat} {nodes : List Node} {input : List Lexeme}
    (hderives : Derives chemistry depth (.sequence nodes) input []) (hinput : Rewritable input)
    (hfits : ∀ node ∈ nodes, node.Fits enough) :
    Derives chemistry enough (.sequence (nodes.map Node.braceScripts))
      (tokenize (Node.sequence false nodes).canonicalText) [] := by
  have hreturns := hderives.returns hinput enough hfits
  rw [← Node.written_sequence] at hreturns
  have hread := Spells.tokenize hreturns [] (by simp [AtSequenceEnd])
  simpa using hread.1

end FormulaMarkup
