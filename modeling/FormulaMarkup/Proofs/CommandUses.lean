import FormulaMarkup.Proofs.CharacterPlaces
import FormulaMarkup.Proofs.LocatedErrors

/-!
# Uses of a command

An error of the layout names a command, and its place is the first one where the
text of that command stands.  A use of a command is a token.  The first place of
the text need not be a use: the text may stand in a comment or in a text box, it
may be made of the second backslash of a row break and the letters after it, or
it may be all but the asterisk of a starred command.  These are the only ways in
which the text of a command stands where it is not used.
-/

namespace FormulaMarkup

/-! ## Where names end -/

theorem toNat_of_isAlpha {c : Char} (hletter : c.isAlpha = true) :
    65 ≤ c.toNat ∧ c.toNat ≤ 122 := by
  rcases Bool.or_eq_true_iff.mp hletter with hupper | hlower
  · have hrange : 65 ≤ c.toNat ∧ c.toNat ≤ 90 := of_decide_eq_true hupper
    omega
  · obtain ⟨hstart, hstop⟩ := Bool.and_eq_true_iff.mp hlower
    have hrange : 97 ≤ c.toNat ∧ c.toNat ≤ 122 :=
      ⟨of_decide_eq_true hstart, of_decide_eq_true hstop⟩
    omega

theorem isBlank_eq_false_of_isAlpha {c : Char} (hletter : c.isAlpha = true) :
    isBlank c = false := by
  have hrange := toNat_of_isAlpha hletter
  rw [isBlank, blankRanges, CharacterRanges.covers_cons, if_neg (by omega), if_neg (by omega),
    CharacterRanges.covers_cons, if_neg (by omega), if_neg (by omega),
    CharacterRanges.covers_cons_of_lt (by omega)]

/-- No name goes on in the gap before an opening brace. -/
theorem IsGap.stopsName {after gap : List Char} (hgap : IsGap ('{' :: after) gap) :
    StopsName (gap ++ '{' :: after) := by
  cases hgap with
  | nothing => exact stopsName_brace after
  | @blank c rest hblank _ =>
      intro d hd
      cases hd
      constructor
      · cases hletter : c.isAlpha with
        | false => rfl
        | true =>
            rw [isBlank_eq_false_of_isAlpha hletter] at hblank
            cases hblank
      · rintro rfl
        revert hblank
        decide
  | comment _ _ _ =>
      intro d hd
      cases hd
      decide

namespace Lexer

end Lexer

/-! ## The text of a command -/

end FormulaMarkup
