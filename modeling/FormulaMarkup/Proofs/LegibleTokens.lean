import FormulaMarkup.Proofs.LexemeRuns

/-!
# The tokens of a formula

A token that came out of one formula comes out again wherever its characters
are written.  So nothing has to be known about a formula to write down what was
read in it: a digit is a digit everywhere, the name of a control sequence ends
where it ended before, and the content of a text box is closed by the first
brace after it.
-/

namespace FormulaMarkup

/-- A token that comes out again wherever it is written. -/
def Token.IsLegible : Token → Prop
  | .digit c => IsPlain c ∧ characterToken c = .digit c
  | .letter c => IsPlain c ∧ characterToken c = .letter c
  | .symbol c => IsPlain c ∧ characterToken c = .symbol c
  | .command name => IsCommand name
  | .rawText content => Lexer.IsBoxContent content.toList
  | _ => True

/-- The characters after a gap, if there are any, begin with a visible one. -/
theorem splitGap_rest_head
    (inComment : Bool) {cs rest : List Char} {c : Char}
    (hrest : (splitGap inComment cs).2 = c :: rest) :
    isBlank c = false ∧ c ≠ '%' := by
  induction cs generalizing inComment with
  | nil => simp [splitGap] at hrest
  | cons d after ih =>
      simp only [splitGap] at hrest
      split at hrest
      · exact ih _ hrest
      · next hvisible =>
          cases hrest
          simp only [Bool.or_eq_true, beq_iff_eq, not_or, Bool.not_eq_true] at hvisible
          exact ⟨hvisible.1.2, hvisible.2⟩

/-- A character that begins no pair and is no backslash at the end is no backslash. -/
theorem ne_backslash_of_cases {c : Char} {rest : List Char}
    (hlast : c = '\\' → rest = [] → False)
    (hhidden : ∀ hidden others, c = '\\' → rest = hidden :: others → False) : c ≠ '\\' := by
  intro hslash
  cases rest with
  | nil => exact hlast hslash rfl
  | cons hidden others => exact hhidden hidden others hslash rfl

theorem splitTextBox_cons
    {depth : Nat} {c : Char} {rest : List Char} (hslash : c ≠ '\\') :
    splitTextBox depth (c :: rest) =
      if c = '\x00' then ([], .disallowed, rest)
      else if c = '}' ∧ depth = 0 then ([], .closed, rest)
      else
        let inner := if c = '{' then depth + 1 else if c = '}' then depth - 1 else depth
        (c :: (splitTextBox inner rest).1, (splitTextBox inner rest).2) := by
  rw [splitTextBox]
  · exact fun h => absurd h hslash
  · exact fun _ _ h => absurd h hslash

/-- A text box that is closed is closed by the same brace whatever comes after it. -/
theorem splitTextBox_closed
    {depth : Nat} {cs content rest : List Char}
    (hsplit : splitTextBox depth cs = (content, .closed, rest)) (suffix : List Char) :
    splitTextBox depth (content ++ '}' :: suffix) = (content, .closed, suffix) := by
  fun_induction splitTextBox depth cs generalizing content rest with
  | case1 => simp at hsplit
  | case2 => simp at hsplit
  | case3 depth hidden after inner outcome tail hinner ih =>
      simp only [Prod.mk.injEq] at hsplit
      obtain ⟨rfl, rfl, rfl⟩ := hsplit
      simp [splitTextBox, ih hinner]
  | case4 => simp at hsplit
  | case5 depth c after _ _ _ hclose =>
      cases hsplit
      simp [splitTextBox, hclose.2]
  | case6 depth c after hlast hhidden hnul hclose inner held outcome tail hinner =>
      rename_i ih
      have hslash : c ≠ '\\' := ne_backslash_of_cases hlast hhidden
      simp only [Prod.mk.injEq] at hsplit
      obtain ⟨rfl, rfl, rfl⟩ := hsplit
      rw [List.cons_append, splitTextBox_cons hslash, if_neg hnul, if_neg hclose]
      have hheld := ih hinner
      simp only [inner] at hheld
      simp only [hheld]

theorem isCommandName_of_splitControlName
    {c : Char} {rest word after : List Char}
    (hsplit : splitControlName (c :: rest) = (word, after))
    (hslash : c ≠ '\\') (hnul : c ≠ '\x00')
    (hbegin : String.ofList ('\\' :: word) ≠ "\\begin")
    (hend : String.ofList ('\\' :: word) ≠ "\\end") :
    IsCommandName word := by
  have hletters : ∀ d ∈ (c :: rest).takeWhile Char.isAlpha, d.isAlpha = true := by
    intro d hd
    exact List.all_eq_true.mp List.all_takeWhile d hd
  unfold splitControlName at hsplit
  simp only at hsplit
  split at hsplit
  · next hword =>
      cases hsplit
      have hletter : c.isAlpha = false := by
        cases halpha : c.isAlpha with
        | false => rfl
        | true => simp [halpha] at hword
      exact .symbol hletter hslash hnul
  · next hword =>
      split at hsplit
      · next hstar =>
          cases hsplit
          exact .starred hletters hword hstar.2
      · cases hsplit
        refine .word hletters hword ?_ ?_
        · intro hletters
          exact hbegin (by rw [hletters]; rfl)
        · intro hletters
          exact hend (by rw [hletters]; rfl)

namespace Lexer

theorem isLegible_endLexeme (lexer : Lexer) : lexer.endLexeme.token.IsLegible := by
  unfold endLexeme
  repeat' split
  all_goals trivial

theorem isLegible_scanTextBox (lexer : Lexer) (after : List Char) :
    (lexer.scanTextBox after).1.token.IsLegible := by
  unfold scanTextBox
  split
  · next content rest hsplit =>
      intro suffix
      simpa using splitTextBox_closed hsplit suffix
  · trivial
  · trivial

theorem isLegible_scanEnvironment (lexer : Lexer) (begins : Bool) (start : Nat) :
    (lexer.scanEnvironment begins start).1.token.IsLegible := by
  unfold scanEnvironment
  simp only
  split
  · trivial
  · split <;> trivial

theorem isLegible_scanControl (lexer : Lexer) (after : List Char) :
    (lexer.scanControl after).1.token.IsLegible := by
  unfold scanControl
  split
  · trivial
  · trivial
  · trivial
  · next cs hnil hnul hslash =>
      simp only
      split
      · exact isLegible_scanEnvironment _ _ _
      · next hbegin =>
          split
          · exact isLegible_scanEnvironment _ _ _
          · next hend =>
              cases after with
              | nil => exact absurd rfl hnil
              | cons c rest =>
                  refine ⟨_, rfl, isCommandName_of_splitControlName rfl ?_ ?_ hbegin hend⟩
                  · rintro rfl
                    exact hslash rest rfl
                  · rintro rfl
                    exact hnul rest rfl

theorem isLegible_characterToken {c : Char} (hplain : IsPlain c) :
    (characterToken c).IsLegible := by
  by_cases hscript : c = '^' ∨ c = '_' ∨ c = '&'
  · rcases hscript with rfl | rfl | rfl <;> trivial
  · simp only [not_or] at hscript
    obtain ⟨hover, hunder, hcell⟩ := hscript
    by_cases hdigit : c.isDigit = true
    · have htoken : characterToken c = .digit c := by
        simp [characterToken, hover, hunder, hcell, hdigit]
      rw [htoken]
      exact ⟨hplain, htoken⟩
    · by_cases hletter : isAlphabetic c = true
      · have htoken : characterToken c = .letter c := by
          simp [characterToken, hover, hunder, hcell, hdigit, hletter]
        rw [htoken]
        exact ⟨hplain, htoken⟩
      · have htoken : characterToken c = .symbol c := by
          simp [characterToken, hover, hunder, hcell, hdigit, hletter]
        rw [htoken]
        exact ⟨hplain, htoken⟩

theorem isLegible_scanCharacter
    (lexer : Lexer) {c : Char} (after : List Char)
    (hblank : isBlank c = false) (hpercent : c ≠ '%') (hslash : c ≠ '\\') :
    (lexer.scanCharacter c after).1.token.IsLegible := by
  by_cases hnul : c = '\x00'
  · subst hnul
    trivial
  by_cases hopen : c = '{'
  · subst hopen
    trivial
  by_cases hclose : c = '}'
  · subst hclose
    simp only [scanCharacter]
    split <;> trivial
  have hplain : IsPlain c := ⟨hblank, by simp [*]⟩
  rw [scanCharacter_of_isPlain lexer after hplain]
  exact isLegible_characterToken hplain

theorem isLegible_scan (lexer : Lexer) : lexer.scan.1.token.IsLegible := by
  unfold scan
  simp only
  split
  · exact isLegible_endLexeme _
  · next c after hrest =>
      obtain ⟨hblank, hpercent⟩ := splitGap_rest_head false hrest
      split
      · exact isLegible_scanTextBox _ _
      · split
        · exact isLegible_scanControl _ _
        · next hslash =>
            exact isLegible_scanCharacter _ _ hblank hpercent (by simpa using hslash)

theorem isLegible_of_mem_lexemes
    {lexer : Lexer} {lexeme : Lexeme} (hlexeme : lexeme ∈ lexer.lexemes) :
    lexeme.token.IsLegible := by
  induction hlength : lexer.rest.length using Nat.strongRecOn generalizing lexer with
  | ind size ih =>
      subst hlength
      rw [lexemes_eq] at hlexeme
      split at hlexeme
      · split at hlexeme
        · simp at hlexeme
        · obtain rfl := List.mem_singleton.mp hlexeme
          exact isLegible_scan lexer
      · next hlast =>
          rcases List.mem_cons.mp hlexeme with rfl | hrest
          · exact isLegible_scan lexer
          · exact ih _ (lexer.length_rest_scan_lt (by simpa using hlast)) hrest rfl

end Lexer
end FormulaMarkup
