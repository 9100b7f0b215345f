import FormulaMarkup.Proofs.ReadPrefixes

/-!
# Progress of the lexer

The list of tokens ends with the first malformed one, but a lexer can be asked
for more.  Then it goes on from wherever the malformed token has left it, in the
middle of a name or of a text box, and with braces and environments that may be
out of step.  It makes progress from there as from anywhere else: each token
takes at least one character, until only a gap is left.  At the end the lexer
gives the same token for ever.
-/

namespace FormulaMarkup
namespace Lexer

/-- The lexers that come about by reading tokens and by asking for elements of
the list of tokens, in any order. -/
inductive Reaches (first : Lexer) : Lexer → Prop
  | here : Reaches first first
  | scan {lexer : Lexer} (hlexer : Reaches first lexer) : Reaches first lexer.scan.2
  | next {lexer : Lexer} (hlexer : Reaches first lexer) : Reaches first lexer.next?.2

/-- The lexer after this number of tokens, malformed or not. -/
def afterScans : Nat → Lexer → Lexer
  | 0, lexer => lexer
  | count + 1, lexer => afterScans count lexer.scan.2

/-- From one place to the other there is at least one character. -/
def MovesTo (lexer after : Lexer) : Prop :=
  ∃ taken, taken ≠ [] ∧ lexer.rest = taken ++ after.rest ∧
    after.position = lexer.position + byteLength taken

/-- Only a gap is left of the formula.  The next token says so, or what has been
left open, and it comes again whatever the lexer is asked for. -/
structure IsAtEnd (formula : String) (lexer : Lexer) : Prop where
  gap : IsGap [] lexer.rest
  rest : lexer.scan.2.rest = []
  position : lexer.scan.2.position = byteLength formula.toList
  lexeme : lexer.scan.1 = ⟨.endOfInput, .zeroWidth (byteLength formula.toList)⟩ ∨
    lexer.scan.1.token = .malformed .unclosedGroup ∨
    ∃ name, lexer.scan.1.token = .malformed (.unclosedEnvironment name)
  again : ∀ later, lexer.Reaches later → later.scan.1 = lexer.scan.1

variable {lexer first later : Lexer} {formula : String}

/-! ## One call -/

theorem next?_of_finished (hfinished : lexer.finished = true) : lexer.next? = (none, lexer) := by
  rw [next?, if_pos hfinished]

/-- Asking for an element does nothing behind the end of the list.  Otherwise it
reads a token, which may end the list. -/
theorem next?_cases (lexer : Lexer) :
    lexer.finished = true ∨
      lexer.scan.1.token.isLast = true ∧ lexer.next?.2 = { lexer.scan.2 with finished := true } ∨
      lexer.scan.1.token.isLast = false ∧ lexer.next? = (some lexer.scan.1, lexer.scan.2) := by
  cases hfinished : lexer.finished with
  | true => exact .inl rfl
  | false =>
      right
      cases htoken : lexer.scan.1.token <;> simp [next?, hfinished, htoken, Token.isLast]

/-- What reading a token and ending the list preserve holds of every lexer that
is reached. -/
@[elab_as_elim]
theorem Reaches.preserves {motive : Lexer → Prop}
    (hreaches : first.Reaches later) (hfirst : motive first)
    (hscan : ∀ lexer : Lexer, motive lexer → motive lexer.scan.2)
    (hfinish : ∀ lexer : Lexer, motive lexer → motive { lexer with finished := true }) :
    motive later := by
  induction hreaches with
  | here => exact hfirst
  | scan _ ih => exact hscan _ ih
  | @next lexer _ ih =>
      rcases lexer.next?_cases with hfinished | ⟨_, hlast⟩ | ⟨_, hnext⟩
      · rw [next?_of_finished hfinished]
        exact ih
      · rw [hlast]
        exact hfinish _ (hscan _ ih)
      · rw [hnext]
        exact hscan _ ih

theorem Reaches.afterScans (hreaches : first.Reaches lexer) (count : Nat) :
    first.Reaches (afterScans count lexer) := by
  induction count generalizing lexer with
  | zero => exact hreaches
  | succ count ih => exact ih hreaches.scan

/-! ## One token -/

theorem Scans.movesTo {boxed : Bool} {result : Lexeme × Lexer} (hscans : Scans boxed lexer result)
    (hopen : lexer.rest ≠ []) : lexer.MovesTo result.2 := by
  cases hscans with
  | finish hrest => exact absurd hrest hopen
  | @plain c _ hrest _ => exact ⟨[c], by simp, hrest, rfl⟩
  | openBrace hrest => exact ⟨['{'], by simp, hrest, rfl⟩
  | closeBrace hrest _ => exact ⟨['}'], by simp, hrest, rfl⟩
  | unmatchedClose hrest _ => exact ⟨['}'], by simp, hrest, rfl⟩
  | @textBox content _ _ hrest =>
      exact ⟨'{' :: content ++ ['}'], by simp, by simp [hrest], rfl⟩
  | nextRow hrest => exact ⟨['\\', '\\'], by simp, hrest, rfl⟩
  | @command word _ hrest _ _ _ => exact ⟨'\\' :: word, by simp, hrest, rfl⟩
  | @beginning gap word _ _ hrest _ _ _ =>
      exact ⟨spacedMark true gap word, by simp [spacedMark], hrest, rfl⟩
  | @ending gap word _ hrest _ _ =>
      exact ⟨spacedMark false gap word, by simp [spacedMark], hrest, rfl⟩
  | @broken _ taken _ _ hrest hne => exact ⟨taken, hne, hrest, rfl⟩
  | @nul _ _ taken _ _ hrest hne => exact ⟨taken, hne, hrest, rfl⟩

theorem Scans.finished_eq {boxed : Bool} {result : Lexeme × Lexer}
    (hscans : Scans boxed lexer result) : result.2.finished = lexer.finished := by
  cases hscans <;> rfl

theorem finished_scan (lexer : Lexer) : lexer.scan.2.finished = lexer.finished :=
  lexer.scans_scan.finished_eq

theorem movesTo_scan (hopen : lexer.skipGap.rest ≠ []) : lexer.MovesTo lexer.scan.2 := by
  obtain ⟨gap, hgap, _, hstart⟩ := lexer.exists_gap
  obtain ⟨taken, hne, hrest, hposition⟩ := lexer.scans_scan.movesTo hopen
  refine ⟨gap ++ taken, by simp [hne], ?_, ?_⟩
  · rw [hgap, List.append_assoc, ← hrest]
  · rw [hposition, byteLength_append, ← Nat.add_assoc, ← hstart]

theorem MovesTo.length_rest_lt {after : Lexer} (hmoves : lexer.MovesTo after) :
    after.rest.length < lexer.rest.length := by
  obtain ⟨taken, hne, hrest, _⟩ := hmoves
  have hpos := List.length_pos_iff.mpr hne
  rw [hrest, List.length_append]
  omega

theorem scan_of_skipGap_eq_nil (hend : lexer.skipGap.rest = []) :
    lexer.scan = (lexer.skipGap.endLexeme, { lexer.skipGap with textBoxNext := false }) := by
  simp only [scan, hend]
  rfl

theorem rest_scan_of_skipGap_eq_nil (hend : lexer.skipGap.rest = []) : lexer.scan.2.rest = [] := by
  rw [scan_of_skipGap_eq_nil hend]
  exact hend

/-- Whether or not the end is reached, a token is read where the last one ended. -/
theorem exists_taken_scan (lexer : Lexer) :
    ∃ taken, lexer.rest = taken ++ lexer.scan.2.rest ∧
      lexer.scan.2.position = lexer.position + byteLength taken := by
  by_cases hend : lexer.skipGap.rest = []
  · obtain ⟨gap, hgap, _, hposition⟩ := lexer.exists_gap
    rw [scan_of_skipGap_eq_nil hend]
    exact ⟨gap, hgap, hposition⟩
  · obtain ⟨taken, _, hrest, hposition⟩ := movesTo_scan hend
    exact ⟨taken, hrest, hposition⟩

/-! ## Runs -/

/-- Every lexer is at the end of some characters of the formula. -/
theorem Reaches.exists_passed (hreached : (start formula).Reaches lexer) :
    ∃ passed, formula.toList = passed ++ lexer.rest ∧ lexer.position = byteLength passed := by
  refine hreached.preserves ⟨[], rfl, rfl⟩ ?_ (fun _ hplace => hplace)
  rintro lexer ⟨passed, hpassed, hlength⟩
  obtain ⟨taken, hrest, hposition⟩ := lexer.exists_taken_scan
  refine ⟨passed ++ taken, ?_, ?_⟩
  · rw [hpassed, hrest, List.append_assoc]
  · rw [hposition, hlength, byteLength_append]

theorem endLexeme_cases (lexer : Lexer) :
    lexer.endLexeme = ⟨.endOfInput, .zeroWidth lexer.position⟩ ∨
      lexer.endLexeme.token = .malformed .unclosedGroup ∨
      ∃ name, lexer.endLexeme.token = .malformed (.unclosedEnvironment name) := by
  unfold endLexeme
  split
  · exact .inl rfl
  · exact .inr (.inl rfl)
  · exact .inr (.inr ⟨_, rfl⟩)
  · split
    · exact .inr (.inl rfl)
    · exact .inr (.inr ⟨_, rfl⟩)

theorem skipGap_of_rest_eq_nil (hrest : lexer.rest = []) : lexer.skipGap = lexer := by
  cases lexer
  cases hrest
  rfl

/-- At the end nothing changes any more that the last token is made of. -/
theorem Reaches.endLexeme_eq (hreaches : lexer.Reaches later) (hend : lexer.skipGap.rest = []) :
    later.skipGap.rest = [] ∧ later.skipGap.endLexeme = lexer.skipGap.endLexeme := by
  refine hreaches.preserves ⟨hend, rfl⟩ ?_ (fun _ hsame => hsame)
  rintro middle ⟨hrest, hsame⟩
  rw [skipGap_of_rest_eq_nil (rest_scan_of_skipGap_eq_nil hrest), scan_of_skipGap_eq_nil hrest]
  exact ⟨hrest, hsame⟩

theorem isAtEnd_of_skipGap (hreached : (start formula).Reaches lexer)
    (hend : lexer.skipGap.rest = []) : lexer.IsAtEnd formula := by
  obtain ⟨gap, hgap, hisGap, _⟩ := lexer.exists_gap
  obtain ⟨passed, hpassed, hlength⟩ := hreached.scan.exists_passed
  have hscan := scan_of_skipGap_eq_nil hend
  have hrest := rest_scan_of_skipGap_eq_nil hend
  have hposition : lexer.scan.2.position = byteLength formula.toList := by
    rw [hlength, hpassed, hrest, List.append_nil]
  refine ⟨?_, hrest, hposition, ?_, ?_⟩
  · rw [hgap, hend, List.append_nil]
    rwa [hend] at hisGap
  · rw [← hposition, hscan]
    exact lexer.skipGap.endLexeme_cases
  · intro later hreaches
    obtain ⟨hlater, hsame⟩ := hreaches.endLexeme_eq hend
    rw [hscan, scan_of_skipGap_eq_nil hlater]
    exact hsame

/-- There are at most as many tokens as characters before the end. -/
theorem skipGap_afterScans {count : Nat} (hcount : lexer.rest.length ≤ count) :
    (afterScans count lexer).skipGap.rest = [] := by
  induction count generalizing lexer with
  | zero =>
      have hrest : lexer.rest = [] := List.eq_nil_of_length_eq_zero (Nat.le_zero.mp hcount)
      rw [afterScans, skipGap_of_rest_eq_nil hrest, hrest]
  | succ count ih =>
      apply ih
      by_cases hend : lexer.skipGap.rest = []
      · rw [rest_scan_of_skipGap_eq_nil hend]
        exact Nat.zero_le count
      · have hlt := (movesTo_scan hend).length_rest_lt
        omega

/-- Once the list of tokens has ended, no call begins it again. -/
theorem next?_eq_none_of_reaches (hfinished : first.finished = true)
    (hreaches : first.Reaches later) : later.next?.1 = none := by
  have hlater : later.finished = true := by
    refine hreaches.preserves hfinished ?_ (fun _ _ => rfl)
    intro lexer hlexer
    rw [finished_scan, hlexer]
  rw [next?_of_finished hlater]

theorem finished_next? (hlast : lexer.next?.1 = none ∨
    ∃ lexeme fault, lexer.next?.1 = some lexeme ∧ lexeme.token = .malformed fault) :
    lexer.next?.2.finished = true := by
  rcases lexer.next?_cases with hfinished | ⟨_, hends⟩ | ⟨hgoes, hnext⟩
  · rw [next?_of_finished hfinished]
    exact hfinished
  · rw [hends]
  · rw [hnext] at hlast
    rcases hlast with hnone | ⟨lexeme, fault, hsome, htoken⟩
    · cases hnone
    · cases hsome
      rw [htoken] at hgoes
      cases hgoes

/-- However a lexer has been used, it is somewhere in its formula, and the next
token takes at least one character unless only a gap is left.  The end is
reached after no more tokens than there are characters, and it is final; so is
the end of the list of tokens. -/
theorem lexer_progress (hreached : (start formula).Reaches lexer) :
    (∃ passed, formula.toList = passed ++ lexer.rest ∧ lexer.position = byteLength passed) ∧
      (¬ IsGap [] lexer.rest ∧ lexer.MovesTo lexer.scan.2 ∨ lexer.IsAtEnd formula) ∧
      (∀ count, formula.length ≤ count → (afterScans count lexer).IsAtEnd formula) ∧
      ((lexer.next?.1 = none ∨
          ∃ lexeme fault, lexer.next?.1 = some lexeme ∧ lexeme.token = .malformed fault) →
        ∀ later, lexer.next?.2.Reaches later → later.next?.1 = none) := by
  have hplace := hreached.exists_passed
  refine ⟨hplace, ?_, ?_, ?_⟩
  · by_cases hend : lexer.skipGap.rest = []
    · exact .inr (isAtEnd_of_skipGap hreached hend)
    · refine .inl ⟨fun hgap => hend ?_, movesTo_scan hend⟩
      have hsplit := hgap.splitGap_append (by simp)
      rw [List.append_nil] at hsplit
      rw [skipGap, rest_advance, hsplit]
  · intro count hcount
    refine isAtEnd_of_skipGap (hreached.afterScans count) (skipGap_afterScans ?_)
    obtain ⟨passed, hpassed, _⟩ := hplace
    rw [← String.length_toList, hpassed, List.length_append] at hcount
    omega
  · intro hlast later hreaches
    exact next?_eq_none_of_reaches (finished_next? hlast) hreaches

/-- A null character behind a backslash ends the list of tokens and is left in
place.  Read on its own it is malformed once more, and then comes a brace that is
not closed. -/
theorem lexer_progress_past_null :
    (start "\\\x00\x7b%").Reaches (start "\\\x00\x7b%").next?.2.scan.2 ∧
      (start "\\\x00\x7b%").next?.2.scan.2.rest = ['{', '%'] ∧
      (start "\\\x00\x7b%").next?.2.scan.2.next?.1 = none ∧
      (afterScans 4 (start "\\\x00\x7b%").next?.2.scan.2).IsAtEnd "\\\x00\x7b%" := by
  have hreached : (start "\\\x00\x7b%").Reaches (start "\\\x00\x7b%").next?.2.scan.2 :=
    .scan (.next .here)
  have hnull : (start "\\\x00\x7b%").next?.1 =
      some ⟨.malformed (.disallowedCharacter '\x00'), ⟨1, 2⟩⟩ := by
    decide +kernel
  obtain ⟨_, _, _, hlist⟩ := lexer_progress (.here : (start "\\\x00\x7b%").Reaches _)
  obtain ⟨_, _, hend, _⟩ := lexer_progress hreached
  exact ⟨hreached, by decide +kernel, hlist (.inr ⟨_, _, hnull, rfl⟩) _ (.scan .here),
    hend 4 (by decide)⟩

end Lexer
end FormulaMarkup
