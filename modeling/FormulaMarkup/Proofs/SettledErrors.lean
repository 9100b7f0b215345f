import FormulaMarkup.Proofs.ComparedReadings
import FormulaMarkup.Proofs.LexerSteps

/-!
# Errors that no later text changes

A formula is compared with the same formula followed by further text.  As long
as a token leaves a character unread, it is the same token with the same span
in both: names, gaps, stars and text boxes all end at a character that is
already there.  A token that leaves nothing unread ends where the formula ends,
or it says that something is still open.  So the lexemes of the two formulas
agree up to such a token, and an error that is about an earlier one is the
error of both.
-/

namespace FormulaMarkup

/-! ## Splits of a longer text -/

theorem takeWhile_append_of_dropWhile
    {p : Char → Bool} {cs : List Char} (hrest : cs.dropWhile p ≠ []) (tail : List Char) :
    (cs ++ tail).takeWhile p = cs.takeWhile p ∧
      (cs ++ tail).dropWhile p = cs.dropWhile p ++ tail := by
  induction cs with
  | nil => exact absurd rfl hrest
  | cons c rest ih =>
      by_cases hc : p c = true
      · have hrest : rest.dropWhile p ≠ [] := by simpa [hc] using hrest
        simpa [hc] using ih hrest
      · simp [hc]

theorem splitGap_append_right
    {inComment : Bool} {cs : List Char} (hrest : (splitGap inComment cs).2 ≠ [])
    (tail : List Char) :
    splitGap inComment (cs ++ tail) =
      ((splitGap inComment cs).1, (splitGap inComment cs).2 ++ tail) := by
  induction cs generalizing inComment with
  | nil => exact absurd rfl hrest
  | cons c rest ih =>
      rw [List.cons_append]
      simp only [splitGap] at hrest ⊢
      split
      · next hgap =>
          rw [if_pos hgap] at hrest
          rw [ih hrest]
      · rfl

theorem splitControlName_append_of_dropWhile
    {cs : List Char} (hafter : cs.dropWhile Char.isAlpha ≠ []) (tail : List Char) :
    splitControlName (cs ++ tail) =
      ((splitControlName cs).1, (splitControlName cs).2 ++ tail) := by
  obtain ⟨htake, hdrop⟩ := takeWhile_append_of_dropWhile hafter tail
  have hhead : (cs.dropWhile Char.isAlpha ++ tail).head? = (cs.dropWhile Char.isAlpha).head? := by
    obtain ⟨c, after, hcons⟩ := List.exists_cons_of_ne_nil hafter
    rw [hcons]
    rfl
  have htail : (cs.dropWhile Char.isAlpha ++ tail).tail =
      (cs.dropWhile Char.isAlpha).tail ++ tail := List.tail_append_of_ne_nil hafter
  unfold splitControlName
  simp only [htake, hdrop, hhead, htail]
  split
  · cases cs with
    | nil => exact absurd rfl hafter
    | cons first others => simp
  · split <;> rfl

theorem splitControlName_append_right
    {cs : List Char} (hrest : (splitControlName cs).2 ≠ []) (tail : List Char) :
    splitControlName (cs ++ tail) =
      ((splitControlName cs).1, (splitControlName cs).2 ++ tail) := by
  apply splitControlName_append_of_dropWhile
  intro hnil
  have hword : cs.takeWhile Char.isAlpha = cs := by
    simpa [hnil] using List.takeWhile_append_dropWhile (p := Char.isAlpha) (l := cs)
  apply hrest
  unfold splitControlName
  simp only [hword, hnil]
  split
  · next hcs => simp [hcs]
  · simp

theorem splitEnvironmentName_append_right
    {cs : List Char} (hrest : (splitEnvironmentName cs).2.2 ≠ []) (tail : List Char) :
    splitEnvironmentName (cs ++ tail) =
      ((splitEnvironmentName cs).1, (splitEnvironmentName cs).2.1,
        (splitEnvironmentName cs).2.2 ++ tail) := by
  cases cs with
  | nil => exact absurd rfl hrest
  | cons first after =>
      by_cases hbrace : first = '{'
      · subst hbrace
        have hafter : after.dropWhile isEnvironmentNameCharacter ≠ [] := by
          intro hnil
          apply hrest
          simp [splitEnvironmentName, hnil]
        obtain ⟨htake, hdrop⟩ := takeWhile_append_of_dropWhile hafter tail
        obtain ⟨c, others, hcons⟩ := List.exists_cons_of_ne_nil hafter
        simp only [List.cons_append, splitEnvironmentName, htake, hdrop, hcons]
      · rw [List.cons_append, splitEnvironmentName, splitEnvironmentName]
        · rfl
        · simp [hbrace]
        · simp [hbrace]

theorem splitTextBox_append_right
    {depth : Nat} {cs : List Char} (hrest : (splitTextBox depth cs).2.2 ≠ [])
    (tail : List Char) :
    splitTextBox depth (cs ++ tail) =
      ((splitTextBox depth cs).1, (splitTextBox depth cs).2.1,
        (splitTextBox depth cs).2.2 ++ tail) := by
  fun_induction splitTextBox depth cs with
  | case1 => exact absurd rfl hrest
  | case2 => exact absurd rfl hrest
  | case3 depth hidden rest content outcome after hsplit ih =>
      rw [hsplit] at ih
      simp [splitTextBox, ih hrest]
  | case4 depth rest => simp [splitTextBox]
  | case5 depth c rest hlast hhidden hnul hclose => simp [splitTextBox, hclose.1, hclose.2]
  | case6 depth c rest hlast hhidden hnul hclose inner content outcome after hsplit ih =>
      have hslash : c ≠ '\\' := ne_backslash_of_cases hlast hhidden
      rw [hsplit] at ih
      rw [List.cons_append, splitTextBox_cons hslash, if_neg hnul, if_neg hclose]
      have hinner := ih hrest
      simp only [inner] at hinner
      simp only [hinner]

namespace Lexer

/-! ## One token of a longer text -/

/-- The same lexer with more characters to come. -/
def extend (lexer : Lexer) (tail : List Char) : Lexer :=
  { lexer with rest := lexer.rest ++ tail }

/-- The byte offset of the end of the formula. -/
def finish (lexer : Lexer) : Nat := lexer.position + byteLength lexer.rest

theorem skipGap_extend {lexer : Lexer} (hrest : lexer.skipGap.rest ≠ []) (tail : List Char) :
    (lexer.extend tail).skipGap = lexer.skipGap.extend tail := by
  have hgap := splitGap_append_right hrest tail
  unfold skipGap extend
  simp only [hgap]
  rfl

theorem scanCharacter_extend (lexer : Lexer) (c : Char) (rest tail : List Char) :
    (lexer.extend tail).scanCharacter c (rest ++ tail) =
      ((lexer.scanCharacter c rest).1, (lexer.scanCharacter c rest).2.extend tail) := by
  unfold scanCharacter
  split
  all_goals first | rfl | skip
  · have hgroups : (lexer.extend tail).openGroups = lexer.openGroups := rfl
    rw [hgroups]
    cases lexer.openGroups <;> rfl
  · by_cases hdigit : c.isDigit = true
    · simp only [hdigit, if_true]
      rfl
    · by_cases hletter : isAlphabetic c = true
      · simp only [hdigit, hletter, Bool.false_eq_true, if_true, if_false]
        rfl
      · simp only [hdigit, hletter, Bool.false_eq_true, if_false]
        rfl

theorem scanTextBox_extend_of_split
    {lexer : Lexer} {after tail : List Char}
    (hsplit : splitTextBox 0 (after ++ tail) =
      ((splitTextBox 0 after).1, (splitTextBox 0 after).2.1, (splitTextBox 0 after).2.2 ++ tail)) :
    (lexer.extend tail).scanTextBox (after ++ tail) =
      ((lexer.scanTextBox after).1, (lexer.scanTextBox after).2.extend tail) := by
  unfold scanTextBox
  rw [hsplit]
  rcases splitTextBox 0 after with ⟨content, outcome, rest⟩
  cases outcome <;> rfl

theorem scanTextBox_extend
    {lexer : Lexer} {after : List Char} (hrest : (lexer.scanTextBox after).2.rest ≠ [])
    (tail : List Char) :
    (lexer.extend tail).scanTextBox (after ++ tail) =
      ((lexer.scanTextBox after).1, (lexer.scanTextBox after).2.extend tail) := by
  have hsplit : (splitTextBox 0 after).2.2 ≠ [] := by
    unfold scanTextBox at hrest
    split at hrest <;> next hcase => simpa [hcase] using hrest
  exact scanTextBox_extend_of_split (splitTextBox_append_right hsplit tail)

theorem scanEnvironment_extend_of_split
    {lexer : Lexer} {begins : Bool} {start : Nat} {tail : List Char}
    (hgap : lexer.skipGap.rest ≠ [])
    (hsplit : splitEnvironmentName (lexer.skipGap.rest ++ tail) =
      ((splitEnvironmentName lexer.skipGap.rest).1, (splitEnvironmentName lexer.skipGap.rest).2.1,
        (splitEnvironmentName lexer.skipGap.rest).2.2 ++ tail)) :
    (lexer.extend tail).scanEnvironment begins start =
      ((lexer.scanEnvironment begins start).1,
        (lexer.scanEnvironment begins start).2.extend tail) := by
  unfold scanEnvironment
  rw [skipGap_extend hgap tail]
  simp only [extend, hsplit]
  rcases splitEnvironmentName lexer.skipGap.rest with ⟨_ | word, taken, rest⟩
  · rfl
  · cases begins <;> rfl

theorem scanEnvironment_extend
    {lexer : Lexer} {begins : Bool} {start : Nat}
    (hrest : (lexer.scanEnvironment begins start).2.rest ≠ []) (tail : List Char) :
    (lexer.extend tail).scanEnvironment begins start =
      ((lexer.scanEnvironment begins start).1,
        (lexer.scanEnvironment begins start).2.extend tail) := by
  have hname : (splitEnvironmentName lexer.skipGap.rest).2.2 ≠ [] := by
    unfold scanEnvironment at hrest
    simp only at hrest
    split at hrest
    · exact hrest
    · split at hrest <;> exact hrest
  have hgap : lexer.skipGap.rest ≠ [] := by
    intro hnil
    rw [hnil] at hname
    exact hname rfl
  exact scanEnvironment_extend_of_split hgap (splitEnvironmentName_append_right hname tail)

theorem scanControl_extend
    {lexer : Lexer} {after : List Char} (hrest : (lexer.scanControl after).2.rest ≠ [])
    (tail : List Char) :
    (lexer.extend tail).scanControl (after ++ tail) =
      ((lexer.scanControl after).1, (lexer.scanControl after).2.extend tail) := by
  cases after with
  | nil => exact absurd rfl hrest
  | cons c cs =>
      rw [List.cons_append]
      by_cases hnul : c = '\x00'
      · subst hnul
        rfl
      by_cases hslash : c = '\\'
      · subst hslash
        rfl
      have hname : (splitControlName (c :: cs)).2 ≠ [] := by
        have hle := lexer.length_rest_scanControl_le (c :: cs)
        intro hnil
        apply hrest
        apply List.eq_nil_of_length_eq_zero
        rw [scanControl_of_name lexer hnul hslash]
        simp only [hnil]
        split
        · exact Nat.le_zero.mp (length_rest_scanEnvironment_le _ _ _)
        · split
          · exact Nat.le_zero.mp (length_rest_scanEnvironment_le _ _ _)
          · rfl
      have hextend := splitControlName_append_right hname tail
      rw [List.cons_append] at hextend
      rw [scanControl_of_name lexer hnul hslash] at hrest ⊢
      rw [scanControl_of_name (lexer.extend tail) hnul hslash, hextend]
      simp only at hrest ⊢
      split
      · next hbegin =>
          rw [if_pos hbegin] at hrest
          exact scanEnvironment_extend hrest tail
      · next hbegin =>
          rw [if_neg hbegin] at hrest
          split
          · next hend =>
              rw [if_pos hend] at hrest
              exact scanEnvironment_extend hrest tail
          · rfl

/-- A token that leaves a character unread is the same in a longer text. -/
theorem scan_extend {lexer : Lexer} (hrest : lexer.scan.2.rest ≠ []) (tail : List Char) :
    (lexer.extend tail).scan = (lexer.scan.1, lexer.scan.2.extend tail) := by
  cases hgap : lexer.skipGap.rest with
  | nil =>
      simp only [scan, hgap] at hrest
      exact absurd rfl hrest
  | cons c after =>
      have hskip : (lexer.extend tail).skipGap = lexer.skipGap.extend tail :=
        skipGap_extend (by simp [hgap]) tail
      have hlonger : (lexer.extend tail).skipGap.rest = c :: (after ++ tail) := by
        rw [hskip, extend, hgap]
        rfl
      have hbox : (lexer.extend tail).textBoxNext = lexer.textBoxNext := rfl
      rw [scan_of_skipGap hgap] at hrest ⊢
      rw [scan_of_skipGap hlonger, hskip, hbox]
      simp only at hrest ⊢
      split
      · next hopen =>
          rw [if_pos hopen] at hrest
          exact scanTextBox_extend hrest tail
      · next hopen =>
          rw [if_neg hopen] at hrest
          split
          · next hslash =>
              rw [if_pos hslash] at hrest
              exact scanControl_extend hrest tail
          · exact scanCharacter_extend { lexer.skipGap with textBoxNext := false } c after tail

end Lexer

/-! ## What a token takes -/

/-- Later text may change the token: it ends with the formula, or it says that
something is still open at the end. -/
def Lexeme.IsUnsettled (finish : Nat) (lexeme : Lexeme) : Prop :=
  finish ≤ lexeme.span.stop ∨ lexeme.token = .malformed .unclosedGroup ∨
    ∃ name, lexeme.token = .malformed (.unclosedEnvironment name)

namespace Lexer

/-- A token and the lexer after it, in a formula that ends at the offset. -/
structure Takes (offset : Nat) (result : Lexeme × Lexer) : Prop where
  finish_eq : result.2.finish = offset
  isUnsettled : result.2.rest = [] → result.1.IsUnsettled offset

theorem finish_advance
    {lexer : Lexer} {taken rest : List Char} (hrest : taken ++ rest = lexer.rest) :
    (lexer.advance taken rest).finish = lexer.finish := by
  simp only [finish, advance, ← hrest, byteLength_append]
  omega

theorem finish_skipGap (lexer : Lexer) : lexer.skipGap.finish = lexer.finish :=
  finish_advance (splitGap_append false lexer.rest)

theorem takes_of_stop {offset : Nat} {lexeme : Lexeme} {after : Lexer}
    (hstop : lexeme.span.stop = after.position) (hfinish : after.finish = offset) :
    Takes offset (lexeme, after) := by
  refine ⟨hfinish, ?_⟩
  intro hnil
  simp only at hnil
  left
  simp [hstop, ← hfinish, finish, hnil]

theorem takes_emit {offset : Nat} {lexer : Lexer} {taken rest : List Char} (token : Token)
    (hfinish : (lexer.advance taken rest).finish = offset) :
    Takes offset (lexer.emit token taken rest) :=
  takes_of_stop rfl hfinish

theorem takes_scanCharacter {lexer : Lexer} {c : Char} {rest : List Char}
    (hrest : lexer.rest = c :: rest) : Takes lexer.finish (lexer.scanCharacter c rest) := by
  have hfinish : (lexer.advance [c] rest).finish = lexer.finish := finish_advance hrest.symm
  unfold scanCharacter
  split
  case h_3 => split <;> exact takes_emit _ hfinish
  case h_7 =>
    split
    · exact takes_emit _ hfinish
    · split <;> exact takes_emit _ hfinish
  all_goals exact takes_emit _ hfinish

theorem takes_scanTextBox {lexer : Lexer} {after : List Char} (hrest : lexer.rest = '{' :: after) :
    Takes lexer.finish (lexer.scanTextBox after) := by
  have hsplit := splitTextBox_append 0 after
  unfold scanTextBox
  split
  · next hcase =>
      rw [hcase] at hsplit
      exact takes_emit _ (finish_advance (by simp [hrest, ← hsplit]))
  · next hcase =>
      rw [hcase] at hsplit
      exact takes_emit _ (finish_advance (by simp [hrest, ← hsplit]))
  · next content rest hcase =>
      rw [hcase] at hsplit
      have hpassed : '{' :: content ++ '\x00' :: rest = lexer.rest := by
        rw [hrest, ← hsplit]
        rfl
      exact takes_emit _ ((finish_advance rfl).trans (finish_advance hpassed))

theorem takes_scanEnvironment {offset : Nat} {lexer : Lexer} (begins : Bool) (start : Nat)
    (hfinish : lexer.finish = offset) :
    Takes offset (lexer.scanEnvironment begins start) := by
  have hname := finish_advance (splitEnvironmentName_append lexer.skipGap.rest)
  rw [finish_skipGap, hfinish] at hname
  unfold scanEnvironment
  simp only
  split
  · exact takes_of_stop rfl hname
  · split <;> exact takes_of_stop rfl hname

theorem takes_scanControl {lexer : Lexer} {after : List Char} (hrest : lexer.rest = '\\' :: after) :
    Takes lexer.finish (lexer.scanControl after) := by
  cases after with
  | nil => exact takes_emit _ (finish_advance hrest.symm)
  | cons c cs =>
      by_cases hnul : c = '\x00'
      · subst hnul
        exact ⟨finish_advance hrest.symm, fun hnil => absurd hnil (List.cons_ne_nil _ _)⟩
      by_cases hslash : c = '\\'
      · subst hslash
        exact takes_emit _ (finish_advance hrest.symm)
      have hname : '\\' :: (splitControlName (c :: cs)).1 ++ (splitControlName (c :: cs)).2 =
          lexer.rest := by
        rw [hrest, List.cons_append, splitControlName_append]
      have hfinish := finish_advance hname
      rw [scanControl_of_name lexer hnul hslash]
      simp only
      split
      · exact takes_scanEnvironment _ _ hfinish
      · split
        · exact takes_scanEnvironment _ _ hfinish
        · exact takes_emit _ hfinish

theorem isUnsettled_endLexeme {lexer : Lexer} (hrest : lexer.rest = []) :
    lexer.endLexeme.IsUnsettled lexer.finish := by
  have hfinish : lexer.finish = lexer.position := by simp [finish, hrest]
  unfold endLexeme
  split
  · exact .inl (Nat.le_of_eq hfinish)
  · exact .inr (.inl rfl)
  · exact .inr (.inr ⟨_, rfl⟩)
  · split
    · exact .inr (.inl rfl)
    · exact .inr (.inr ⟨_, rfl⟩)

theorem takes_scan (lexer : Lexer) : Takes lexer.finish lexer.scan := by
  let here := { lexer.skipGap with textBoxNext := false }
  have hfinish : here.finish = lexer.finish := lexer.finish_skipGap
  rw [← hfinish]
  cases hgap : lexer.skipGap.rest with
  | nil =>
      have hscan : lexer.scan = (here.endLexeme, here) := by simp only [scan, hgap, here]
      rw [hscan]
      exact ⟨rfl, isUnsettled_endLexeme⟩
  | cons c after =>
      rw [scan_of_skipGap hgap]
      simp only
      split
      · next hopen =>
          have hbrace : c = '{' := by simp_all
          subst hbrace
          exact takes_scanTextBox hgap
      · split
        · next hslash =>
            rw [beq_iff_eq] at hslash
            subst hslash
            exact takes_scanControl hgap
        · exact takes_scanCharacter hgap

theorem isUnsettled_of_mem_lexemes
    {lexer : Lexer} (hrest : lexer.rest = []) {lexeme : Lexeme} (hmem : lexeme ∈ lexer.lexemes) :
    lexeme.IsUnsettled lexer.finish := by
  have hlast : lexer.scan.1.token.isLast = true := by
    cases hlast : lexer.scan.1.token.isLast with
    | true => rfl
    | false =>
        have hlt := lexer.length_rest_scan_lt hlast
        simp [hrest] at hlt
  have hscan : lexer.scan.2.rest = [] := by
    have hgap : lexer.skipGap.rest = [] := by simp [skipGap, splitGap, hrest]
    simp only [scan, hgap]
  rw [lexemes_eq, if_pos hlast] at hmem
  split at hmem
  · simp at hmem
  · rw [List.mem_singleton.mp hmem]
    exact (takes_scan lexer).isUnsettled hscan

end Lexer

/-! ## The two readings -/

/-- Later text may change the error. -/
def FormulaError.IsUnsettled (finish : Nat) (error : FormulaError) : Prop :=
  finish ≤ error.span.stop ∨ error.cause = .lexical .unclosedGroup ∨
    ∃ name, error.cause = .lexical (.unclosedEnvironment name)

theorem Lexeme.Raises.isUnsettled {finish : Nat} {lexeme : Lexeme} {error : FormulaError}
    (hraises : lexeme.Raises error) (hlexeme : lexeme.IsUnsettled finish) :
    error.IsUnsettled finish := by
  rcases hlexeme with hstop | hgroup | ⟨name, hname⟩
  · exact .inl (hraises.span ▸ hstop)
  · exact .inr (.inl ((hraises.lexical _).mpr hgroup))
  · exact .inr (.inr ⟨name, (hraises.lexical _).mpr hname⟩)

/-- A formula of the given length is compared with a longer one. -/
def longerReading (chemistry : Bool) (finish longer : Nat) : Comparison where
  first := ⟨chemistry, finish⟩
  second := ⟨chemistry, longer⟩
  Loose := Lexeme.IsUnsettled finish
  Excused := FormulaError.IsUnsettled finish
  excused_of_raises hloose hraises := hraises.isUnsettled hloose
  chemistry := .inl rfl

theorem beyond_longerReading {chemistry : Bool} {finish longer : Nat} {input : List Lexeme}
    (hinput : ∀ lexeme ∈ input, lexeme.IsUnsettled finish) :
    (longerReading chemistry finish longer).Beyond input := by
  intro lexeme hmeets
  rcases hmeets with hmem | hend
  · exact hinput lexeme hmem
  · rw [hend]
    exact .inl (Nat.le_refl finish)

theorem alike_lexemes_extend
    (chemistry : Bool) (longer : Nat) (lexer : Lexer) (tail : List Char) :
    (longerReading chemistry lexer.finish longer).Alike
      lexer.lexemes (lexer.extend tail).lexemes := by
  induction hlength : lexer.rest.length using Nat.strongRecOn generalizing lexer with
  | ind size ih =>
      subst hlength
      have htakes := lexer.takes_scan
      by_cases hrest : lexer.scan.2.rest = []
      · -- Nothing is left after this token, so it and all that follows is unsettled.
        apply Comparison.Alike.beyond
        apply beyond_longerReading
        intro lexeme hmem
        rw [Lexer.lexemes_eq] at hmem
        split at hmem
        · split at hmem
          · simp at hmem
          · rw [List.mem_singleton.mp hmem]
            exact htakes.isUnsettled hrest
        · rcases List.mem_cons.mp hmem with rfl | hmem
          · exact htakes.isUnsettled hrest
          · rw [← htakes.finish_eq]
            exact Lexer.isUnsettled_of_mem_lexemes hrest hmem
      · rw [Lexer.lexemes_eq lexer, Lexer.lexemes_eq (lexer.extend tail), Lexer.scan_extend hrest]
        have hnil : (longerReading chemistry lexer.finish longer).Alike [] [] :=
          .beyond (beyond_longerReading (by simp))
        by_cases hlast : lexer.scan.1.token.isLast = true
        · simp only [hlast, if_true]
          by_cases hend : lexer.scan.1.token = .endOfInput
          · simp only [hend, if_true]
            exact hnil
          · simp only [hend, if_false]
            exact .next _ hnil
        · simp only [hlast, Bool.false_eq_true, if_false]
          rw [← htakes.finish_eq]
          exact .next _ (ih _ (lexer.length_rest_scan_lt (by simpa using hlast)) _ rfl)

/-- An error that ends before the formula does, and does not say that a group
or an environment is still open, is the error of every longer formula. -/
theorem parseFormula_append_eq_error (chemistry : Bool) {formula : String} (tail : String)
    {error : FormulaError} (hread : parseFormula chemistry formula = .error error)
    (hgroup : error.cause ≠ .lexical .unclosedGroup)
    (henvironment : ∀ name, error.cause ≠ .lexical (.unclosedEnvironment name))
    (hstop : error.span.stop < byteLength formula.toList) :
    parseFormula chemistry (formula ++ tail) = .error error := by
  have hstart : Lexer.start (formula ++ tail) = (Lexer.start formula).extend tail.toList := by
    simp [Lexer.start, Lexer.extend]
  have hfinish : (Lexer.start formula).finish = byteLength formula.toList := by
    simp [Lexer.start, Lexer.finish]
  have halike := alike_lexemes_extend chemistry (byteLength (formula ++ tail).toList)
    (Lexer.start formula) tail.toList
  rw [hfinish, ← hstart] at halike
  apply Comparison.readTokens_eq_error halike hread
  rintro (hle | hunclosed | ⟨name, hunclosed⟩)
  · exact absurd hle (Nat.not_le.mpr hstop)
  · exact hgroup hunclosed
  · exact henvironment name hunclosed

/-- A misplaced ampersand is reported although a group and an environment are
open and the last command is cut off. -/
theorem parseFormula_append_misplaced :
    parseFormula false "\\begin\x7bmatrix\x7d\x7b1 & \\tex" =
        .error ⟨⟨17, 18⟩, .misplaced .ampersand⟩ ∧
      parseFormula false ("\\begin\x7bmatrix\x7d\x7b1 & \\tex" ++ "t\x7d\x7d\\end\x7bmatrix\x7d") =
        .error ⟨⟨17, 18⟩, .misplaced .ampersand⟩ := by
  have hread : parseFormula false "\\begin\x7bmatrix\x7d\x7b1 & \\tex" =
      .error ⟨⟨17, 18⟩, .misplaced .ampersand⟩ := by
    with_unfolding_all rfl
  exact ⟨hread, parseFormula_append_eq_error false _ hread (by simp) (by simp)
    (by decide +kernel)⟩

end FormulaMarkup
