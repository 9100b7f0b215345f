import FormulaMarkup.Proofs.LegibleTokens

/-!
# Steps of the lexer

One step of the lexer passes over a gap and reads a token.  The relation below
lists what the step can be, with the characters that it takes and the state
that it leaves.  Whatever holds along a formula is shown for these steps and
carried over to the list of lexemes, which is either finished by one last step
or goes on after a step that is not the last one.
-/

namespace FormulaMarkup

/-! ## Gaps and names -/

/-- Blanks and comments before the given characters.  A comment runs up to a
line break, or up to the end of all characters. -/
inductive IsGap (after : List Char) : List Char → Prop
  | nothing : IsGap after []
  | blank {c : Char} {rest : List Char} (hblank : isBlank c = true) (hrest : IsGap after rest) :
      IsGap after (c :: rest)
  | comment {body rest : List Char} (hbody : '\n' ∉ body)
      (hstop : ∀ c ∈ (rest ++ after).head?, c = '\n') (hrest : IsGap after rest) :
      IsGap after ('%' :: (body ++ rest))

/-- The two parts follow the two states of the split.  From inside a comment,
the characters up to the line break come first. -/
theorem isGap_splitGap_and (cs : List Char) :
    IsGap (splitGap false cs).2 (splitGap false cs).1 ∧
      ∃ body rest, (splitGap true cs).1 = body ++ rest ∧ '\n' ∉ body ∧
        (∀ c ∈ (rest ++ (splitGap true cs).2).head?, c = '\n') ∧
        IsGap (splitGap true cs).2 rest := by
  induction cs with
  | nil => exact ⟨.nothing, [], [], rfl, by simp, by simp [splitGap], .nothing⟩
  | cons c cs ih =>
      obtain ⟨houtside, body, rest, hgap, hbody, hstop, hrest⟩ := ih
      by_cases hline : c = '\n'
      · subst hline
        have hblank : isBlank '\n' = true := by decide
        have hout : splitGap false ('\n' :: cs) =
            ('\n' :: (splitGap false cs).1, (splitGap false cs).2) := by
          simp [splitGap, hblank]
        have hin : splitGap true ('\n' :: cs) =
            ('\n' :: (splitGap false cs).1, (splitGap false cs).2) := by
          simp [splitGap]
        rw [hout, hin]
        exact ⟨.blank hblank houtside, [], _, rfl, by simp, by simp, .blank hblank houtside⟩
      · have hin : splitGap true (c :: cs) =
            (c :: (splitGap true cs).1, (splitGap true cs).2) := by
          have hstay : (c != '\n') = true := by simp [hline]
          simp only [splitGap, hstay, Bool.true_or, Bool.and_true, if_true]
        rw [hin]
        refine ⟨?_, c :: body, rest, by rw [hgap]; rfl, ?_, hstop, hrest⟩
        · by_cases hpercent : c = '%'
          · subst hpercent
            have hout : splitGap false ('%' :: cs) =
                ('%' :: (splitGap true cs).1, (splitGap true cs).2) := by
              simp [splitGap]
            rw [hout, hgap]
            exact .comment hbody hstop hrest
          · by_cases hblank : isBlank c = true
            · have hout : splitGap false (c :: cs) =
                  (c :: (splitGap false cs).1, (splitGap false cs).2) := by
                have hstay : (c != '\n' && (false || c == '%')) = false := by simp [hpercent]
                simp only [splitGap, hstay, hblank, Bool.or_true, Bool.true_or, if_true]
              rw [hout]
              exact .blank hblank houtside
            · simp [splitGap, hblank, hpercent, IsGap.nothing]
        · simpa [eq_comm, hline] using hbody

theorem isGap_splitGap (cs : List Char) : IsGap (splitGap false cs).2 (splitGap false cs).1 :=
  (isGap_splitGap_and cs).1

/-- A name that ends with an ASCII letter does not go on in the characters
after it. -/
def EndsName (name after : List Char) : Prop :=
  name.getLast?.any Char.isAlpha = true → after.head?.any Char.isAlpha = false

theorem head?_dropWhile_isAlpha (cs : List Char) :
    (cs.dropWhile Char.isAlpha).head?.any Char.isAlpha = false := by
  induction cs with
  | nil => rfl
  | cons c cs ih =>
      cases hletter : c.isAlpha with
      | true => simpa [hletter] using ih
      | false => simp [hletter]

theorem endsName_splitControlName (cs : List Char) :
    EndsName ('\\' :: (splitControlName cs).1) (splitControlName cs).2 := by
  unfold splitControlName
  simp only
  split
  · next hword =>
      -- A control symbol is no letter.
      intro hletter
      cases cs with
      | nil => simp at hletter
      | cons c rest =>
          have hc : c.isAlpha = true := by simpa using hletter
          simp [hc] at hword
  · split
    · intro hstar
      rw [← List.cons_append, List.getLast?_concat] at hstar
      exact absurd hstar (by decide)
    · intro _
      exact head?_dropWhile_isAlpha cs

theorem splitEnvironmentName_eq_some
    {cs word : List Char} (hname : (splitEnvironmentName cs).1 = some word) :
    (splitEnvironmentName cs).2.1 = '{' :: (word ++ ['}']) ∧
      ∀ c ∈ word, isEnvironmentNameCharacter c = true := by
  unfold splitEnvironmentName at hname ⊢
  split at hname
  · next after =>
      cases hrest : after.dropWhile isEnvironmentNameCharacter with
      | nil => simp [hrest] at hname
      | cons c rest =>
          by_cases hclose : c = '}'
          · have hword : after.takeWhile isEnvironmentNameCharacter = word := by
              simpa [hrest, hclose] using hname
            refine ⟨by simp [hclose, hword], ?_⟩
            rw [← hword]
            exact List.all_eq_true.mp List.all_takeWhile
          · simp [hrest, hclose] at hname
  · simp at hname

theorem splitTextBox_append (depth : Nat) (cs : List Char) :
    (splitTextBox depth cs).1 ++
      (match (splitTextBox depth cs).2.1 with
        | .closed => '}' :: (splitTextBox depth cs).2.2
        | .unclosed => (splitTextBox depth cs).2.2
        | .disallowed => '\x00' :: (splitTextBox depth cs).2.2) = cs := by
  fun_induction splitTextBox depth cs with
  | case1 => rfl
  | case2 => rfl
  | case3 depth hidden rest content outcome after hsplit ih =>
      rw [hsplit] at ih
      simpa using ih
  | case4 => rfl
  | case5 depth c rest _ _ _ hclose => simp [hclose.1]
  | case6 depth c rest _ _ _ _ inner content outcome after hsplit ih =>
      rw [hsplit] at ih
      simpa using ih

namespace Lexer

/-! ## The steps -/

/-- The characters of the beginning or the end of an environment, with a gap
between the command and the name. -/
def spacedMark (begins : Bool) (gap word : List Char) : List Char :=
  '\\' :: (environmentCommand begins ++ (gap ++ '{' :: (word ++ ['}'])))

/-- What can be read at the place of the lexer, and the lexer after it.  A text
box is read only where one is asked for. -/
inductive Scans (boxed : Bool) (lexer : Lexer) : Lexeme × Lexer → Prop
  | finish (hrest : lexer.rest = []) : Scans boxed lexer (lexer.endLexeme, lexer)
  | plain {c : Char} {rest : List Char} (hrest : lexer.rest = c :: rest) (hplain : IsPlain c) :
      Scans boxed lexer (lexer.emit (characterToken c) [c] rest)
  | openBrace {rest : List Char} (hrest : lexer.rest = '{' :: rest) :
      Scans boxed lexer
        ({ lexer with openGroups := lexer.position :: lexer.openGroups }.emit .openBrace ['{'] rest)
  | closeBrace {rest : List Char} {group : Nat} {outer : List Nat}
      (hrest : lexer.rest = '}' :: rest) (hgroups : lexer.openGroups = group :: outer) :
      Scans boxed lexer ({ lexer with openGroups := outer }.emit .closeBrace ['}'] rest)
  | unmatchedClose {rest : List Char}
      (hrest : lexer.rest = '}' :: rest) (hgroups : lexer.openGroups = []) :
      Scans boxed lexer (lexer.emit (.malformed .unmatchedClose) ['}'] rest)
  | textBox {content rest : List Char} (hboxed : boxed = true)
      (hrest : lexer.rest = '{' :: (content ++ '}' :: rest)) :
      Scans boxed lexer
        (lexer.emit (.rawText (String.ofList content)) ('{' :: content ++ ['}']) rest)
  | nextRow {rest : List Char} (hrest : lexer.rest = '\\' :: '\\' :: rest) :
      Scans boxed lexer (lexer.emit .nextRow ['\\', '\\'] rest)
  | command {word rest : List Char} (hrest : lexer.rest = '\\' :: (word ++ rest))
      (hname : IsCommandName word) (hends : EndsName ('\\' :: word) rest)
      (hsplit : splitControlName (word ++ rest) = (word, rest)) :
      Scans boxed lexer
        ({ lexer with
            textBoxNext := shape? (String.ofList ('\\' :: word)) == some ArgumentShape.rawText
          }.emit (.command (String.ofList ('\\' :: word))) ('\\' :: word) rest)
  | beginning {gap word rest : List Char} {span : Span}
      (hrest : lexer.rest = spacedMark true gap word ++ rest)
      (hgap : IsGap ('{' :: (word ++ '}' :: rest)) gap)
      (hspan : span =
        ⟨lexer.position, lexer.position + byteLength (spacedMark true gap word)⟩)
      (hword : ∀ c ∈ word, isEnvironmentNameCharacter c = true) :
      Scans boxed lexer
        (⟨.beginning (String.ofList word), span⟩,
          { lexer with
              openEnvironments := (String.ofList word, span) :: lexer.openEnvironments
            }.advance (spacedMark true gap word) rest)
  | ending {gap word rest : List Char}
      (hrest : lexer.rest = spacedMark false gap word ++ rest)
      (hgap : IsGap ('{' :: (word ++ '}' :: rest)) gap)
      (hword : ∀ c ∈ word, isEnvironmentNameCharacter c = true) :
      Scans boxed lexer
        ({ lexer with openEnvironments := lexer.openEnvironments.tail }.emit
          (.ending (String.ofList word)) (spacedMark false gap word) rest)
  | broken {fault : LexicalFault} {taken rest : List Char}
      (hfault : fault = .unclosedText ∨ fault = .incompleteCommand ∨
        fault = .unclosedEnvironmentName)
      (hrest : lexer.rest = taken ++ rest) (hne : taken ≠ []) :
      Scans boxed lexer (lexer.emit (.malformed fault) taken rest)
  | nul {before behind taken rest : List Char}
      (hplace : lexer.rest = before ++ '\x00' :: behind)
      (hrest : lexer.rest = taken ++ rest) (hne : taken ≠ []) :
      Scans boxed lexer
        (⟨.malformed (.disallowedCharacter '\x00'),
            ⟨lexer.position + byteLength before, lexer.position + byteLength before + 1⟩⟩,
          lexer.advance taken rest)

variable {lexer : Lexer} {boxed : Bool}

@[simp] theorem position_advance (lexer : Lexer) (taken rest : List Char) :
    (lexer.advance taken rest).position = lexer.position + byteLength taken := rfl

theorem scans_scanCharacter
    {c : Char} {rest : List Char} (hrest : lexer.rest = c :: rest)
    (hblank : isBlank c = false) (hpercent : c ≠ '%') (hslash : c ≠ '\\') :
    Scans boxed lexer (lexer.scanCharacter c rest) := by
  by_cases hnul : c = '\x00'
  · subst hnul
    have hplace : lexer.rest = [] ++ '\x00' :: rest := hrest
    exact .nul hplace hrest (List.cons_ne_nil _ _)
  by_cases hopen : c = '{'
  · subst hopen
    exact .openBrace hrest
  by_cases hclose : c = '}'
  · subst hclose
    cases hgroups : lexer.openGroups with
    | nil =>
        have hscan : lexer.scanCharacter '}' rest =
            lexer.emit (.malformed .unmatchedClose) ['}'] rest := by
          simp [scanCharacter, hgroups]
        rw [hscan]
        exact .unmatchedClose hrest hgroups
    | cons group outer =>
        have hscan : lexer.scanCharacter '}' rest =
            { lexer with openGroups := outer }.emit .closeBrace ['}'] rest := by
          simp [scanCharacter, hgroups]
        rw [hscan]
        exact .closeBrace hrest hgroups
  have hplain : IsPlain c := ⟨hblank, by simp [*]⟩
  rw [scanCharacter_of_isPlain lexer rest hplain]
  exact .plain hrest hplain

theorem scans_scanTextBox {after : List Char} (hrest : lexer.rest = '{' :: after) :
    Scans true lexer (lexer.scanTextBox after) := by
  have hsplit := splitTextBox_append 0 after
  unfold scanTextBox
  split
  · next content rest hcase =>
      rw [hcase] at hsplit
      exact .textBox rfl (by rw [hrest, ← hsplit])
  · next content rest hcase =>
      rw [hcase] at hsplit
      exact .broken (.inl rfl) (by rw [hrest, ← hsplit]; rfl) (List.cons_ne_nil _ _)
  · next content rest hcase =>
      rw [hcase] at hsplit
      have hplace : lexer.rest = '{' :: content ++ '\x00' :: rest := by
        rw [hrest, ← hsplit]
        rfl
      have htaken : lexer.rest = ('{' :: content ++ ['\x00']) ++ rest := by
        rw [hplace]
        simp
      have hmove : (lexer.advance ('{' :: content) ('\x00' :: rest)).emit
          (.malformed (.disallowedCharacter '\x00')) ['\x00'] rest =
          (⟨.malformed (.disallowedCharacter '\x00'),
              ⟨lexer.position + byteLength ('{' :: content),
                lexer.position + byteLength ('{' :: content) + 1⟩⟩,
            lexer.advance ('{' :: content ++ ['\x00']) rest) := by
        rw [emit, advance_advance]
        rfl
      rw [hmove]
      exact .nul hplace htaken (by simp)

/-- The name of an environment is read from where its command began. -/
theorem scanEnvironment_advance
    (lexer : Lexer) (begins : Bool) (passed rest : List Char) :
    (lexer.advance passed rest).scanEnvironment begins lexer.position =
      let name := splitEnvironmentName (splitGap false rest).2
      let taken := passed ++ ((splitGap false rest).1 ++ name.2.1)
      let after := lexer.advance taken name.2.2
      let span : Span := ⟨lexer.position, lexer.position + byteLength taken⟩
      match name.1 with
      | none => (⟨.malformed .unclosedEnvironmentName, span⟩, after)
      | some word =>
          if begins then
            (⟨.beginning (String.ofList word), span⟩,
              { after with
                  openEnvironments := (String.ofList word, span) :: after.openEnvironments })
          else
            (⟨.ending (String.ofList word), span⟩,
              { after with openEnvironments := after.openEnvironments.tail }) := by
  cases hname : (splitEnvironmentName (splitGap false rest).2).1 <;>
    simp only [scanEnvironment, skipGap, rest_advance, advance_advance, position_advance,
      List.append_assoc, hname]

theorem scans_scanEnvironment
    (begins : Bool) {rest : List Char}
    (hrest : lexer.rest = '\\' :: (environmentCommand begins ++ rest)) :
    Scans boxed lexer
      ((lexer.advance ('\\' :: environmentCommand begins) rest).scanEnvironment
        begins lexer.position) := by
  rw [scanEnvironment_advance]
  have hgap := splitGap_append false rest
  have hisGap := isGap_splitGap rest
  generalize (splitGap false rest).1 = gap at hgap hisGap ⊢
  generalize (splitGap false rest).2 = named at hgap hisGap ⊢
  have hname := splitEnvironmentName_append named
  have hword {word : List Char} (hsome : (splitEnvironmentName named).1 = some word) :=
    splitEnvironmentName_eq_some hsome
  generalize splitEnvironmentName named = split at hname hword ⊢
  obtain ⟨name, taken, after⟩ := split
  simp only at hname hword ⊢
  subst hname hgap
  cases name with
  | none => exact .broken (.inr (.inr rfl)) (by simp [hrest]) (List.cons_ne_nil _ _)
  | some word =>
      obtain ⟨rfl, hcharacters⟩ := hword rfl
      have htaken : lexer.rest = spacedMark begins gap word ++ after := by
        simp [hrest, spacedMark]
      have hbefore : IsGap ('{' :: (word ++ '}' :: after)) gap := by simpa using hisGap
      cases begins with
      | true => exact .beginning htaken hbefore rfl hcharacters
      | false => exact .ending htaken hbefore hcharacters

theorem scanControl_of_name
    (lexer : Lexer) {c : Char} {cs : List Char} (hnul : c ≠ '\x00') (hslash : c ≠ '\\') :
    lexer.scanControl (c :: cs) =
      let word := (splitControlName (c :: cs)).1
      let rest := (splitControlName (c :: cs)).2
      let name := String.ofList ('\\' :: word)
      let passed := lexer.advance ('\\' :: word) rest
      if name = "\\begin" then passed.scanEnvironment true lexer.position
      else if name = "\\end" then passed.scanEnvironment false lexer.position
      else
        { lexer with textBoxNext := shape? name == some ArgumentShape.rawText }.emit
          (.command name) ('\\' :: word) rest := by
  unfold scanControl
  split
  · next hnil => simp at hnil
  · next hcons =>
      cases hcons
      exact absurd rfl hnul
  · next hcons =>
      cases hcons
      exact absurd rfl hslash
  · rfl

theorem scans_scanControl {after : List Char} (hrest : lexer.rest = '\\' :: after) :
    Scans boxed lexer (lexer.scanControl after) := by
  cases after with
  | nil => exact .broken (.inr (.inl rfl)) hrest (List.cons_ne_nil _ _)
  | cons c cs =>
      by_cases hnul : c = '\x00'
      · subst hnul
        have hplace : lexer.rest = ['\\'] ++ '\x00' :: cs := hrest
        exact .nul hplace hplace (List.cons_ne_nil _ _)
      by_cases hslash : c = '\\'
      · subst hslash
        exact .nextRow hrest
      have happend := splitControlName_append (c :: cs)
      have hends := endsName_splitControlName (c :: cs)
      rw [scanControl_of_name lexer hnul hslash]
      rcases hsplit : splitControlName (c :: cs) with ⟨word, rest⟩
      rw [hsplit] at happend hends
      rw [← happend] at hrest
      have hword {text : List Char} (htext : String.ofList ('\\' :: word) = String.ofList text) :
          '\\' :: word = text := String.ofList_injective htext
      simp only
      split
      · next hbegin =>
          obtain rfl : word = environmentCommand true := (List.cons.inj (hword hbegin)).2
          exact scans_scanEnvironment true hrest
      · next hbegin =>
          split
          · next hend =>
              obtain rfl : word = environmentCommand false := (List.cons.inj (hword hend)).2
              exact scans_scanEnvironment false hrest
          · next hend =>
              have hname := isCommandName_of_splitControlName hsplit hslash hnul hbegin hend
              exact .command hrest hname hends (by rw [happend, hsplit])

theorem scan_of_skipGap {lexer : Lexer} {c : Char} {after : List Char}
    (hrest : lexer.skipGap.rest = c :: after) :
    lexer.scan =
      let here := { lexer.skipGap with textBoxNext := false }
      if lexer.textBoxNext && c == '{' then here.scanTextBox after
      else if c == '\\' then here.scanControl after
      else here.scanCharacter c after := by
  simp only [scan, hrest]

/-- What the next step is, after the gap. -/
theorem scans_scan (lexer : Lexer) :
    Scans lexer.textBoxNext { lexer.skipGap with textBoxNext := false } lexer.scan := by
  cases hgap : lexer.skipGap.rest with
  | nil =>
      have hscan : lexer.scan =
          ({ lexer.skipGap with textBoxNext := false }.endLexeme,
            { lexer.skipGap with textBoxNext := false }) := by
        simp only [scan, hgap]
      rw [hscan]
      exact .finish hgap
  | cons c after =>
      obtain ⟨hblank, hpercent⟩ := splitGap_rest_head false hgap
      rw [scan_of_skipGap hgap]
      simp only
      split
      · next hopen =>
          simp only [Bool.and_eq_true, beq_iff_eq] at hopen
          obtain ⟨hbox, rfl⟩ := hopen
          rw [hbox]
          exact scans_scanTextBox hgap
      · split
        · next hslash =>
            rw [beq_iff_eq] at hslash
            subst hslash
            exact scans_scanControl hgap
        · next hslash =>
            exact scans_scanCharacter hgap hblank hpercent (by simpa using hslash)

theorem isLast_endLexeme (lexer : Lexer) : lexer.endLexeme.token.isLast = true := by
  unfold endLexeme
  repeat' split
  all_goals rfl

/-- What holds of the list of lexemes at every lexer: it is shown for the end
of the formula, for a malformed lexeme, and for a lexeme after which it holds. -/
theorem lexemes_induction
    {motive : Lexer → List Lexeme → Prop}
    (finish : ∀ lexer : Lexer, lexer.scan.1.token = .endOfInput → motive lexer [])
    (malformed : ∀ (lexer : Lexer) (fault : LexicalFault),
      lexer.scan.1.token = .malformed fault → motive lexer [lexer.scan.1])
    (next : ∀ lexer : Lexer, lexer.scan.1.token.isLast = false →
      motive lexer.scan.2 lexer.scan.2.lexemes →
        motive lexer (lexer.scan.1 :: lexer.scan.2.lexemes))
    (lexer : Lexer) : motive lexer lexer.lexemes := by
  induction hlength : lexer.rest.length using Nat.strongRecOn generalizing lexer with
  | ind size ih =>
      subst hlength
      rw [lexemes_eq]
      cases htoken : lexer.scan.1.token with
      | endOfInput => exact finish lexer htoken
      | malformed fault => exact malformed lexer fault htoken
      | _ =>
          have hlast : lexer.scan.1.token.isLast = false := by rw [htoken]; rfl
          exact next lexer hlast (ih _ (lexer.length_rest_scan_lt hlast) _ rfl)

end Lexer
end FormulaMarkup
