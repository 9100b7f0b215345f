import FormulaMarkup.Proofs.InterleavedTokens

/-!
# What is still open

After some lexemes of a formula, certain braces and environments are still
open.  A closing brace closes the last open brace, and the end of an
environment ends the last open environment, whatever stands between.

The two stacks of the lexer are what is still open, one kind each.  So a
closing brace has an open brace before it, and a formula whose lexemes are all
well formed leaves nothing open.
-/

namespace FormulaMarkup

namespace Lexeme

/-- The offset of an opening brace. -/
def brace? : Lexeme → Option Nat
  | ⟨.openBrace, span⟩ => some span.start
  | _ => none

/-- The name and the place of the beginning of an environment. -/
def environment? : Lexeme → Option (String × Span)
  | ⟨.beginning name, span⟩ => some (name, span)
  | _ => none

theorem environment?_eq_none_of_brace? (lexeme : Lexeme) (hbrace : lexeme.brace?.isSome) :
    lexeme.environment? = none := by
  obtain ⟨token, span⟩ := lexeme
  cases token with
  | openBrace => rfl
  | _ => cases hbrace

theorem brace?_eq_none_of_environment? (lexeme : Lexeme)
    (henvironment : lexeme.environment?.isSome) : lexeme.brace? = none := by
  obtain ⟨token, span⟩ := lexeme
  cases token with
  | beginning name => rfl
  | _ => cases henvironment

end Lexeme

/-- What is open after one more lexeme, the last one first. -/
def openAfter (stack : List Lexeme) (lexeme : Lexeme) : List Lexeme :=
  match lexeme.token with
  | .openBrace => lexeme :: stack
  | .beginning _ => lexeme :: stack
  | .closeBrace => stack.eraseP fun opener => opener.brace?.isSome
  | .ending _ => stack.eraseP fun opener => opener.environment?.isSome
  | _ => stack

/-- Whether a token opens or closes something. -/
def Token.bounds : Token → Bool
  | .openBrace => true
  | .beginning _ => true
  | .closeBrace => true
  | .ending _ => true
  | _ => false

theorem openAfter_of_bounds_eq_false {lexeme : Lexeme} (hbounds : lexeme.token.bounds = false)
    (stack : List Lexeme) : openAfter stack lexeme = stack := by
  unfold openAfter
  cases htoken : lexeme.token with
  | openBrace | beginning | closeBrace | ending =>
      rw [htoken] at hbounds
      cases hbounds
  | _ => rfl

/-- The braces and environments that the lexemes leave open, the last one first. -/
def stillOpen (lexemes : List Lexeme) : List Lexeme := lexemes.foldl openAfter []

theorem stillOpen_concat (lexemes : List Lexeme) (lexeme : Lexeme) :
    stillOpen (lexemes ++ [lexeme]) = openAfter (stillOpen lexemes) lexeme := by
  simp [stillOpen]

def WellFormed (lexemes : List Lexeme) : Prop :=
  ∀ lexeme ∈ lexemes, ∀ fault, lexeme.token ≠ .malformed fault

theorem Token.exists_fault_of_isLast {token : Token} (hlast : token.isLast = true)
    (hend : token ≠ .endOfInput) : ∃ fault, token = .malformed fault := by
  cases token with
  | malformed fault => exact ⟨fault, rfl⟩
  | endOfInput => exact absurd rfl hend
  | _ => cases hlast

theorem reverse_foldl_openAfter_sublist (stack lexemes : List Lexeme) :
    (lexemes.foldl openAfter stack).reverse.Sublist (stack.reverse ++ lexemes) := by
  induction lexemes generalizing stack with
  | nil => simp
  | cons lexeme rest ih =>
      have hstep : (openAfter stack lexeme).reverse.Sublist (stack.reverse ++ [lexeme]) := by
        unfold openAfter
        split
        · simp
        · simp
        · exact List.eraseP_sublist.reverse.trans (List.sublist_append_left _ _)
        · exact List.eraseP_sublist.reverse.trans (List.sublist_append_left _ _)
        · exact List.sublist_append_left _ _
      have hall := (ih (openAfter stack lexeme)).trans (hstep.append_right rest)
      simpa using hall

/-- What is still open was opened in the order of the stack. -/
theorem reverse_stillOpen_sublist (lexemes : List Lexeme) :
    (stillOpen lexemes).reverse.Sublist lexemes :=
  reverse_foldl_openAfter_sublist [] lexemes

/-! ## The stacks of the lexer -/

theorem filterMap_eraseP_self {α β : Type} (f : α → Option β) (members : List α) :
    (members.eraseP fun member => (f member).isSome).filterMap f = (members.filterMap f).tail := by
  induction members with
  | nil => rfl
  | cons member rest ih =>
      cases hmember : f member with
      | none => simp [hmember, ih]
      | some value => simp [hmember]

theorem filterMap_eraseP_other {α β γ : Type} (f : α → Option β) (g : α → Option γ)
    (hother : ∀ member, (g member).isSome → f member = none) (members : List α) :
    (members.eraseP fun member => (g member).isSome).filterMap f = members.filterMap f := by
  induction members with
  | nil => rfl
  | cons member rest ih =>
      cases hmember : g member with
      | none => simp [hmember, List.filterMap_cons, ih]
      | some value => simp [hmember, hother member (by simp [hmember])]

namespace Lexer

/-- The lexer has what is open on its two stacks. -/
structure Tracks (lexer : Lexer) (stack : List Lexeme) : Prop where
  groups : lexer.openGroups = stack.filterMap Lexeme.brace?
  environments : lexer.openEnvironments = stack.filterMap Lexeme.environment?
  opener : ∀ lexeme ∈ stack, lexeme.brace?.isSome ∨ lexeme.environment?.isSome

theorem tracks_start (formula : String) : (start formula).Tracks [] where
  groups := rfl
  environments := rfl
  opener := by simp

theorem Tracks.erase {lexer after : Lexer} {stack : List Lexeme} {closes : Lexeme → Bool}
    (htracks : lexer.Tracks stack)
    (hgroups : after.openGroups = (stack.eraseP closes).filterMap Lexeme.brace?)
    (henvironments : after.openEnvironments =
      (stack.eraseP closes).filterMap Lexeme.environment?) :
    after.Tracks (stack.eraseP closes) where
  groups := hgroups
  environments := henvironments
  opener lexeme hmem := htracks.opener lexeme (List.mem_of_mem_eraseP hmem)

theorem bounds_characterToken (c : Char) : (characterToken c).bounds = false := by
  unfold characterToken
  repeat' split
  all_goals rfl

theorem bounds_endLexeme (lexer : Lexer) : lexer.endLexeme.token.bounds = false := by
  unfold endLexeme
  repeat' split
  all_goals rfl

/-- One step changes the stacks by what it reads. -/
theorem Scans.tracks {boxed : Bool} {lexer : Lexer} {result : Lexeme × Lexer}
    {stack : List Lexeme} (hscans : Scans boxed lexer result) (htracks : lexer.Tracks stack) :
    result.2.Tracks (openAfter stack result.1) := by
  have hsame {after : Lexer} {lexeme : Lexeme} (hbounds : lexeme.token.bounds = false)
      (hgroups : after.openGroups = lexer.openGroups)
      (henvironments : after.openEnvironments = lexer.openEnvironments) :
      after.Tracks (openAfter stack lexeme) := by
    rw [openAfter_of_bounds_eq_false hbounds]
    exact ⟨hgroups.trans htracks.groups, henvironments.trans htracks.environments, htracks.opener⟩
  cases hscans with
  | finish hrest => exact hsame lexer.bounds_endLexeme rfl rfl
  | plain hrest hplain => exact hsame (bounds_characterToken _) rfl rfl
  | unmatchedClose | textBox | nextRow | command | broken | nul => exact hsame rfl rfl rfl
  | openBrace hrest =>
      refine ⟨?_, htracks.environments, List.forall_mem_cons.mpr ⟨.inl rfl, htracks.opener⟩⟩
      exact congrArg (lexer.position :: ·) htracks.groups
  | beginning hrest hgap hspan =>
      refine ⟨htracks.groups, ?_, List.forall_mem_cons.mpr ⟨.inr rfl, htracks.opener⟩⟩
      exact congrArg (_ :: ·) htracks.environments
  | closeBrace hrest hgroups =>
      refine htracks.erase ?_ ?_
      · rw [filterMap_eraseP_self, ← htracks.groups, hgroups]
        rfl
      · rw [filterMap_eraseP_other _ _ Lexeme.environment?_eq_none_of_brace?]
        exact htracks.environments
  | ending =>
      refine htracks.erase ?_ ?_
      · rw [filterMap_eraseP_other _ _ Lexeme.brace?_eq_none_of_environment?]
        exact htracks.groups
      · rw [filterMap_eraseP_self, ← htracks.environments]
        rfl

theorem Scans.openGroups_ne_nil {boxed : Bool} {lexer : Lexer} {result : Lexeme × Lexer}
    (hscans : Scans boxed lexer result) (htoken : result.1.token = .closeBrace) :
    lexer.openGroups ≠ [] := by
  have hbounds : result.1.token.bounds = true := by rw [htoken]; rfl
  cases hscans with
  | closeBrace hrest hgroups => simp [hgroups]
  | finish hrest => exact absurd hbounds (by simp [lexer.bounds_endLexeme])
  | plain hrest hplain => exact absurd hbounds (by simp [emit, bounds_characterToken])
  | _ => cases htoken

/-- The end of the formula is read as such only if nothing is open. -/
theorem Scans.nothing_open {boxed : Bool} {lexer : Lexer} {result : Lexeme × Lexer}
    (hscans : Scans boxed lexer result) (hend : result.1.token = .endOfInput) :
    lexer.openGroups = [] ∧ lexer.openEnvironments = [] := by
  cases hscans with
  | finish hrest =>
      unfold endLexeme at hend
      split at hend
      · next hgroups henvironments => exact ⟨hgroups, henvironments⟩
      · cases hend
      · cases hend
      · split at hend <;> cases hend
  | @plain c _ hrest hplain =>
      have hlast := isLast_characterToken c
      rw [show characterToken c = .endOfInput from hend] at hlast
      cases hlast
  | _ => cases hend

theorem Tracks.scan {lexer : Lexer} {stack : List Lexeme} (htracks : lexer.Tracks stack) :
    lexer.scan.2.Tracks (openAfter stack lexer.scan.1) := by
  -- The gap before a lexeme is skipped, and nothing in it is opened or closed.
  have hgap : ({ lexer.skipGap with textBoxNext := false } : Lexer).Tracks stack :=
    ⟨htracks.groups, htracks.environments, htracks.opener⟩
  exact lexer.scans_scan.tracks hgap

theorem Tracks.eq_nil {lexer : Lexer} {stack : List Lexeme} (htracks : lexer.Tracks stack)
    (hgroups : lexer.openGroups = []) (henvironments : lexer.openEnvironments = []) :
    stack = [] := by
  cases stack with
  | nil => rfl
  | cons lexeme rest =>
      obtain ⟨hbraces, hbegins, hopener⟩ := htracks
      rw [hgroups] at hbraces
      rw [henvironments] at hbegins
      have hbrace := List.filterMap_eq_nil_iff.mp hbraces.symm lexeme List.mem_cons_self
      have hbegin := List.filterMap_eq_nil_iff.mp hbegins.symm lexeme List.mem_cons_self
      have hneither := hopener lexeme List.mem_cons_self
      simp [hbrace, hbegin] at hneither

theorem Tracks.exists_brace {lexer : Lexer} {stack : List Lexeme} (htracks : lexer.Tracks stack)
    (hgroups : lexer.openGroups ≠ []) : ∃ brace ∈ stack, brace.token = .openBrace := by
  obtain ⟨offset, hoffset⟩ := List.exists_mem_of_ne_nil _ hgroups
  rw [htracks.groups] at hoffset
  obtain ⟨lexeme, hmem, hbrace⟩ := List.mem_filterMap.mp hoffset
  refine ⟨lexeme, hmem, ?_⟩
  unfold Lexeme.brace? at hbrace
  split at hbrace
  · rfl
  · cases hbrace

theorem exists_brace_before_closeBrace (lexer : Lexer) {stack before after : List Lexeme}
    {span : Span} (htracks : lexer.Tracks stack)
    (hlexemes : lexer.lexemes = before ++ ⟨.closeBrace, span⟩ :: after) :
    ∃ brace ∈ before.foldl openAfter stack, brace.token = .openBrace := by
  induction lexer using lexemes_induction generalizing stack before with
  | finish lexer hend => simp at hlexemes
  | malformed lexer fault htoken =>
      have hmem : ⟨.closeBrace, span⟩ ∈ [lexer.scan.1] := by simp [hlexemes]
      rw [← List.mem_singleton.mp hmem] at htoken
      cases htoken
  | next lexer hlast ih =>
      cases before with
      | nil =>
          -- The lexer that reads the brace has checked its own stack.
          have hclose : lexer.scan.1.token = .closeBrace := by rw [(List.cons.inj hlexemes).1]
          have hgroups := lexer.scans_scan.openGroups_ne_nil hclose
          exact htracks.exists_brace hgroups
      | cons first others =>
          obtain ⟨rfl, hothers⟩ := List.cons.inj hlexemes
          have hlater := ih htracks.scan hothers
          exact hlater

/-- Where all lexemes are well formed, everything that is opened is closed. -/
theorem foldl_openAfter_lexemes (lexer : Lexer) {stack : List Lexeme}
    (htracks : lexer.Tracks stack) (hformed : WellFormed lexer.lexemes) :
    lexer.lexemes.foldl openAfter stack = [] := by
  induction lexer using lexemes_induction generalizing stack with
  | finish lexer hend =>
      obtain ⟨hgroups, henvironments⟩ := lexer.scans_scan.nothing_open hend
      exact htracks.eq_nil hgroups henvironments
  | malformed lexer fault htoken =>
      exact absurd htoken (hformed _ (List.mem_singleton_self _) fault)
  | next lexer hlast ih =>
      rw [WellFormed, List.forall_mem_cons] at hformed
      exact ih htracks.scan hformed.2

theorem token_ne_endOfInput_of_mem_lexemes (lexer : Lexer) :
    ∀ lexeme ∈ lexer.lexemes, lexeme.token ≠ .endOfInput := by
  induction lexer using lexemes_induction with
  | finish lexer hend => simp
  | malformed lexer fault htoken => simp [htoken]
  | next lexer hlast ih =>
      refine List.forall_mem_cons.mpr ⟨?_, ih⟩
      intro hend
      rw [hend] at hlast
      cases hlast

end Lexer

/-- What is known about the lexemes of a formula as a whole. -/
structure WellLexed (whole : List Lexeme) : Prop where
  token_ne_endOfInput : ∀ lexeme ∈ whole, lexeme.token ≠ .endOfInput
  /-- A closing brace stands where a brace is open. -/
  opened : ∀ {before after : List Lexeme} {span : Span},
    whole = before ++ ⟨.closeBrace, span⟩ :: after →
    ∃ brace ∈ stillOpen before, brace.token = .openBrace
  closed : WellFormed whole → stillOpen whole = []
  /-- A text box stands after a command that asks for it. -/
  asked : ∀ {before after : List Lexeme} {content : String} {span : Span},
    whole = before ++ ⟨.rawText content, span⟩ :: after →
    ∃ name place, before.getLast? = some ⟨.command name, place⟩ ∧ shape? name = some .rawText

theorem wellLexed_tokenize (formula : String) : WellLexed (tokenize formula) where
  token_ne_endOfInput := Lexer.token_ne_endOfInput_of_mem_lexemes _
  opened := Lexer.exists_brace_before_closeBrace _ (Lexer.tracks_start formula)
  closed := Lexer.foldl_openAfter_lexemes _ (Lexer.tracks_start formula)
  asked hlexemes := by
    rcases Lexer.command_before_rawText (Lexer.start formula) hlexemes with ⟨_, hasked⟩ | hcommand
    · cases hasked
    · exact hcommand

end FormulaMarkup
