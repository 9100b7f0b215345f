import FormulaMarkup.Proofs.CharacterPlaces
import FormulaMarkup.Proofs.ReadPrefixes

/-!
# Braces and environments that do not match

The lexer keeps the open braces and the open environments on two stacks, and
they may cross each other in any way.  What it reports is nevertheless a matter
of the lexemes alone: a closing brace is at fault if all braces before it are
closed, and at the end of the formula, of everything that is still open, the
one that begins last is reported with its own place.
-/

namespace FormulaMarkup

/-- The fault of a token that has opened something, at the end of the formula. -/
def Token.unclosed? : Token → Option LexicalFault
  | .openBrace => some .unclosedGroup
  | .beginning name => some (.unclosedEnvironment name)
  | _ => none

theorem Token.eq_of_unclosed? {first second : Token} {fault : LexicalFault}
    (hfirst : first.unclosed? = some fault) (hsecond : second.unclosed? = some fault) :
    first = second := by
  cases first <;> cases hfirst <;> cases second <;> cases hsecond <;> rfl

/-- Of these lexemes, the one that begins last. -/
def IsLatest (opener : Lexeme) (openers : List Lexeme) : Prop :=
  opener ∈ openers ∧ ∀ other ∈ openers, other.span.start ≤ opener.span.start

theorem isLatest_cons_iff {opener first : Lexeme} {rest : List Lexeme}
    (hordered : ∀ other ∈ rest, other.span.start < first.span.start) :
    IsLatest opener (first :: rest) ↔ opener = first := by
  constructor
  · rintro ⟨hmem, hlatest⟩
    rcases List.mem_cons.mp hmem with rfl | hlater
    · rfl
    · have hbefore := hordered opener hlater
      have hafter := hlatest first List.mem_cons_self
      omega
  · rintro rfl
    refine ⟨List.mem_cons_self, List.forall_mem_cons.mpr ⟨Nat.le_refl _, ?_⟩⟩
    exact fun other hmem => Nat.le_of_lt (hordered other hmem)

theorem IsLatest.unique {openers : List Lexeme} {first second : Lexeme}
    (hordered : openers.Pairwise fun later earlier => earlier.span.start < later.span.start)
    (hfirst : IsLatest first openers) (hsecond : IsLatest second openers) : first = second := by
  cases openers with
  | nil => exact absurd hfirst.1 List.not_mem_nil
  | cons opener others =>
      have hothers := (List.pairwise_cons.mp hordered).1
      rw [isLatest_cons_iff hothers] at hfirst hsecond
      rw [hfirst, hsecond]

theorem Lexeme.eq_of_brace? {lexeme : Lexeme} {offset : Nat}
    (hbrace : lexeme.brace? = some offset) :
    lexeme.token = .openBrace ∧ lexeme.span.start = offset := by
  obtain ⟨token, span⟩ := lexeme
  cases token <;> cases hbrace
  exact ⟨rfl, rfl⟩

theorem Lexeme.eq_of_environment? {lexeme : Lexeme} {name : String} {span : Span}
    (henvironment : lexeme.environment? = some (name, span)) :
    lexeme.token = .beginning name ∧ lexeme.span = span := by
  obtain ⟨token, place⟩ := lexeme
  cases token <;> cases henvironment
  exact ⟨rfl, rfl⟩

section Prefixes

variable {formula : String} {before : List Lexeme}

/-- What is still open begins the later, the higher it is on the stack. -/
theorem pairwise_stillOpen (hread : before <+: tokenize formula) (hformed : WellFormed before) :
    (stillOpen before).Pairwise fun later earlier => earlier.span.start < later.span.start := by
  have hspans := (interleaves_tokenize formula).pairwise
  have hbefore : before.Pairwise fun first second => first.span.start < second.span.start := by
    refine (hspans.sublist hread.sublist).imp_of_mem ?_
    intro first second _ hsecond hspan
    have hbetween := hspan (hformed second hsecond)
    omega
  rw [← List.pairwise_reverse]
  exact hbefore.sublist (reverse_stillOpen_sublist before)

theorem stop_of_openBrace {brace : Lexeme} (hmem : brace ∈ tokenize formula)
    (htoken : brace.token = .openBrace) : brace.span.stop = brace.span.start + 1 := by
  obtain ⟨lead, text, after, _, htext, hspan⟩ :=
    (interleaves_tokenize formula).exists_text hmem (by simp [htoken])
  rw [htoken] at htext
  obtain rfl : text = ['{'] := htext
  rw [hspan]
  rfl

end Prefixes

namespace Lexer

variable {lexer : Lexer} {stack : List Lexeme}

/-! ## The end of a formula -/

/-- At the end the opener on top of the stack is reported. -/
theorem Tracks.endLexeme_cons {opener : Lexeme} (htracks : lexer.Tracks (opener :: stack))
    (hordered : ∀ other ∈ stack, other.span.start < opener.span.start)
    (hspan : opener.token = .openBrace → opener.span.stop = opener.span.start + 1) :
    ∃ fault, opener.token.unclosed? = some fault ∧
      lexer.endLexeme = ⟨.malformed fault, opener.span⟩ := by
  obtain ⟨hgroups, henvironments, hopener⟩ := htracks
  rcases hopener opener List.mem_cons_self with hbrace | hbegin
  · obtain ⟨offset, hoffset⟩ := Option.isSome_iff_exists.mp hbrace
    obtain ⟨htoken, rfl⟩ := Lexeme.eq_of_brace? hoffset
    have hnone := opener.environment?_eq_none_of_brace? hbrace
    rw [List.filterMap_cons_some hoffset] at hgroups
    rw [List.filterMap_cons_none hnone] at henvironments
    have hplace : (⟨opener.span.start, opener.span.start + 1⟩ : Span) = opener.span := by
      rw [← hspan htoken]
    refine ⟨.unclosedGroup, by rw [htoken]; rfl, ?_⟩
    unfold endLexeme
    rw [hgroups]
    cases hopen : lexer.openEnvironments with
    | nil => simp only [hplace]
    | cons environment others =>
        -- The last environment that is open was begun before the brace.
        have hmem : environment ∈ stack.filterMap Lexeme.environment? := by
          simp [← henvironments, hopen]
        obtain ⟨other, hother, hsome⟩ := List.mem_filterMap.mp hmem
        have hearlier := hordered other hother
        rw [(Lexeme.eq_of_environment? hsome).2] at hearlier
        simp only [hearlier, if_true, hplace]
  · obtain ⟨⟨name, span⟩, hsome⟩ := Option.isSome_iff_exists.mp hbegin
    obtain ⟨htoken, rfl⟩ := Lexeme.eq_of_environment? hsome
    have hnone := opener.brace?_eq_none_of_environment? hbegin
    rw [List.filterMap_cons_none hnone] at hgroups
    rw [List.filterMap_cons_some hsome] at henvironments
    refine ⟨.unclosedEnvironment name, by rw [htoken]; rfl, ?_⟩
    unfold endLexeme
    rw [henvironments]
    cases hopen : lexer.openGroups with
    | nil => rfl
    | cons group others =>
        have hmem : group ∈ stack.filterMap Lexeme.brace? := by simp [← hgroups, hopen]
        obtain ⟨other, hother, hbrace⟩ := List.mem_filterMap.mp hmem
        have hearlier := hordered other hother
        rw [(Lexeme.eq_of_brace? hbrace).2] at hearlier
        simp only [Nat.not_lt.mpr (Nat.le_of_lt hearlier), if_false]

/-- The rest of the lexemes, where nothing but a gap is left. -/
theorem Tracks.lexemes_of_end (htracks : lexer.Tracks stack) (hrest : lexer.skipGap.rest = [])
    (hordered : stack.Pairwise fun later earlier => earlier.span.start < later.span.start)
    (hspans : ∀ opener ∈ stack, opener.token = .openBrace →
      opener.span.stop = opener.span.start + 1) :
    (stack = [] ∧ lexer.lexemes = []) ∨
      ∃ opener fault, IsLatest opener stack ∧ opener.token.unclosed? = some fault ∧
        lexer.lexemes = [⟨.malformed fault, opener.span⟩] := by
  let here : Lexer := { lexer.skipGap with textBoxNext := false }
  have hscan : lexer.scan = (here.endLexeme, here) := by simp only [Lexer.scan, hrest, here]
  have hhere : here.Tracks stack := ⟨htracks.groups, htracks.environments, htracks.opener⟩
  rw [lexemes_eq, hscan]
  cases stack with
  | nil =>
      have hgroups : here.openGroups = [] := hhere.groups
      have henvironments : here.openEnvironments = [] := hhere.environments
      left
      simp [endLexeme, hgroups, henvironments, Token.isLast]
  | cons opener others =>
      obtain ⟨hfirst, _⟩ := List.pairwise_cons.mp hordered
      obtain ⟨fault, hfault, hend⟩ :=
        hhere.endLexeme_cons hfirst (hspans opener List.mem_cons_self)
      right
      refine ⟨opener, fault, (isLatest_cons_iff hfirst).mpr rfl, hfault, ?_⟩
      simp [hend, Token.isLast]

/-- Unclosed constructs are reported at the end only. -/
theorem Scans.rest_eq_nil_of_unclosed {boxed : Bool} {result : Lexeme × Lexer}
    (hscans : Scans boxed lexer result) {token : Token} {fault : LexicalFault}
    (hfault : token.unclosed? = some fault) (htoken : result.1.token = .malformed fault) :
    lexer.rest = [] := by
  cases hscans with
  | finish hrest => exact hrest
  | @plain c _ hrest hplain =>
      have hlast := isLast_characterToken c
      rw [show characterToken c = .malformed fault from htoken] at hlast
      cases hlast
  | broken hbroken hrest hne =>
      cases htoken
      cases token <;> cases hfault <;> simp at hbroken
  | unmatchedClose | nul =>
      cases htoken
      cases token <;> cases hfault
  | _ => cases htoken

theorem lexemes_of_malformed {fault : LexicalFault}
    (htoken : lexer.scan.1.token = .malformed fault) : lexer.lexemes = [lexer.scan.1] := by
  rw [lexemes_eq, htoken]
  rfl

theorem endOfInput_of_lexemes (hlexemes : lexer.lexemes = []) :
    lexer.scan.1.token = .endOfInput := by
  rw [lexemes_eq] at hlexemes
  split at hlexemes
  · split at hlexemes
    · assumption
    · cases hlexemes
  · cases hlexemes

theorem exists_fault_of_isLast (hlast : lexer.scan.1.token.isLast = true)
    (hrest : lexer.skipGap.rest ≠ []) : ∃ fault, lexer.scan.1.token = .malformed fault :=
  Token.exists_fault_of_isLast hlast fun hend => hrest (lexer.scans_scan.rest_eq_nil hend)

/-! ## Closing braces -/

theorem Scans.unmatched {boxed : Bool} {result : Lexeme × Lexer}
    (hscans : Scans boxed lexer result) (htoken : result.1.token = .malformed .unmatchedClose) :
    lexer.openGroups = [] ∧ ∃ rest, lexer.rest = '}' :: rest ∧
      result.1.span = ⟨lexer.position, lexer.position + 1⟩ := by
  cases hscans with
  | unmatchedClose hrest hgroups => exact ⟨hgroups, _, hrest, rfl⟩
  | finish hrest =>
      unfold endLexeme at htoken
      split at htoken
      · cases htoken
      · cases htoken
      · cases htoken
      · split at htoken <;> cases htoken
  | @plain c _ hrest hplain =>
      have hlast := isLast_characterToken c
      rw [show characterToken c = .malformed .unmatchedClose from htoken] at hlast
      cases hlast
  | broken hbroken hrest hne =>
      cases htoken
      simp at hbroken
  | _ => cases htoken

theorem scanCharacter_closeBrace (lexer : Lexer) (hgroups : lexer.openGroups = [])
    (rest : List Char) :
    lexer.scanCharacter '}' rest = lexer.emit (.malformed .unmatchedClose) ['}'] rest := by
  simp [scanCharacter, hgroups]

theorem scan_of_closeBrace {after : List Char} (hrest : lexer.skipGap.rest = '}' :: after)
    (hgroups : lexer.openGroups = []) :
    lexer.scan.1 = ⟨.malformed .unmatchedClose,
      ⟨lexer.skipGap.position, lexer.skipGap.position + 1⟩⟩ := by
  have hopen : ('}' == '{') = false := by decide
  have hslash : ('}' == '\\') = false := by decide
  rw [scan_of_skipGap hrest]
  simp only [hopen, hslash, Bool.and_false, Bool.false_eq_true, if_false]
  exact congrArg Prod.fst
    (scanCharacter_closeBrace { lexer.skipGap with textBoxNext := false } hgroups after)

theorem Tracks.openGroups_eq_nil_iff (htracks : lexer.Tracks stack) :
    lexer.openGroups = [] ↔ ∀ opener ∈ stack, opener.token ≠ .openBrace := by
  rw [htracks.groups, List.filterMap_eq_nil_iff]
  refine forall₂_congr fun opener hmem => ?_
  obtain ⟨token, span⟩ := opener
  cases token <;> simp [Lexeme.brace?]

end Lexer

/-! ## Places of closing braces -/

/-- In a gap, a visible character stands in a comment. -/
theorem IsGap.exists_comment {after gap : List Char} (hgap : IsGap after gap)
    {front back : List Char} {c : Char} (hblank : isBlank c = false) (hpercent : c ≠ '%')
    (hsplit : gap = front ++ c :: back) :
    ∃ start body, front = start ++ '%' :: body ∧ '\n' ∉ body ∧
      IsGap ('%' :: (body ++ c :: (back ++ after))) start := by
  induction hgap generalizing front with
  | nothing => simp at hsplit
  | @blank d rest hd _ ih =>
      cases front with
      | nil =>
          obtain ⟨rfl, _⟩ := List.cons.inj hsplit
          rw [hblank] at hd
          cases hd
      | cons e front =>
          obtain ⟨rfl, hrest⟩ := List.cons.inj hsplit
          obtain ⟨start, body, rfl, hbody, hstart⟩ := ih hrest
          exact ⟨d :: start, body, rfl, hbody, .blank hd hstart⟩
  | @comment inner rest hinner hstop _ ih =>
      cases front with
      | nil => exact absurd (List.cons.inj hsplit).1.symm hpercent
      | cons e front =>
          obtain ⟨rfl, hrest⟩ := List.cons.inj hsplit
          rcases exists_of_append_eq_append_cons hrest with ⟨tail, rfl, _⟩ | ⟨lead, rfl, hlater⟩
          · exact ⟨[], front, rfl, fun hline => hinner (List.mem_append_left _ hline), .nothing⟩
          · obtain ⟨start, body, rfl, hbody, hstart⟩ := ih hlater
            refine ⟨'%' :: (inner ++ start), body, by simp, hbody, .comment hinner ?_ hstart⟩
            simpa [hlater] using hstop

/-- A token that has a closing brace after its first character. -/
theorem Token.kind_of_closeBrace {token : Token} {front back after : List Char}
    (htext : token.IsSpelled (front ++ '}' :: back) after) (hfront : front ≠ []) :
    (∃ content, token = .rawText content) ∨ token.isMark = true ∨
      token = .command "\\\x7d" := by
  have hlong (c : Char) : front ++ '}' :: back ≠ [c] := by
    cases front with
    | nil => exact absurd rfl hfront
    | cons d front => simp
  cases token with
  | beginning name | ending name => exact .inr (.inl rfl)
  | rawText content => exact .inl ⟨content, rfl⟩
  | command name =>
      obtain ⟨hname, ⟨word, rfl, hword⟩, _⟩ := htext
      rw [String.toList_ofList] at hname
      have hmem : '}' ∈ word := by
        cases front with
        | nil => exact absurd rfl hfront
        | cons d front =>
            rw [← (List.cons.inj hname).2]
            simp
      cases hword with
      | word hletters _ _ _ => exact absurd (hletters _ hmem) (by decide)
      | starred hletters _ _ =>
          rcases List.mem_append.mp hmem with hletter | hstar
          · exact absurd (hletters _ hletter) (by decide)
          · exact absurd (List.mem_singleton.mp hstar) (by decide)
      | symbol _ _ _ =>
          obtain rfl := List.mem_singleton.mp hmem
          exact .inr (.inr rfl)
  | script side => cases side <;> exact absurd htext (hlong _)
  | nextRow =>
      have hmem : '}' ∈ ['\\', '\\'] := by
        rw [← show front ++ '}' :: back = ['\\', '\\'] from htext]
        simp
      exact absurd hmem (by decide)
  | endOfInput | malformed => cases htext
  | _ => exact absurd htext (hlong _)

/-- Where a closing brace can stand in a formula. -/
inductive BracePlace (formula : String) (passed after : List Char) : Prop
  /-- It begins a token. -/
  | beginsToken {before : List Lexeme} (hnext : ComesNext formula before ('}' :: after))
  /-- It is in a comment, which begins after some lexemes and a gap. -/
  | inComment {before : List Lexeme} {lead start body : List Char}
      (hread : before <+: tokenize formula) (hformed : WellFormed before)
      (hlead : byteLength lead = stopOf before)
      (hstart : IsGap ('%' :: (body ++ '}' :: after)) start)
      (hpassed : passed = lead ++ (start ++ '%' :: body)) (hbody : '\n' ∉ body)
  /-- It belongs to a text box, to the mark of an environment or to a control symbol. -/
  | inToken {lexeme : Lexeme} (hmem : lexeme ∈ tokenize formula)
      (hcovers : lexeme.Covers (byteLength passed))
      (hkind : (∃ content, lexeme.token = .rawText content) ∨ lexeme.token.isMark = true ∨
        lexeme.token = .command "\\\x7d")
  /-- It comes after the beginning of a malformed token. -/
  | behindFault {before : List Lexeme} {fault : LexicalFault} {span : Span} {front : List Char}
      (hlexemes : tokenize formula = before ++ [⟨.malformed fault, span⟩])
      (hnext : ComesNext formula before (front ++ '}' :: after)) (hfront : front ≠ [])

theorem bracePlace_of_steps {formula : String} {lexer : Lexer} {before : List Lexeme}
    (hsteps : (Lexer.start formula).Steps before lexer) {passed inner after : List Char}
    (hformula : formula.toList = passed ++ '}' :: after)
    (hrest : lexer.rest = inner ++ '}' :: after) : BracePlace formula passed after := by
  induction hlength : lexer.rest.length using Nat.strongRecOn generalizing lexer before inner with
  | ind size ih =>
      subst hlength
      obtain ⟨lead, hlead, hstop⟩ := hsteps.exists_passed
      obtain ⟨gap, hgap, hisGap, hstart⟩ := lexer.exists_gap
      have hnext : ComesNext formula before lexer.skipGap.rest :=
        comesNext_iff.mpr ⟨lexer, hsteps, rfl⟩
      have hpassed : passed = lead ++ inner := by
        have htext : passed ++ '}' :: after = lead ++ inner ++ '}' :: after := by
          rw [← hformula, hlead, hrest, List.append_assoc]
        exact List.append_cancel_right htext
      rcases exists_of_append_eq_append_cons (hgap.symm.trans hrest) with
        ⟨back, hinside, hback⟩ | ⟨front, rfl, hafter⟩
      · -- The brace is in the gap, so it is in a comment.
        obtain ⟨start, body, rfl, hbody, hcomment⟩ :=
          hisGap.exists_comment (by decide) (by decide) hinside
        rw [← hback] at hcomment
        exact .inComment hnext.read hnext.formed hstop hcomment hpassed hbody
      by_cases hfront : front = []
      · subst hfront
        exact .beginsToken (hafter ▸ hnext)
      rw [hafter] at hnext
      cases hlast : lexer.scan.1.token.isLast with
      | true =>
          have hsome : lexer.skipGap.rest ≠ [] := by simp [hafter]
          obtain ⟨fault, htoken⟩ := Lexer.exists_fault_of_isLast hlast hsome
          have hlexemes : tokenize formula =
              before ++ [⟨.malformed fault, lexer.scan.1.span⟩] := by
            rw [← htoken, ← Lexer.lexemes_of_malformed htoken]
            exact hsteps.lexemes_eq
          exact .behindFault hlexemes hnext hfront
      | false =>
          obtain ⟨text, htaken, htext, hspan, _⟩ := lexer.isSpelled_scan hlast
          have hread := hsteps.concat hlast
          rcases exists_of_append_eq_append_cons (htaken.symm.trans hafter) with
            ⟨back, rfl, _⟩ | ⟨later, rfl, hlater⟩
          · have hmem : lexer.scan.1 ∈ tokenize formula := by
              rw [show tokenize formula = _ from hread.lexemes_eq]
              simp
            refine .inToken hmem ?_ (Token.kind_of_closeBrace htext hfront)
            have hposition : stopOf before = lexer.position := hsteps.stop
            rw [Lexeme.Covers, hspan, hstart, hpassed, ← hposition, ← hstop]
            simp only [byteLength_append, byteLength_cons]
            have hbrace := Char.utf8Size_pos '}'
            omega
          · exact ih _ (lexer.length_rest_scan_lt hlast) hread hlater rfl

/-! ## The faults of a formula -/

section Faults

variable {formula : String} {before : List Lexeme}

theorem tokenize_eq_unmatchedClose_iff {span : Span} :
    tokenize formula = before ++ [⟨.malformed .unmatchedClose, span⟩] ↔
      ∃ passed after, formula.toList = passed ++ '}' :: after ∧ span = textSpan passed ['}'] ∧
        ComesNext formula before ('}' :: after) ∧
        ∀ opener ∈ stillOpen before, opener.token ≠ .openBrace := by
  constructor
  · intro hlexemes
    obtain ⟨final, hsteps, hscan⟩ := Lexer.exists_steps_of_lexemes hlexemes
    have htracks := hsteps.tracks (Lexer.tracks_start formula)
    obtain ⟨hgroups, after, hrest, hspan⟩ := final.scans_scan.unmatched (by rw [hscan])
    obtain ⟨passed, hpassed, hposition⟩ := hsteps.exists_before_next
    have hrest : final.skipGap.rest = '}' :: after := hrest
    have hspan : final.scan.1.span =
        ⟨final.skipGap.position, final.skipGap.position + 1⟩ := hspan
    refine ⟨passed, after, by rw [hpassed, hrest], ?_, ?_, ?_⟩
    · rw [hscan, hposition] at hspan
      exact hspan
    · exact comesNext_iff.mpr ⟨final, hsteps, hrest⟩
    · exact htracks.openGroups_eq_nil_iff.mp hgroups
  · rintro ⟨passed, after, hformula, rfl, hnext, hclosed⟩
    obtain ⟨final, hsteps, hrest⟩ := comesNext_iff.mp hnext
    have htracks := hsteps.tracks (Lexer.tracks_start formula)
    have hscan := Lexer.scan_of_closeBrace hrest (htracks.openGroups_eq_nil_iff.mpr hclosed)
    obtain ⟨front, hfront, hposition⟩ := hsteps.exists_before_next
    rw [hrest, hformula] at hfront
    obtain rfl := List.append_cancel_right hfront
    calc tokenize formula = before ++ final.lexemes := hsteps.lexemes_eq
      _ = before ++ [final.scan.1] := by
        rw [Lexer.lexemes_of_malformed (congrArg Lexeme.token hscan)]
      _ = _ := by
        rw [hscan, hposition]
        rfl

/-- What is known where nothing but a gap is left: the stack is that of the lexemes,
and the rest of the lexemes is found by looking at it. -/
theorem ComesNext.lexemes_of_end (hnext : ComesNext formula before []) :
    (stillOpen before = [] ∧ tokenize formula = before) ∨
      ∃ opener fault, IsLatest opener (stillOpen before) ∧ opener.token.unclosed? = some fault ∧
        tokenize formula = before ++ [⟨.malformed fault, opener.span⟩] := by
  obtain ⟨final, hsteps, hrest⟩ := comesNext_iff.mp hnext
  have htracks := hsteps.tracks (Lexer.tracks_start formula)
  have hlexemes : tokenize formula = before ++ final.lexemes := hsteps.lexemes_eq
  have hspans : ∀ opener ∈ stillOpen before, opener.token = .openBrace →
      opener.span.stop = opener.span.start + 1 := by
    intro opener hmem htoken
    have hbefore : opener ∈ before :=
      (reverse_stillOpen_sublist before).subset (List.mem_reverse.mpr hmem)
    exact stop_of_openBrace (hnext.read.subset hbefore) htoken
  rcases htracks.lexemes_of_end hrest (pairwise_stillOpen hnext.read hnext.formed) hspans with
    ⟨hnothing, hfinal⟩ | ⟨opener, fault, hlatest, hfault, hfinal⟩
  · exact .inl ⟨hnothing, by rw [hlexemes, hfinal, List.append_nil]⟩
  · exact .inr ⟨opener, fault, hlatest, hfault, by rw [hlexemes, hfinal]⟩

theorem tokenize_eq_wellFormed_iff :
    tokenize formula = before ∧ WellFormed before ↔
      ComesNext formula before [] ∧ stillOpen before = [] := by
  constructor
  · rintro ⟨rfl, hformed⟩
    obtain ⟨final, hsteps⟩ := Lexer.exists_steps List.prefix_rfl hformed
    have hfinal : final.lexemes = [] := List.self_eq_append_right.mp hsteps.lexemes_eq
    have hrest := final.scans_scan.rest_eq_nil (Lexer.endOfInput_of_lexemes hfinal)
    exact ⟨comesNext_iff.mpr ⟨final, hsteps, hrest⟩, (wellLexed_tokenize formula).closed hformed⟩
  · rintro ⟨hnext, hclosed⟩
    rcases hnext.lexemes_of_end with ⟨_, hlexemes⟩ | ⟨opener, fault, hlatest, _⟩
    · exact ⟨hlexemes, hnext.formed⟩
    · rw [hclosed] at hlatest
      exact absurd hlatest.1 List.not_mem_nil

theorem tokenize_eq_unclosed_iff {opener : Lexeme} {fault : LexicalFault}
    (hfault : opener.token.unclosed? = some fault) :
    tokenize formula = before ++ [⟨.malformed fault, opener.span⟩] ↔
      ComesNext formula before [] ∧ IsLatest opener (stillOpen before) := by
  constructor
  · intro hlexemes
    obtain ⟨final, hsteps, hscan⟩ := Lexer.exists_steps_of_lexemes hlexemes
    have hrest := final.scans_scan.rest_eq_nil_of_unclosed hfault (by rw [hscan])
    have hnext : ComesNext formula before [] := comesNext_iff.mpr ⟨final, hsteps, hrest⟩
    refine ⟨hnext, ?_⟩
    rcases hnext.lexemes_of_end with ⟨_, hsilent⟩ | ⟨other, reported, hlatest, hother, hreported⟩
    · simp [hsilent] at hlexemes
    · have hsame := List.append_cancel_left (hreported.symm.trans hlexemes)
      simp only [List.cons.injEq, Lexeme.mk.injEq, Token.malformed.injEq, and_true] at hsame
      obtain ⟨rfl, hspan⟩ := hsame
      have htoken := Token.eq_of_unclosed? hother hfault
      obtain ⟨token, span⟩ := opener
      simp only at hspan htoken
      rw [← hspan, ← htoken]
      exact hlatest
  · rintro ⟨hnext, hlatest⟩
    rcases hnext.lexemes_of_end with ⟨hclosed, _⟩ | ⟨other, reported, hother, hreported, hlexemes⟩
    · rw [hclosed] at hlatest
      exact absurd hlatest.1 List.not_mem_nil
    · obtain rfl := hlatest.unique (pairwise_stillOpen hnext.read hnext.formed) hother
      obtain rfl : fault = reported := Option.some.inj (hfault.symm.trans hreported)
      exact hlexemes

end Faults

/-- A closing brace is at fault exactly if it begins a token and no brace before it
is open.  A formula that is read to its end leaves nothing open, or the opener that
begins last among those still open is reported with its place.  Any other closing
brace stands in a comment, in a text box, in the mark of an environment, in a control
symbol, or behind the beginning of a malformed token. -/
theorem tokenize_bracket_faults (formula : String) :
    (∀ before span, tokenize formula = before ++ [⟨.malformed .unmatchedClose, span⟩] ↔
      ∃ passed after, formula.toList = passed ++ '}' :: after ∧ span = textSpan passed ['}'] ∧
        ComesNext formula before ('}' :: after) ∧
        ∀ opener ∈ stillOpen before, opener.token ≠ .openBrace) ∧
    (∀ before, tokenize formula = before ∧ WellFormed before ↔
      ComesNext formula before [] ∧ stillOpen before = []) ∧
    (∀ before opener fault, opener.token.unclosed? = some fault →
      (tokenize formula = before ++ [⟨.malformed fault, opener.span⟩] ↔
        ComesNext formula before [] ∧ IsLatest opener (stillOpen before))) ∧
    (∀ before, ComesNext formula before [] → stillOpen before ≠ [] →
      ∃ opener fault, IsLatest opener (stillOpen before) ∧
        opener.token.unclosed? = some fault) ∧
    ∀ passed after, formula.toList = passed ++ '}' :: after →
      BracePlace formula passed after := by
  refine ⟨?_, ?_, ?_, ?_, ?_⟩
  · exact fun before span => tokenize_eq_unmatchedClose_iff
  · exact fun before => tokenize_eq_wellFormed_iff
  · exact fun before opener fault hfault => tokenize_eq_unclosed_iff hfault
  · intro before hnext hopen
    rcases hnext.lexemes_of_end with ⟨hclosed, _⟩ | ⟨opener, fault, hlatest, hfault, _⟩
    · exact absurd hclosed hopen
    · exact ⟨opener, fault, hlatest, hfault⟩
  · intro passed after hformula
    exact bracePlace_of_steps .done hformula hformula

/-- The end of an environment closes the environment across an open brace, whatever
its name is, and the brace in front of all is left. -/
theorem tokenize_bracket_faults_crossing :
    tokenize "\x7b\\begin\x7ba\x7d\x7b\\end\x7bb\x7d\x7d" =
        [⟨.openBrace, ⟨0, 1⟩⟩, ⟨.beginning "a", ⟨1, 10⟩⟩, ⟨.openBrace, ⟨10, 11⟩⟩,
          ⟨.ending "b", ⟨11, 18⟩⟩, ⟨.closeBrace, ⟨18, 19⟩⟩] ++
          [⟨.malformed .unclosedGroup, ⟨0, 1⟩⟩] ∧
      IsLatest ⟨.openBrace, ⟨0, 1⟩⟩
        (stillOpen [⟨.openBrace, ⟨0, 1⟩⟩, ⟨.beginning "a", ⟨1, 10⟩⟩, ⟨.openBrace, ⟨10, 11⟩⟩,
          ⟨.ending "b", ⟨11, 18⟩⟩, ⟨.closeBrace, ⟨18, 19⟩⟩]) := by
  have hlexemes : tokenize "\x7b\\begin\x7ba\x7d\x7b\\end\x7bb\x7d\x7d" =
      [⟨.openBrace, ⟨0, 1⟩⟩, ⟨.beginning "a", ⟨1, 10⟩⟩, ⟨.openBrace, ⟨10, 11⟩⟩,
        ⟨.ending "b", ⟨11, 18⟩⟩, ⟨.closeBrace, ⟨18, 19⟩⟩] ++
        [⟨.malformed .unclosedGroup, ⟨0, 1⟩⟩] := by
    decide +kernel
  obtain ⟨_, _, hunclosed, _, _⟩ :=
    tokenize_bracket_faults "\x7b\\begin\x7ba\x7d\x7b\\end\x7bb\x7d\x7d"
  have hlatest := ((hunclosed _ ⟨.openBrace, ⟨0, 1⟩⟩ .unclosedGroup rfl).mp hlexemes).2
  exact ⟨hlexemes, hlatest⟩

end FormulaMarkup
