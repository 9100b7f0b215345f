import FormulaMarkup.Proofs.OpenConstructs

/-!
# Where the next token begins

A formula that has been read without a fault up to some lexeme goes on with a
gap, and after the gap with the characters of the next token.  This place is
determined by the lexemes and the characters of the formula.  The lexer is
there after as many steps as there are lexemes, with the stacks that these
lexemes have left.
-/

namespace FormulaMarkup

/-! ## Gaps -/

/-- A comment ends before a line break, which is a blank in any case. -/
theorem splitGap_comment {body tail : List Char} (hbody : '\n' ∉ body)
    (hstop : ∀ c ∈ tail.head?, c = '\n') :
    splitGap true (body ++ tail) = (body ++ (splitGap false tail).1, (splitGap false tail).2) := by
  induction body with
  | nil =>
      cases tail with
      | nil => rfl
      | cons c rest =>
          obtain rfl := hstop c rfl
          have hblank : isBlank '\n' = true := by decide
          simp [splitGap, hblank]
  | cons c rest ih =>
      simp only [List.mem_cons, not_or] at hbody
      have hline : (c != '\n') = true := by simpa using Ne.symm hbody.1
      simp [splitGap, hline, ih hbody.2]

theorem isBlank_percent : isBlank '%' = false := by decide

/-- Before a visible character the characters of a gap are what is skipped. -/
theorem IsGap.splitGap_append {after gap : List Char} (hgap : IsGap after gap)
    (hvisible : ∀ c ∈ after.head?, isBlank c = false ∧ c ≠ '%') :
    splitGap false (gap ++ after) = (gap, after) := by
  induction hgap with
  | nothing =>
      cases after with
      | nil => rfl
      | cons c rest =>
          obtain ⟨hblank, hpercent⟩ := hvisible c rfl
          simp [splitGap, hblank, hpercent]
  | @blank c rest hblank _ ih =>
      have hpercent : (c == '%') = false := by
        rw [beq_eq_false_iff_ne]
        rintro rfl
        rw [isBlank_percent] at hblank
        cases hblank
      simp [splitGap, hblank, hpercent, ih]
  | @comment body rest hbody hstop _ ih =>
      have hinside := splitGap_comment hbody hstop
      rw [ih] at hinside
      simp [splitGap, hinside]

namespace Lexer

/-! ## Steps -/

/-- The lexer goes from one place to another by reading these lexemes. -/
inductive Steps : Lexer → List Lexeme → Lexer → Prop
  | done {lexer : Lexer} : Steps lexer [] lexer
  | next {lexer final : Lexer} {lexemes : List Lexeme}
      (hlast : lexer.scan.1.token.isLast = false) (hrest : Steps lexer.scan.2 lexemes final) :
      Steps lexer (lexer.scan.1 :: lexemes) final

variable {lexer final : Lexer} {before : List Lexeme}

theorem Steps.lexemes_eq (hsteps : Steps lexer before final) :
    lexer.lexemes = before ++ final.lexemes := by
  induction hsteps with
  | done => rfl
  | next hlast _ ih => rw [Lexer.lexemes_eq, if_neg (by simp [hlast]), ih, List.cons_append]

theorem Steps.concat (hsteps : Steps lexer before final)
    (hlast : final.scan.1.token.isLast = false) :
    Steps lexer (before ++ [final.scan.1]) final.scan.2 := by
  induction hsteps with
  | done => exact .next hlast .done
  | next hfirst _ ih => exact .next hfirst (ih hlast)

theorem Steps.wellFormed (hsteps : Steps lexer before final) : WellFormed before := by
  induction hsteps with
  | done => exact nofun
  | next hlast _ ih =>
      refine List.forall_mem_cons.mpr ⟨?_, ih⟩
      intro fault htoken
      rw [htoken] at hlast
      cases hlast

theorem exists_steps (hread : before <+: lexer.lexemes) (hformed : WellFormed before) :
    ∃ final, Steps lexer before final := by
  induction lexer using lexemes_induction generalizing before with
  | finish lexer hend =>
      obtain rfl := List.prefix_nil.mp hread
      exact ⟨lexer, .done⟩
  | malformed lexer fault htoken =>
      cases before with
      | nil => exact ⟨lexer, .done⟩
      | cons first others =>
          obtain ⟨rfl, _⟩ := List.cons_prefix_cons.mp hread
          exact absurd htoken (hformed _ List.mem_cons_self fault)
  | next lexer hlast ih =>
      cases before with
      | nil => exact ⟨lexer, .done⟩
      | cons first others =>
          obtain ⟨rfl, hothers⟩ := List.cons_prefix_cons.mp hread
          obtain ⟨final, hsteps⟩ := ih hothers (List.forall_mem_cons.mp hformed).2
          exact ⟨final, .next hlast hsteps⟩

/-- Only the last lexeme can be malformed. -/
theorem wellFormed_of_lexemes {lexeme : Lexeme} {after : List Lexeme}
    (hlexemes : lexer.lexemes = before ++ lexeme :: after) : WellFormed before := by
  induction lexer using lexemes_induction generalizing before with
  | finish lexer hend => simp at hlexemes
  | malformed lexer fault htoken =>
      cases before with
      | nil => exact nofun
      | cons first others => simp at hlexemes
  | next lexer hlast ih =>
      cases before with
      | nil => exact nofun
      | cons first others =>
          obtain ⟨rfl, hothers⟩ := List.cons.inj hlexemes
          refine List.forall_mem_cons.mpr ⟨?_, ih hothers⟩
          intro fault htoken
          rw [htoken] at hlast
          cases hlast

/-- Each lexeme is read after steps over the lexemes before it. -/
theorem exists_steps_of_lexemes {lexeme : Lexeme} {after : List Lexeme}
    (hlexemes : lexer.lexemes = before ++ lexeme :: after) :
    ∃ final, Steps lexer before final ∧ final.scan.1 = lexeme := by
  have hformed := wellFormed_of_lexemes hlexemes
  obtain ⟨final, hsteps⟩ := exists_steps ⟨_, hlexemes.symm⟩ hformed
  refine ⟨final, hsteps, ?_⟩
  have hrest : final.lexemes = lexeme :: after :=
    List.append_cancel_left (hsteps.lexemes_eq.symm.trans hlexemes)
  rw [Lexer.lexemes_eq] at hrest
  split at hrest
  · split at hrest
    · cases hrest
    · exact (List.cons.inj hrest).1
  · exact (List.cons.inj hrest).1

theorem Steps.tracks (hsteps : Steps lexer before final) {stack : List Lexeme}
    (htracks : lexer.Tracks stack) : final.Tracks (before.foldl openAfter stack) := by
  induction hsteps generalizing stack with
  | done => exact htracks
  | next _ _ ih => exact ih htracks.scan

theorem exists_gap (lexer : Lexer) :
    ∃ gap, lexer.rest = gap ++ lexer.skipGap.rest ∧ IsGap lexer.skipGap.rest gap ∧
      lexer.skipGap.position = lexer.position + byteLength gap :=
  ⟨_, (splitGap_append false lexer.rest).symm, isGap_splitGap lexer.rest, rfl⟩

/-- A step reads the spelling of its lexeme where the gap ends. -/
theorem isSpelled_scan (lexer : Lexer) (hlast : lexer.scan.1.token.isLast = false) :
    ∃ text, lexer.skipGap.rest = text ++ lexer.scan.2.rest ∧
      lexer.scan.1.token.IsSpelled text lexer.scan.2.rest ∧
      lexer.scan.1.span =
        ⟨lexer.skipGap.position, lexer.skipGap.position + byteLength text⟩ ∧
      lexer.scan.2.position = lexer.skipGap.position + byteLength text :=
  lexer.scans_scan.isSpelled hlast

/-- What the steps have passed over. -/
theorem Steps.place (hsteps : Steps lexer before final) :
    ∃ passed, lexer.rest = passed ++ final.rest ∧
      final.position = lexer.position + byteLength passed := by
  induction hsteps with
  | done => exact ⟨[], rfl, rfl⟩
  | @next lexer final lexemes hlast _ ih =>
      obtain ⟨gap, hgap, _, hstart⟩ := lexer.exists_gap
      obtain ⟨text, hrest, _, _, hposition⟩ := lexer.isSpelled_scan hlast
      obtain ⟨passed, hpassed, hfinal⟩ := ih
      refine ⟨gap ++ (text ++ passed), ?_, ?_⟩
      · rw [hgap, hrest, hpassed]
        simp
      · simp [hfinal, hposition, hstart, Nat.add_assoc]

/-- The steps end where the last lexeme ends. -/
theorem Steps.stop (hsteps : Steps lexer before final) :
    before.getLast?.elim lexer.position (fun lexeme => lexeme.span.stop) = final.position := by
  induction hsteps with
  | done => rfl
  | @next lexer final lexemes hlast _ ih =>
      obtain ⟨text, _, _, hspan, hposition⟩ := lexer.isSpelled_scan hlast
      have hstop : lexer.scan.1.span.stop = lexer.scan.2.position := by rw [hspan, hposition]
      rw [← ih, List.getLast?_cons]
      cases lexemes.getLast? with
      | none => exact hstop
      | some lexeme => rfl

end Lexer

/-! ## Characters that come next -/

/-- The offset behind the last lexeme. -/
def stopOf (lexemes : List Lexeme) : Nat :=
  lexemes.getLast?.elim 0 fun lexeme => lexeme.span.stop

/-- Steps from the beginning pass over the characters up to the last lexeme. -/
theorem Lexer.Steps.exists_passed {formula : String} {before : List Lexeme} {final : Lexer}
    (hsteps : (Lexer.start formula).Steps before final) :
    ∃ passed, formula.toList = passed ++ final.rest ∧ byteLength passed = stopOf before := by
  obtain ⟨passed, hpassed, hposition⟩ := hsteps.place
  have hstop : stopOf before = final.position := hsteps.stop
  refine ⟨passed, hpassed, ?_⟩
  rw [hstop, hposition]
  exact (Nat.zero_add _).symm

/-- The next token begins after the characters in front of it. -/
theorem Lexer.Steps.exists_before_next {formula : String} {before : List Lexeme} {final : Lexer}
    (hsteps : (Lexer.start formula).Steps before final) :
    ∃ passed, formula.toList = passed ++ final.skipGap.rest ∧
      final.skipGap.position = byteLength passed := by
  obtain ⟨lead, hlead, hlength⟩ := hsteps.exists_passed
  obtain ⟨gap, hgap, _, hposition⟩ := final.exists_gap
  have hstop : stopOf before = final.position := hsteps.stop
  refine ⟨lead ++ gap, by rw [hlead, List.append_assoc, ← hgap], ?_⟩
  rw [hposition, ← hstop, ← hlength, byteLength_append]

/-- The lexemes come first among those of the formula and are well formed, and
after the last of them and a gap these characters come next. -/
structure ComesNext (formula : String) (before : List Lexeme) (next : List Char) : Prop where
  read : before <+: tokenize formula
  formed : WellFormed before
  place : ∃ lead gap, formula.toList = lead ++ (gap ++ next) ∧ byteLength lead = stopOf before ∧
    IsGap next gap
  visible : ∀ c ∈ next.head?, isBlank c = false ∧ c ≠ '%'

/-- The lexer is where the next token begins. -/
theorem comesNext_iff {formula : String} {before : List Lexeme} {next : List Char} :
    ComesNext formula before next ↔
      ∃ final, (Lexer.start formula).Steps before final ∧ final.skipGap.rest = next := by
  constructor
  · rintro ⟨hread, hformed, ⟨lead, gap, hformula, hlead, hgap⟩, hvisible⟩
    obtain ⟨final, hsteps⟩ := Lexer.exists_steps hread hformed
    refine ⟨final, hsteps, ?_⟩
    obtain ⟨passed, hpassed, hlength⟩ := hsteps.exists_passed
    have hrest : final.rest = gap ++ next :=
      (append_inj_of_byteLength (hpassed.symm.trans hformula) (hlength.trans hlead.symm)).2
    rw [Lexer.skipGap, Lexer.rest_advance, hrest, hgap.splitGap_append hvisible]
  · rintro ⟨final, hsteps, rfl⟩
    obtain ⟨passed, hpassed, hlength⟩ := hsteps.exists_passed
    obtain ⟨gap, hrest, hgap, _⟩ := final.exists_gap
    refine ⟨⟨final.lexemes, hsteps.lexemes_eq.symm⟩, hsteps.wellFormed, ?_, ?_⟩
    · exact ⟨passed, gap, by rw [hpassed, ← hrest], hlength, hgap⟩
    · intro c hc
      obtain ⟨rest, hrest⟩ := List.head?_eq_some_iff.mp hc
      exact splitGap_rest_head false hrest

end FormulaMarkup
