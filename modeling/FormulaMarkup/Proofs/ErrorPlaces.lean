import FormulaMarkup.FormulaParser

/-!
# Where errors are raised

Lexemes are read from the front.  A reading that succeeds leaves a last part of
its lexemes.  A reading that fails has met a lexeme that its error is about, or
the end of the formula, which counts as a lexeme here.  An error is lexical
exactly if the lexeme that it is about is malformed.  No reading goes over a
command for chemical notation that is not allowed.

A group is entered after its brace, and the error for nesting too deep is about
the brace; so the brace is counted among the lexemes that the rest of a group
is read from.
-/

namespace FormulaMarkup

/-! ## One reading after another -/

/-- Goes on with the value and the lexemes that a reading leaves. -/
def Reading.andThen {α β : Type} (reading : Reading α) (next : α → List Lexeme → Reading β) :
    Reading β :=
  match reading with
  | .error error => .error error
  | .ok (value, rest) => next value rest

theorem readScripts_cons_script
    (rules : ReadingRules) (primary : NodeParser) (fewer : Nat) (base : Node) (side : Side)
    (span : Span) (rest : List Lexeme) :
    readScripts rules primary (fewer + 1) base (⟨.script side, span⟩ :: rest) =
      (readArgument rules primary rest).andThen fun attached after =>
        readScripts rules primary fewer (.script side base attached) after := by
  simp only [readScripts]
  rcases readArgument rules primary rest with error | ⟨attached, after⟩ <;> rfl

theorem readItem_of_not_script
    (rules : ReadingRules) (primary : NodeParser) (input : List Lexeme)
    (hscript : ∀ side, (rules.peek input).token ≠ .script side) :
    readItem rules primary input =
      (primary.run input).andThen (readScripts rules primary nestingLimit) := by
  unfold readItem
  split
  · next side hside => exact absurd hside (hscript side)
  · rcases primary.run input with error | ⟨base, rest⟩ <;> rfl

theorem readSequence_of_not_endsSequence
    (rules : ReadingRules) (primary : NodeParser) (input : List Lexeme)
    (hends : ¬ (rules.peek input).token.endsSequence = true) :
    readSequence rules primary input =
      (readItem rules primary input).andThen fun node rest =>
        (readSequence rules primary rest).andThen fun nodes after => .ok (node :: nodes, after) := by
  rw [readSequence_eq, if_neg hends]
  rcases readItem rules primary input with error | ⟨node, rest⟩
  · rfl
  · simp only [Reading.andThen]
    rcases readSequence rules primary rest with error | ⟨nodes, after⟩ <;> rfl

/-- The rest of a group after its nodes. -/
def closeGroup (rules : ReadingRules) (nodes : List Node) : List Lexeme → Reading Node
  | ⟨.closeBrace, _⟩ :: after => .ok (.sequence true nodes, after)
  | rest => .error (rules.peek rest).unexpected

theorem run_groupParser_some
    (rules : ReadingRules) (level : Level) (brace : Span) (input : List Lexeme) :
    (groupParser rules (some level) brace).run input =
      (readSequence rules level.primary input).andThen (closeGroup rules) := by
  simp only [groupParser]
  rcases readSequence rules level.primary input with error | ⟨nodes, rest⟩
  · rfl
  · rcases rest with _ | ⟨⟨token, span⟩, rest⟩
    · rfl
    · cases token <;> rfl

theorem readShaped_braced
    (rules : ReadingRules) (level : Level) (span : Span) (name : String) (input : List Lexeme) :
    readShaped rules level span name .braced input =
      (readBraced rules level name input).andThen fun argument rest =>
        .ok (.unary .braced name argument, rest) := by
  simp only [readShaped]
  rcases readBraced rules level name input with error | ⟨argument, rest⟩ <;> rfl

theorem readShaped_bare
    (rules : ReadingRules) (level : Level) (span : Span) (name : String) (input : List Lexeme) :
    readShaped rules level span name .bare input =
      (readArgument rules level.primary input).andThen fun argument rest =>
        .ok (.unary .bare name argument, rest) := by
  simp only [readShaped]
  rcases readArgument rules level.primary input with error | ⟨argument, rest⟩ <;> rfl

theorem readShaped_twoBraced
    (rules : ReadingRules) (level : Level) (span : Span) (name : String) (input : List Lexeme) :
    readShaped rules level span name .twoBraced input =
      (readBraced rules level name input).andThen fun first rest =>
        (readBraced rules level name rest).andThen fun second after =>
          .ok (.binary name first second, after) := by
  simp only [readShaped]
  rcases readBraced rules level name input with error | ⟨first, rest⟩
  · rfl
  · simp only [Reading.andThen]
    rcases readBraced rules level name rest with error | ⟨second, after⟩ <;> rfl

/-- Where it is allowed, chemical notation is read as a braced argument. -/
theorem readShaped_chemistry
    (rules : ReadingRules) (level : Level) (span : Span) (name : String) (input : List Lexeme) :
    readShaped rules level span name .chemistry input =
      if rules.chemistry then readShaped rules level span name .braced input
      else .error ⟨span, .chemistryDisabled⟩ :=
  rfl

/-- The rest of an environment after the nodes of a cell. -/
def rowsAfterCell (rules : ReadingRules) (primary : NodeParser) (environment : Environment)
    (nodes : List Node) : List Lexeme → Reading (List Node × List (List Node))
  | ⟨.nextCell, _⟩ :: rest =>
      (readRows rules primary environment rest).andThen fun rows after =>
        .ok ((.sequence false nodes :: rows.1, rows.2), after)
  | ⟨.nextRow, _⟩ :: rest =>
      (readRows rules primary environment rest).andThen fun rows after =>
        .ok (([.sequence false nodes], rows.1 :: rows.2), after)
  | ⟨.ending name, span⟩ :: rest =>
      match Environment.ofName? name with
      | none => .error ⟨span, .unknownEnvironment name⟩
      | some found =>
          if found = environment then .ok (([.sequence false nodes], []), rest)
          else .error ⟨span, .mismatchedEnvironment environment found⟩
  | rest => .error (rules.peek rest).unexpected

theorem readRows_eq_andThen
    (rules : ReadingRules) (primary : NodeParser) (environment : Environment)
    (input : List Lexeme) :
    readRows rules primary environment input =
      (readSequence rules primary input).andThen
        (rowsAfterCell rules primary environment) := by
  rw [readRows_eq]
  rcases readSequence rules primary input with error | ⟨nodes, rest⟩
  · rfl
  · rcases rest with _ | ⟨⟨token, span⟩, rest⟩
    · rfl
    · cases token with
      | nextCell | nextRow =>
          simp only [Reading.andThen, rowsAfterCell]
          rcases readRows rules primary environment rest with error | ⟨rows, after⟩ <;> rfl
      | _ => rfl

theorem readEnvironment_some
    {name : String} {environment : Environment} (rules : ReadingRules) (level : Level)
    (span : Span) (input : List Lexeme) (hname : Environment.ofName? name = some environment) :
    readEnvironment rules (some level) span name input =
      (readRows rules level.primary environment input).andThen fun rows after =>
        .ok (.table environment (dropEmptyLastRow (rows.1 :: rows.2)), after) := by
  simp only [readEnvironment, hname]
  rcases readRows rules level.primary environment input with error | ⟨rows, after⟩ <;> rfl

theorem readPrimary_digit
    (rules : ReadingRules) (below : Option Level) (c : Char) (span : Span) (rest : List Lexeme) :
    readPrimary rules below (⟨.digit c, span⟩ :: rest) =
      .ok (.literal (String.ofList (c :: (splitNumber span.stop rest).1)),
        (splitNumber span.stop rest).2) :=
  rfl

theorem readTokens_eq_error_iff
    {rules : ReadingRules} {input : List Lexeme} {error : FormulaError} :
    readTokens rules input = .error error ↔
      readSequence rules (levelWithin rules nestingLimit).primary input = .error error ∨
      ∃ nodes lexeme rest,
        readSequence rules (levelWithin rules nestingLimit).primary input =
          .ok (nodes, lexeme :: rest) ∧ lexeme.unexpected = error := by
  unfold readTokens
  rcases readSequence rules (levelWithin rules nestingLimit).primary input with
    failed | ⟨nodes, _ | ⟨lexeme, rest⟩⟩
  · simp
  · simp
  · simp [ReadingRules.peek, and_assoc]

/-! ## The lexeme that an error is about -/

/-- Whether a cause is found in the order of the tokens alone. -/
def Cause.isGrammatical : Cause → Bool
  | .lexical _ => false
  | .chemistryDisabled => false
  | .layout _ => false
  | _ => true

/-- What can be wrong where a token is. -/
inductive Token.Causes : Token → Cause → Prop
  | lexical (fault : LexicalFault) : Causes (.malformed fault) (.lexical fault)
  | chemistry {name : String} (hshape : shape? name = some .chemistry) :
      Causes (.command name) .chemistryDisabled
  | grammatical {token : Token} {cause : Cause} (htoken : ∀ fault, token ≠ .malformed fault)
      (hcause : cause.isGrammatical = true) :
      Causes token cause

/-- The error is about this lexeme. -/
structure Lexeme.Raises (lexeme : Lexeme) (error : FormulaError) : Prop where
  span : error.span = lexeme.span
  causes : lexeme.token.Causes error.cause

namespace Lexeme

theorem Raises.lexical {lexeme : Lexeme} {error : FormulaError} (hraises : lexeme.Raises error)
    (fault : LexicalFault) :
    error.cause = .lexical fault ↔ lexeme.token = .malformed fault := by
  have hcauses := hraises.causes
  generalize lexeme.token = token at hcauses ⊢
  generalize error.cause = cause at hcauses ⊢
  cases hcauses with
  | lexical => simp
  | chemistry => simp
  | grammatical htoken hcause =>
      constructor
      · rintro rfl
        cases hcause
      · intro hmalformed
        exact absurd hmalformed (htoken fault)

theorem raises_grammatical
    {token : Token} {span : Span} {cause : Cause}
    (htoken : ∀ fault, token ≠ .malformed fault) (hcause : cause.isGrammatical = true) :
    Lexeme.Raises ⟨token, span⟩ ⟨span, cause⟩ :=
  ⟨rfl, .grammatical htoken hcause⟩

theorem raises_unexpected (lexeme : Lexeme) : lexeme.Raises lexeme.unexpected := by
  refine ⟨rfl, ?_⟩
  obtain ⟨token, span⟩ := lexeme
  cases token with
  | malformed fault => exact .lexical fault
  | _ => exact .grammatical (by simp) rfl

theorem raises_missing
    (lexeme : Lexeme) {cause : Cause} (hcause : cause.isGrammatical = true) :
    lexeme.Raises (lexeme.missing cause) := by
  obtain ⟨token, span⟩ := lexeme
  cases token with
  | malformed fault => exact raises_unexpected ⟨.malformed fault, span⟩
  | _ => exact raises_grammatical (by simp) hcause

end Lexeme

namespace ReadingRules

variable {rules : ReadingRules} {input rest after : List Lexeme} {lexeme : Lexeme}

/-- The lexeme is one of these or the end of the formula. -/
def Meets (rules : ReadingRules) (input : List Lexeme) (lexeme : Lexeme) : Prop :=
  lexeme ∈ input ∨ lexeme = rules.peek []

theorem meets_peek (rules : ReadingRules) (input : List Lexeme) :
    rules.Meets input (rules.peek input) := by
  cases input with
  | nil => exact .inr rfl
  | cons lexeme rest => exact .inl (by simp [peek])

theorem Meets.of_suffix (hmeets : rules.Meets rest lexeme) (hrest : rest <:+ input) :
    rules.Meets input lexeme := by
  rcases hmeets with hmem | hend
  · exact .inl (hrest.subset hmem)
  · exact .inr hend

/-- Only where it is allowed can a reading go on after a command for chemical
notation. -/
def Allows (rules : ReadingRules) (token : Token) : Prop :=
  ∀ name, token = .command name → shape? name = some .chemistry → rules.chemistry = true

/-- A reading can go over the first lexemes up to the rest. -/
def Passes (rules : ReadingRules) (input rest : List Lexeme) : Prop :=
  ∃ taken, input = taken ++ rest ∧ ∀ lexeme ∈ taken, rules.Allows lexeme.token

namespace Passes

theorem refl (rules : ReadingRules) (input : List Lexeme) : rules.Passes input input :=
  ⟨[], rfl, by simp⟩

theorem trans (hrest : rules.Passes input rest) (hafter : rules.Passes rest after) :
    rules.Passes input after := by
  obtain ⟨first, rfl, hfirst⟩ := hrest
  obtain ⟨second, rfl, hsecond⟩ := hafter
  refine ⟨first ++ second, by simp, ?_⟩
  intro lexeme hmem
  rcases List.mem_append.mp hmem with hmem | hmem
  · exact hfirst lexeme hmem
  · exact hsecond lexeme hmem

theorem cons (hallows : rules.Allows lexeme.token) (hrest : rules.Passes input rest) :
    rules.Passes (lexeme :: input) rest := by
  have hone : rules.Passes (lexeme :: input) input := ⟨[lexeme], rfl, by simpa using hallows⟩
  exact hone.trans hrest

theorem suffix (hrest : rules.Passes input rest) : rest <:+ input := by
  obtain ⟨taken, rfl, _⟩ := hrest
  exact List.suffix_append taken rest

theorem meets (hrest : rules.Passes input rest) : rules.Meets input (rules.peek rest) :=
  (rules.meets_peek rest).of_suffix hrest.suffix

end Passes
end ReadingRules

/-- What can come out of reading these lexemes.  An error is about the first
lexeme that the reading cannot go over. -/
inductive ReadFrom (rules : ReadingRules) (input : List Lexeme) {α : Type} : Reading α → Prop
  | success {value : α} {rest : List Lexeme} (hrest : rules.Passes input rest) :
      ReadFrom rules input (.ok (value, rest))
  | failure {rest : List Lexeme} {error : FormulaError} (hrest : rules.Passes input rest)
      (hraises : (rules.peek rest).Raises error) :
      ReadFrom rules input (.error error)

namespace ReadFrom

variable {rules : ReadingRules} {input rest : List Lexeme} {α β : Type}

theorem of_passes {reading : Reading α} (hreading : ReadFrom rules rest reading)
    (hrest : rules.Passes input rest) : ReadFrom rules input reading := by
  cases hreading with
  | success hafter => exact .success (hrest.trans hafter)
  | failure hafter hraises => exact .failure (hrest.trans hafter) hraises

theorem cons {lexeme : Lexeme} {reading : Reading α} (hallows : rules.Allows lexeme.token)
    (hreading : ReadFrom rules input reading) : ReadFrom rules (lexeme :: input) reading :=
  hreading.of_passes (.cons hallows (.refl rules input))

/-- Nothing is taken. -/
theorem stay {value : α} : ReadFrom rules input (.ok (value, input)) :=
  .success (.refl rules input)

/-- One lexeme is taken. -/
theorem one {value : α} {lexeme : Lexeme} (hallows : rules.Allows lexeme.token) :
    ReadFrom rules (lexeme :: input) (.ok (value, input)) :=
  .success (.cons hallows (.refl rules input))

theorem unexpected : ReadFrom rules input (.error (rules.peek input).unexpected : Reading α) :=
  .failure (.refl rules input) (Lexeme.raises_unexpected _)

theorem missing {cause : Cause} (hcause : cause.isGrammatical = true) :
    ReadFrom rules input (.error ((rules.peek input).missing cause) : Reading α) :=
  .failure (.refl rules input) (Lexeme.raises_missing _ hcause)

/-- The error for the first lexeme, which is not malformed. -/
theorem first
    {token : Token} {span : Span} {cause : Cause} (htoken : ∀ fault, token ≠ .malformed fault)
    (hcause : cause.isGrammatical = true) :
    ReadFrom rules (⟨token, span⟩ :: input) (.error ⟨span, cause⟩ : Reading α) :=
  .failure (.refl rules _) (Lexeme.raises_grammatical htoken hcause)

theorem andThen {reading : Reading α} {next : α → List Lexeme → Reading β}
    (hreading : ReadFrom rules input reading)
    (hnext : ∀ {value rest}, reading = .ok (value, rest) →
      ReadFrom rules rest (next value rest)) :
    ReadFrom rules input (reading.andThen next) := by
  cases hreading with
  | success hrest => exact (hnext rfl).of_passes hrest
  | failure hrest hraises => exact .failure hrest hraises

theorem map {reading : Reading α} (f : α → β) (hreading : ReadFrom rules input reading) :
    ReadFrom rules input (reading.andThen fun value rest => .ok (f value, rest)) :=
  hreading.andThen fun _ => .stay

end ReadFrom

/-! ## Readings on one level -/

/-- Whatever the parser is given, it reads from that. -/
def NodeParser.IsLocal (rules : ReadingRules) (parser : NodeParser) : Prop :=
  ∀ input, ReadFrom rules input (parser.run input)

theorem readFrom_closeGroup
    (rules : ReadingRules) (nodes : List Node) (input : List Lexeme) :
    ReadFrom rules input (closeGroup rules nodes input) := by
  unfold closeGroup
  split
  · exact .one nofun
  · exact .unexpected

theorem readFrom_rowsAfterCell_of_rows
    {rules : ReadingRules} {primary : NodeParser} {environment : Environment}
    {input : List Lexeme}
    (hrows : ∀ after, after.length < input.length →
      ReadFrom rules after (readRows rules primary environment after))
    (nodes : List Node) :
    ReadFrom rules input (rowsAfterCell rules primary environment nodes input) := by
  unfold rowsAfterCell
  split
  · exact ((hrows _ (by simp)).map _).cons (by simp [ReadingRules.Allows])
  · exact ((hrows _ (by simp)).map _).cons (by simp [ReadingRules.Allows])
  · split
    · exact .first (by simp) rfl
    · split
      · exact .one (by simp [ReadingRules.Allows])
      · exact .first (by simp) rfl
  · exact .unexpected

section Level

variable {rules : ReadingRules} {primary : NodeParser} (hprimary : primary.IsLocal rules)

include hprimary

theorem readFrom_readArgument (input : List Lexeme) :
    ReadFrom rules input (readArgument rules primary input) := by
  have hclose {cause : Cause} (hwell : ∀ fault, (rules.peek input).token ≠ .malformed fault)
      (hcause : cause.isGrammatical = true) :
      ReadFrom rules input (.error ⟨(rules.peek input).span, cause⟩ : Reading Node) :=
    .failure (.refl rules input) (Lexeme.raises_grammatical hwell hcause)
  unfold readArgument
  split
  all_goals first | exact hprimary input | exact hclose (by simp [*]) rfl

theorem readFrom_readScripts (allowed : Nat) (base : Node) (input : List Lexeme) :
    ReadFrom rules input (readScripts rules primary allowed base input) := by
  induction allowed generalizing base input with
  | zero =>
      unfold readScripts
      split
      · exact .first (by simp) rfl
      · exact .stay
  | succ fewer ih =>
      rcases input with _ | ⟨⟨token, span⟩, rest⟩
      · exact .stay
      · cases token with
        | script side =>
            rw [readScripts_cons_script]
            exact ((readFrom_readArgument hprimary rest).andThen fun _ => ih _ _).cons nofun
        | _ => exact .stay

theorem readFrom_readItem (input : List Lexeme) :
    ReadFrom rules input (readItem rules primary input) := by
  by_cases hscript : ∃ side, (rules.peek input).token = .script side
  · obtain ⟨side, hside⟩ := hscript
    simp only [readItem, hside]
    exact readFrom_readScripts hprimary _ _ input
  · rw [readItem_of_not_script rules primary input (not_exists.mp hscript)]
    exact (hprimary input).andThen fun _ => readFrom_readScripts hprimary _ _ _

theorem readFrom_readSequence (input : List Lexeme) :
    ReadFrom rules input (readSequence rules primary input) := by
  induction hlength : input.length using Nat.strongRecOn generalizing input with
  | ind size ih =>
      subst hlength
      by_cases hends : (rules.peek input).token.endsSequence = true
      · rw [readSequence_eq, if_pos hends]
        exact .stay
      · rw [readSequence_of_not_endsSequence rules primary input hends]
        apply (readFrom_readItem hprimary input).andThen
        intro node rest hread
        exact (ih _ (readItem_shrinks hread) rest rfl).map (node :: ·)

theorem readFrom_readRows (environment : Environment) (input : List Lexeme) :
    ReadFrom rules input (readRows rules primary environment input) := by
  induction hlength : input.length using Nat.strongRecOn generalizing input with
  | ind size ih =>
      subst hlength
      rw [readRows_eq_andThen]
      apply (readFrom_readSequence hprimary input).andThen
      intro nodes rest hread
      apply readFrom_rowsAfterCell_of_rows
      intro after hafter
      exact ih _ (Nat.lt_of_lt_of_le hafter (length_readSequence_le hread)) after rfl

theorem readFrom_rowsAfterCell
    (environment : Environment) (nodes : List Node) (input : List Lexeme) :
    ReadFrom rules input (rowsAfterCell rules primary environment nodes input) :=
  readFrom_rowsAfterCell_of_rows
    (fun after _ => readFrom_readRows hprimary environment after) nodes

end Level

/-- The parsers of a level read from what they are given. -/
structure Level.IsLocal (rules : ReadingRules) (level : Level) : Prop where
  primary : level.primary.IsLocal rules
  group : ∀ brace input,
    ReadFrom rules (⟨.openBrace, brace⟩ :: input) ((level.group brace).run input)

section Below

variable {rules : ReadingRules}

/-- A delimiter has no shape, so it is passed whether chemical notation is
allowed or not. -/
theorem passes_tail_of_delimiter
    {input : List Lexeme} {delimiter : Node}
    (hdelimiter : (rules.peek input).token.delimiter? = some delimiter) :
    rules.Passes input input.tail := by
  cases input with
  | nil => simp [ReadingRules.peek, Token.delimiter?] at hdelimiter
  | cons lexeme rest =>
      apply ReadingRules.Passes.cons _ (.refl rules rest)
      intro name hname hshape
      simp [ReadingRules.peek, Token.delimiter?, hname, hshape] at hdelimiter

theorem readFrom_groupParser
    {below : Option Level} (hbelow : ∀ level ∈ below, level.IsLocal rules) (brace : Span)
    (input : List Lexeme) :
    ReadFrom rules (⟨.openBrace, brace⟩ :: input) ((groupParser rules below brace).run input) := by
  cases below with
  | none => exact .first (by simp) rfl
  | some level =>
      rw [run_groupParser_some]
      have hnodes := readFrom_readSequence (hbelow level rfl).primary input
      exact (hnodes.andThen fun _ => readFrom_closeGroup rules _ _).cons nofun

variable {level : Level} (hlevel : level.IsLocal rules)

include hlevel

theorem readFrom_readBraced (command : String) (input : List Lexeme) :
    ReadFrom rules input (readBraced rules level command input) := by
  unfold readBraced
  split
  · exact hlevel.group _ _
  · exact .missing rfl

theorem readFrom_readShaped
    {shape : ArgumentShape} (hallowed : shape = .chemistry → rules.chemistry = true)
    (span : Span) (name : String) (input : List Lexeme) :
    ReadFrom rules input (readShaped rules level span name shape input) := by
  have hbraced := readFrom_readBraced hlevel name
  cases shape with
  | braced =>
      rw [readShaped_braced]
      exact (hbraced input).map _
  | bare =>
      rw [readShaped_bare]
      exact (readFrom_readArgument hlevel.primary input).map _
  | twoBraced =>
      rw [readShaped_twoBraced]
      exact (hbraced input).andThen fun _ => (hbraced _).map _
  | rawText =>
      simp only [readShaped]
      split
      · exact .one (by simp [ReadingRules.Allows])
      · exact .missing rfl
  | chemistry =>
      rw [readShaped_chemistry, if_pos (hallowed rfl), readShaped_braced]
      exact (hbraced input).map _
  | delimiter =>
      simp only [readShaped]
      split
      · next delimiter hdelimiter => exact .success (passes_tail_of_delimiter hdelimiter)
      · exact .missing rfl

end Below

theorem passes_splitNumber (rules : ReadingRules) (stop : Nat) (input : List Lexeme) :
    rules.Passes input (splitNumber stop input).2 := by
  induction input generalizing stop with
  | nil => exact .refl rules []
  | cons lexeme rest ih =>
      simp only [splitNumber]
      split
      · next numeral hnumeral =>
          split
          · apply (ih lexeme.span.stop).cons
            intro name hname
            simp [hname, Token.numeral?] at hnumeral
          · exact .refl rules _
      · exact .refl rules _

section Primary

variable {rules : ReadingRules} {below : Option Level}
  (hbelow : ∀ level ∈ below, level.IsLocal rules)

include hbelow

theorem readFrom_readCommand (span : Span) (name : String) (input : List Lexeme) :
    ReadFrom rules (⟨.command name, span⟩ :: input)
      (readCommand rules below span name input) := by
  have hallows {shape : ArgumentShape} (hshape : shape? name = some shape)
      (hallowed : shape = .chemistry → rules.chemistry = true) :
      rules.Allows (.command name) := by
    intro other hother hchemistry
    cases hother
    exact hallowed (Option.some.inj (hshape.symm.trans hchemistry))
  unfold readCommand
  split
  · next hshape =>
      apply ReadFrom.one
      intro other hother hchemistry
      cases hother
      simp [hshape] at hchemistry
  · exact .first (by simp) rfl
  · next shape level hshape =>
      by_cases hallowed : shape = .chemistry → rules.chemistry = true
      · have hshaped := readFrom_readShaped (hbelow level rfl) hallowed span name input
        exact hshaped.cons (hallows hshape hallowed)
      · obtain ⟨rfl, hchemistry⟩ := Classical.not_imp.mp hallowed
        rw [readShaped_chemistry, if_neg hchemistry]
        exact .failure (.refl rules _) ⟨rfl, .chemistry hshape⟩

theorem readFrom_readEnvironment (span : Span) (name : String) (input : List Lexeme) :
    ReadFrom rules (⟨.beginning name, span⟩ :: input)
      (readEnvironment rules below span name input) := by
  cases hname : Environment.ofName? name with
  | none =>
      simp only [readEnvironment, hname]
      exact .first (by simp) rfl
  | some environment =>
      cases below with
      | none =>
          simp only [readEnvironment, hname]
          exact .first (by simp) rfl
      | some level =>
          rw [readEnvironment_some rules level span input hname]
          exact ((readFrom_readRows (hbelow level rfl).primary environment input).map _).cons nofun

theorem readFrom_readPrimary (input : List Lexeme) :
    ReadFrom rules input (readPrimary rules below input) := by
  cases input with
  | nil => exact .unexpected
  | cons lexeme rest =>
      obtain ⟨token, span⟩ := lexeme
      cases token with
      | letter | symbol => exact .one nofun
      | digit c => exact .success ((passes_splitNumber rules _ _).cons nofun)
      | openBrace => exact readFrom_groupParser hbelow span rest
      | command name => exact readFrom_readCommand hbelow span name rest
      | beginning name => exact readFrom_readEnvironment hbelow span name rest
      | _ => exact .unexpected

theorem isLocal_above : (Level.above rules below).IsLocal rules where
  primary := readFrom_readPrimary hbelow
  group := readFrom_groupParser hbelow

end Primary

theorem isLocal_levelWithin (rules : ReadingRules) (depth : Nat) :
    (levelWithin rules depth).IsLocal rules := by
  induction depth with
  | zero => exact isLocal_above (by simp)
  | succ deeper ih => exact isLocal_above (by simpa using ih)

/-- The error of a formula is about the first lexeme that the reading cannot go
over, or about the end of the formula. -/
theorem exists_raises_of_readTokens
    {rules : ReadingRules} {input : List Lexeme} {error : FormulaError}
    (hread : readTokens rules input = .error error) :
    ∃ rest, rules.Passes input rest ∧ (rules.peek rest).Raises error := by
  have hfrom := readFrom_readSequence (isLocal_levelWithin rules nestingLimit).primary input
  rcases readTokens_eq_error_iff.mp hread with hsequence | ⟨nodes, lexeme, rest, hsequence, rfl⟩
  · rw [hsequence] at hfrom
    cases hfrom with
    | failure hrest hraises => exact ⟨_, hrest, hraises⟩
  · rw [hsequence] at hfrom
    cases hfrom with
    | success hrest => exact ⟨_, hrest, lexeme.raises_unexpected⟩

end FormulaMarkup
