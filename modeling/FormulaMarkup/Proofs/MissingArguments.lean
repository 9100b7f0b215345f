import FormulaMarkup.FormulaConversion
import FormulaMarkup.Proofs.ErrorPlaces
import FormulaMarkup.Proofs.GrammarReading
import FormulaMarkup.Proofs.OpenConstructs

/-!
# Missing arguments and misplaced braces

An argument that may stand without braces is missing only right after a script
mark or a command that asks for one.  A closing brace is misplaced only in an
environment that began after the brace that it would close.

Some errors that the parser could report are never reported, because the lexer
has seen to it that the lexemes fit.  Where the parser stands, it is inside
exactly the braces and environments that the lexemes so far leave open.  So the
lexemes do not stop inside a group or an environment, and no closing brace
stands outside of all groups.  A text box is not met on its own either: the
parser never stands right after a command that asks for one.
-/

namespace FormulaMarkup

/-! ## What the errors say about the lexemes -/

/-- The token asks for an argument that may stand without braces. -/
inductive Token.AsksArgument : Token → Prop
  | script (side : Side) : AsksArgument (.script side)
  | command {name : String} (hshape : shape? name = some .bare) : AsksArgument (.command name)

/-- The token closes a group, a cell, a row or an environment. -/
inductive Token.Closes : Token → Prop
  | closeBrace : Closes .closeBrace
  | nextCell : Closes .nextCell
  | nextRow : Closes .nextRow
  | ending (name : String) : Closes (.ending name)

/-- The last lexeme asks for an argument, and none of them is malformed. -/
def EndsAsking (lexemes : List Lexeme) : Prop :=
  WellFormed lexemes ∧ ∃ asking, lexemes.getLast? = some asking ∧ asking.token.AsksArgument

/-- At the place is a lexeme that closes something, and right before it one that
asks for an argument. -/
def ClosesAsking (lexemes : List Lexeme) (place : Span) : Prop :=
  ∃ before asking closing after,
    lexemes = before ++ asking :: ⟨closing, place⟩ :: after ∧
      asking.token.AsksArgument ∧ closing.Closes

/-- At the place is a closing brace.  What was opened last before it, and is
still open, is an environment, which began after the brace that would be closed. -/
def ClosesAcrossEnvironment (lexemes : List Lexeme) (place : Span) : Prop :=
  ∃ before environment name outer brace after,
    lexemes = before ++ ⟨.closeBrace, place⟩ :: after ∧
      stillOpen before = environment :: outer ∧ environment.token = .beginning name ∧
      outer.find? (fun opener => opener.brace?.isSome) = some brace ∧
      brace.token = .openBrace ∧ [brace, environment].Sublist before

/-- The lexemes show why the error was reported, if it is about a missing
argument or a closing brace. -/
structure Explained (whole : List Lexeme) (error : FormulaError) : Prop where
  atEnd : error.cause = .argumentAtEnd → EndsAsking whole
  beforeClose : error.cause = .argumentBeforeClose → ClosesAsking whole error.span
  closeBrace : error.cause = .misplaced .closeBrace → ClosesAcrossEnvironment whole error.span

/-- Whether there is something to explain. -/
def Cause.needsReason : Cause → Bool
  | .argumentAtEnd => true
  | .argumentBeforeClose => true
  | .misplaced .closeBrace => true
  | _ => false

namespace Explained

variable {whole : List Lexeme}

theorem of_needsReason_eq_false {error : FormulaError} (hcause : error.cause.needsReason = false) :
    Explained whole error where
  atEnd hatEnd := by simp [hatEnd, Cause.needsReason] at hcause
  beforeClose hclose := by simp [hclose, Cause.needsReason] at hcause
  closeBrace hbrace := by simp [hbrace, Cause.needsReason] at hcause

theorem missing (lexeme : Lexeme) {cause : Cause} (hcause : cause.needsReason = false) :
    Explained whole (lexeme.missing cause) := by
  obtain ⟨token, span⟩ := lexeme
  cases token with
  | malformed fault => exact of_needsReason_eq_false rfl
  | _ => exact of_needsReason_eq_false hcause

theorem of_endsAsking {span : Span} (hasking : EndsAsking whole) :
    Explained whole ⟨span, .argumentAtEnd⟩ where
  atEnd _ := hasking
  beforeClose hcause := by cases hcause
  closeBrace hcause := by cases hcause

theorem of_closesAsking {span : Span} (hasking : ClosesAsking whole span) :
    Explained whole ⟨span, .argumentBeforeClose⟩ where
  atEnd hcause := by cases hcause
  beforeClose _ := hasking
  closeBrace hcause := by cases hcause

theorem of_closesAcrossEnvironment {span : Span} (hacross : ClosesAcrossEnvironment whole span) :
    Explained whole ⟨span, .misplaced .closeBrace⟩ where
  atEnd hcause := by cases hcause
  beforeClose hcause := by cases hcause
  closeBrace _ := hacross

end Explained

/-! ## Where the parser stands -/

/-- The parser has gone over the lexemes before and is inside what is on the stack. -/
structure Reached (whole stack before rest : List Lexeme) : Prop where
  whole_eq : whole = before ++ rest
  stack_eq : stillOpen before = stack
  wellFormed : WellFormed before
  noTextBox : ∀ name place, before.getLast? = some ⟨.command name, place⟩ →
    shape? name ≠ some .rawText

namespace Reached

variable {whole stack before rest : List Lexeme}

theorem start (whole : List Lexeme) : Reached whole [] [] whole where
  whole_eq := rfl
  stack_eq := rfl
  wellFormed := by simp [WellFormed]
  noTextBox := by simp

theorem wellFormed_concat {lexeme : Lexeme} (hreached : Reached whole stack before rest)
    (hformed : ∀ fault, lexeme.token ≠ .malformed fault) : WellFormed (before ++ [lexeme]) := by
  intro other hmem
  rcases List.mem_append.mp hmem with hmem | hmem
  · exact hreached.wellFormed other hmem
  · rw [List.mem_singleton.mp hmem]
    exact hformed

theorem step {lexeme : Lexeme} (hreached : Reached whole stack before (lexeme :: rest))
    (hformed : ∀ fault, lexeme.token ≠ .malformed fault)
    (hnone : ∀ name, lexeme.token = .command name → shape? name ≠ some .rawText) :
    Reached whole (openAfter stack lexeme) (before ++ [lexeme]) rest where
  whole_eq := by simp [hreached.whole_eq]
  stack_eq := by rw [stillOpen_concat, hreached.stack_eq]
  wellFormed := hreached.wellFormed_concat hformed
  noTextBox name place hlast := by
    rw [List.getLast?_concat] at hlast
    exact hnone name (by rw [Option.some.inj hlast])

/-- A command and the text box after it are taken together. -/
theorem step_textBox {name content : String} {place span : Span}
    (hreached : Reached whole stack before
      (⟨.command name, place⟩ :: ⟨.rawText content, span⟩ :: rest)) :
    Reached whole stack (before ++ [⟨.command name, place⟩, ⟨.rawText content, span⟩]) rest where
  whole_eq := by simp [hreached.whole_eq]
  stack_eq := by
    rw [List.append_cons, stillOpen_concat, stillOpen_concat, hreached.stack_eq]
    rfl
  wellFormed := by
    intro lexeme hmem
    simp only [List.mem_append, List.mem_cons, List.not_mem_nil, or_false] at hmem
    rcases hmem with hmem | rfl | rfl
    · exact hreached.wellFormed lexeme hmem
    · simp
    · simp
  noTextBox other place hlast := by simp at hlast

/-- What adds to a number opens and closes nothing. -/
theorem step_numeral {lexeme : Lexeme} {c : Char}
    (hreached : Reached whole stack before (lexeme :: rest))
    (hnumeral : lexeme.token.numeral? = some c) :
    Reached whole stack (before ++ [lexeme]) rest := by
  obtain ⟨token, span⟩ := lexeme
  cases token with
  | digit | symbol => exact hreached.step (by simp) (by simp)
  | _ => cases hnumeral

theorem exists_splitNumber (hreached : Reached whole stack before rest) (stop : Nat) :
    ∃ before, Reached whole stack before (splitNumber stop rest).2 := by
  induction rest generalizing before stop with
  | nil => exact ⟨before, hreached⟩
  | cons lexeme rest ih =>
      simp only [splitNumber]
      split
      · next c hnumeral =>
          split
          · exact ih (hreached.step_numeral hnumeral) _
          · exact ⟨before, hreached⟩
      · exact ⟨before, hreached⟩

end Reached

/-- What can come out of a reading that is to leave these constructs open. -/
inductive ReadWithin (whole stack : List Lexeme) {α : Type} : Reading α → Prop
  | success {value : α} {before rest : List Lexeme} (hreached : Reached whole stack before rest) :
      ReadWithin whole stack (.ok (value, rest))
  | failure {error : FormulaError} (hexplained : Explained whole error) :
      ReadWithin whole stack (.error error)

namespace ReadWithin

variable {whole inner stack : List Lexeme} {α β : Type}

theorem andThen {reading : Reading α} {next : α → List Lexeme → Reading β}
    (hreading : ReadWithin whole inner reading)
    (hnext : ∀ {value before rest}, reading = .ok (value, rest) →
      Reached whole inner before rest → ReadWithin whole stack (next value rest)) :
    ReadWithin whole stack (reading.andThen next) := by
  cases hreading with
  | success hreached => exact hnext rfl hreached
  | failure hexplained => exact .failure hexplained

theorem map {reading : Reading α} (f : α → β) (hreading : ReadWithin whole stack reading) :
    ReadWithin whole stack (reading.andThen fun value rest => .ok (f value, rest)) :=
  hreading.andThen fun _ => .success

theorem missing (lexeme : Lexeme) {cause : Cause} (hcause : cause.needsReason = false) :
    ReadWithin whole stack (.error (lexeme.missing cause) : Reading α) :=
  .failure (.missing lexeme hcause)

theorem other {error : FormulaError} (hcause : error.cause.needsReason = false) :
    ReadWithin whole stack (.error error : Reading α) :=
  .failure (.of_needsReason_eq_false hcause)

end ReadWithin

/-! ## Where the lexemes of a formula cannot stop -/

namespace WellLexed

variable {whole stack before rest : List Lexeme} (hlexed : WellLexed whole)

include hlexed

theorem not_reached_endOfInput {span : Span} :
    ¬ Reached whole stack before (⟨.endOfInput, span⟩ :: rest) := by
  intro hreached
  refine hlexed.token_ne_endOfInput ⟨.endOfInput, span⟩ ?_ rfl
  simp [hreached.whole_eq]

theorem not_reached_rawText {content : String} {span : Span} :
    ¬ Reached whole stack before (⟨.rawText content, span⟩ :: rest) := by
  intro hreached
  obtain ⟨name, place, hlast, hshape⟩ := hlexed.asked hreached.whole_eq
  exact hreached.noTextBox name place hlast hshape

theorem stack_eq_nil (hreached : Reached whole stack before []) : stack = [] := by
  have hwhole : whole = before := by simpa using hreached.whole_eq
  rw [← hreached.stack_eq, ← hwhole]
  apply hlexed.closed
  rw [hwhole]
  exact hreached.wellFormed

theorem closesAcrossEnvironment {name : String} {place span : Span}
    (hreached : Reached whole (⟨.beginning name, place⟩ :: stack) before
      (⟨.closeBrace, span⟩ :: rest)) :
    ClosesAcrossEnvironment whole span := by
  obtain ⟨opened, hopened, hopening⟩ := hlexed.opened hreached.whole_eq
  rw [hreached.stack_eq] at hopened
  -- The lexer knows of an open brace, and the environment is none, so it is further out.
  have hinside : opened ∈ stack := by
    rcases List.mem_cons.mp hopened with rfl | hinside
    · cases hopening
    · exact hinside
  have hsome : (stack.find? fun opener => opener.brace?.isSome).isSome := by
    rw [List.find?_isSome]
    refine ⟨opened, hinside, ?_⟩
    obtain ⟨token, offset⟩ := opened
    cases hopening
    rfl
  obtain ⟨brace, hbrace⟩ := Option.isSome_iff_exists.mp hsome
  refine ⟨before, _, name, stack, brace, rest, hreached.whole_eq, hreached.stack_eq, rfl, hbrace,
    ?_, ?_⟩
  · have hisBrace := List.find?_some hbrace
    obtain ⟨token, offset⟩ := brace
    cases token with
    | openBrace => rfl
    | _ => cases hisBrace
  · -- The stack lists what is open from the inside out, so in the formula it stands reversed.
    have horder := reverse_stillOpen_sublist before
    rw [hreached.stack_eq, List.reverse_cons] at horder
    have hfirst : [brace].Sublist stack.reverse := by
      simpa using List.mem_of_find?_eq_some hbrace
    exact (hfirst.append_right _).trans horder

end WellLexed

/-! ## Readings on one level -/

/-- Where a node can begin, the parser leaves what is open and explains its errors. -/
def NodeParser.Explains (whole : List Lexeme) (parser : NodeParser) : Prop :=
  ∀ {stack before input : List Lexeme}, Reached whole stack before input →
    ¬ AtSequenceEnd input → ReadWithin whole stack (parser.run input)

theorem atSequenceEnd_of_readSequence
    {rules : ReadingRules} {primary : NodeParser} {input rest : List Lexeme} {nodes : List Node}
    (hread : readSequence rules primary input = .ok (nodes, rest)) : AtSequenceEnd rest := by
  induction hlength : input.length using Nat.strongRecOn generalizing input nodes with
  | ind size ih =>
      subst hlength
      rw [readSequence_eq] at hread
      split at hread
      · next hends =>
          obtain ⟨rfl, rfl⟩ := Prod.mk.inj (Except.ok.inj hread)
          exact (endsSequence_peek_iff rules input).mp hends
      · split at hread
        · cases hread
        · next node middle hitem =>
            split at hread
            · cases hread
            · next others after hothers =>
                obtain ⟨rfl, rfl⟩ := Prod.mk.inj (Except.ok.inj hread)
                exact ih _ (readItem_shrinks hitem) hothers rfl

section Level

variable {whole : List Lexeme} (hlexed : WellLexed whole) (rules : ReadingRules)
  {primary : NodeParser} (hprimary : primary.Explains whole)

include hlexed hprimary

theorem readWithin_readArgument {stack before input : List Lexeme} {asking : Lexeme}
    (hasking : asking.token.AsksArgument)
    (hreached : Reached whole stack (before ++ [asking]) input) :
    ReadWithin whole stack (readArgument rules primary input) := by
  cases input with
  | nil =>
      have hwhole : whole = before ++ [asking] := by simpa using hreached.whole_eq
      refine .failure (.of_endsAsking ⟨?_, asking, ?_, hasking⟩)
      · rw [hwhole]
        exact hreached.wellFormed
      · rw [hwhole, List.getLast?_concat]
  | cons lexeme rest =>
      obtain ⟨token, span⟩ := lexeme
      have hclose (hcloses : token.Closes) :
          Explained whole ⟨span, .argumentBeforeClose⟩ := by
        refine .of_closesAsking ⟨before, asking, token, rest, ?_, hasking, hcloses⟩
        simpa using hreached.whole_eq
      cases token with
      | script side => exact .other rfl
      | endOfInput => exact absurd hreached hlexed.not_reached_endOfInput
      | closeBrace => exact .failure (hclose .closeBrace)
      | ending name => exact .failure (hclose (.ending name))
      | nextCell => exact .failure (hclose .nextCell)
      | nextRow => exact .failure (hclose .nextRow)
      | _ => exact hprimary hreached (by simp [AtSequenceEnd, Token.endsSequence])

theorem readWithin_readScripts {stack before input : List Lexeme} (allowed : Nat) (base : Node)
    (hreached : Reached whole stack before input) :
    ReadWithin whole stack (readScripts rules primary allowed base input) := by
  induction allowed generalizing base before input with
  | zero =>
      unfold readScripts
      split
      · exact .other rfl
      · exact .success hreached
  | succ fewer ih =>
      rcases input with _ | ⟨⟨token, span⟩, rest⟩
      · exact .success hreached
      · cases token with
        | script side =>
            rw [readScripts_cons_script]
            have hmark := hreached.step (by simp) (by simp)
            apply (readWithin_readArgument hlexed rules hprimary (.script side) hmark).andThen
            intro attached before rest _ hafter
            exact ih _ hafter
        | _ => exact .success hreached

theorem readWithin_readItem {stack before input : List Lexeme}
    (hreached : Reached whole stack before input) (hgoes : ¬ AtSequenceEnd input) :
    ReadWithin whole stack (readItem rules primary input) := by
  by_cases hscript : ∃ side, (rules.peek input).token = .script side
  · obtain ⟨side, hside⟩ := hscript
    simp only [readItem, hside]
    exact readWithin_readScripts hlexed rules hprimary _ _ hreached
  · rw [readItem_of_not_script rules primary input (not_exists.mp hscript)]
    apply (hprimary hreached hgoes).andThen
    intro base before rest _ hafter
    exact readWithin_readScripts hlexed rules hprimary _ _ hafter

theorem readWithin_readSequence {stack before input : List Lexeme}
    (hreached : Reached whole stack before input) :
    ReadWithin whole stack (readSequence rules primary input) := by
  induction hlength : input.length using Nat.strongRecOn generalizing before input with
  | ind size ih =>
      subst hlength
      by_cases hends : (rules.peek input).token.endsSequence = true
      · rw [readSequence_eq, if_pos hends]
        exact .success hreached
      · rw [readSequence_of_not_endsSequence rules primary input hends]
        have hgoes : ¬ AtSequenceEnd input := by rwa [← endsSequence_peek_iff rules]
        apply (readWithin_readItem hlexed rules hprimary hreached hgoes).andThen
        intro node before rest hread hafter
        exact (ih _ (readItem_shrinks hread) hafter rfl).map (node :: ·)

theorem readWithin_group {stack before input : List Lexeme} (brace : Span)
    (hreached : Reached whole (⟨.openBrace, brace⟩ :: stack) before input) :
    ReadWithin whole stack ((readSequence rules primary input).andThen (closeGroup rules)) := by
  apply (readWithin_readSequence hlexed rules hprimary hreached).andThen
  intro nodes before rest hread hafter
  have hend := atSequenceEnd_of_readSequence hread
  rcases rest with _ | ⟨⟨token, span⟩, rest⟩
  · -- The lexemes do not stop here, since the brace is still open.
    cases hlexed.stack_eq_nil hafter
  · have hends : token.endsSequence = true := hend _ rfl
    cases token with
    | closeBrace => exact .success (hafter.step (by simp) (by simp))
    | endOfInput => exact absurd hafter hlexed.not_reached_endOfInput
    | nextCell | nextRow | ending => exact .other rfl
    | _ => cases hends

theorem readWithin_readRows {stack before input : List Lexeme} (environment : Environment)
    {name : String} {place : Span}
    (hreached : Reached whole (⟨.beginning name, place⟩ :: stack) before input) :
    ReadWithin whole stack (readRows rules primary environment input) := by
  induction hlength : input.length using Nat.strongRecOn generalizing before input with
  | ind size ih =>
      subst hlength
      rw [readRows_eq_andThen]
      apply (readWithin_readSequence hlexed rules hprimary hreached).andThen
      intro nodes before rest hread hafter
      have hend := atSequenceEnd_of_readSequence hread
      have hshorter := length_readSequence_le hread
      rcases rest with _ | ⟨⟨token, span⟩, rest⟩
      · cases hlexed.stack_eq_nil hafter
      · have hends : token.endsSequence = true := hend _ rfl
        cases token with
        | nextCell | nextRow =>
            have hcell := hafter.step (by simp) (by simp)
            exact (ih _ (Nat.lt_of_succ_le hshorter) hcell rfl).map _
        | ending found =>
            have hclosed := hafter.step (by simp) (by simp)
            simp only [rowsAfterCell]
            split
            · exact .other rfl
            · split
              · exact .success hclosed
              · exact .other rfl
        | closeBrace =>
            exact .failure (.of_closesAcrossEnvironment (hlexed.closesAcrossEnvironment hafter))
        | endOfInput => exact absurd hafter hlexed.not_reached_endOfInput
        | _ => cases hends

end Level

/-! ## All levels -/

/-- The parsers of a level leave what is open and explain their errors. -/
structure Level.Explains (whole : List Lexeme) (level : Level) : Prop where
  primary : level.primary.Explains whole
  group : ∀ {stack before input : List Lexeme} (brace : Span),
    Reached whole (⟨.openBrace, brace⟩ :: stack) before input →
    ReadWithin whole stack ((level.group brace).run input)

section Below

variable {whole : List Lexeme} (hlexed : WellLexed whole) (rules : ReadingRules)

theorem readWithin_readBraced {level : Level} (hlevel : level.Explains whole)
    {stack before input : List Lexeme} (command : String)
    (hreached : Reached whole stack before input) :
    ReadWithin whole stack (readBraced rules level command input) := by
  unfold readBraced
  split
  · exact hlevel.group _ (hreached.step (by simp) (by simp))
  · exact .missing _ rfl

include hlexed

theorem readWithin_readShaped {level : Level} (hlevel : level.Explains whole)
    {stack before input : List Lexeme} {name : String} {span : Span} {shape : ArgumentShape}
    (hshape : shape? name = some shape)
    (hreached : Reached whole stack before (⟨.command name, span⟩ :: input)) :
    ReadWithin whole stack (readShaped rules level span name shape input) := by
  have hcommand (hother : shape ≠ .rawText) :
      Reached whole stack (before ++ [⟨.command name, span⟩]) input := by
    refine hreached.step (by simp) ?_
    rintro _ ⟨⟩ hasks
    exact hother (Option.some.inj (hshape.symm.trans hasks))
  have hbraced {before input : List Lexeme} (hreached : Reached whole stack before input) :=
    readWithin_readBraced rules hlevel name hreached
  cases shape with
  | braced =>
      rw [readShaped_braced]
      exact (hbraced (hcommand (by simp))).map _
  | bare =>
      rw [readShaped_bare]
      have hasks : (Token.command name).AsksArgument := .command hshape
      exact (readWithin_readArgument hlexed rules hlevel.primary hasks (hcommand (by simp))).map _
  | twoBraced =>
      rw [readShaped_twoBraced]
      apply (hbraced (hcommand (by simp))).andThen
      intro first before rest _ hfirst
      exact (hbraced hfirst).map _
  | rawText =>
      simp only [readShaped]
      split
      · exact .success hreached.step_textBox
      · exact .missing _ rfl
  | chemistry =>
      rw [readShaped_chemistry]
      split
      · rw [readShaped_braced]
        exact (hbraced (hcommand (by simp))).map _
      · exact .other rfl
  | delimiter =>
      simp only [readShaped]
      split
      · next delimiter hdelimiter =>
          rcases input with _ | ⟨⟨token, place⟩, rest⟩
          · cases hdelimiter
          · cases token with
            | symbol c => exact .success ((hcommand (by simp)).step (by simp) (by simp))
            | command other =>
                refine .success ((hcommand (by simp)).step (by simp) ?_)
                rintro _ ⟨⟩ hasks
                simp [ReadingRules.peek, Token.delimiter?, hasks] at hdelimiter
            | _ => cases hdelimiter
      · exact .missing _ rfl

variable {below : Option Level} (hbelow : ∀ level ∈ below, level.Explains whole)

include hbelow

theorem readWithin_groupParser {stack before input : List Lexeme} (brace : Span)
    (hreached : Reached whole (⟨.openBrace, brace⟩ :: stack) before input) :
    ReadWithin whole stack ((groupParser rules below brace).run input) := by
  cases below with
  | none => exact .other rfl
  | some level =>
      rw [run_groupParser_some]
      exact readWithin_group hlexed rules (hbelow level rfl).primary brace hreached

theorem readWithin_readCommand {stack before input : List Lexeme} {span : Span} {name : String}
    (hreached : Reached whole stack before (⟨.command name, span⟩ :: input)) :
    ReadWithin whole stack (readCommand rules below span name input) := by
  unfold readCommand
  split
  · next hshape =>
      refine .success (hreached.step (by simp) ?_)
      rintro _ ⟨⟩ hasks
      simp [hshape] at hasks
  · exact .other rfl
  · next shape level hshape =>
      exact readWithin_readShaped hlexed rules (hbelow level rfl) hshape hreached

theorem readWithin_readEnvironment {stack before input : List Lexeme} {span : Span} {name : String}
    (hreached : Reached whole stack before (⟨.beginning name, span⟩ :: input)) :
    ReadWithin whole stack (readEnvironment rules below span name input) := by
  have hbegun := hreached.step (by simp) (by simp)
  cases hname : Environment.ofName? name with
  | none =>
      simp only [readEnvironment, hname]
      exact .other rfl
  | some environment =>
      cases below with
      | none =>
          simp only [readEnvironment, hname]
          exact .other rfl
      | some level =>
          rw [readEnvironment_some rules level span input hname]
          have hprimary : level.primary.Explains whole := (hbelow level rfl).primary
          exact (readWithin_readRows hlexed rules hprimary environment hbegun).map _

theorem explains_primaryParser : (primaryParser rules below).Explains whole := by
  intro stack before input hreached hgoes
  rcases input with _ | ⟨⟨token, span⟩, rest⟩
  · exact absurd (by simp [AtSequenceEnd]) hgoes
  · have hends : token.endsSequence = false := by simpa [AtSequenceEnd] using hgoes
    cases token with
    | letter | symbol => exact .success (hreached.step (by simp) (by simp))
    | digit c =>
        have hdigit := hreached.step (by simp) (by simp)
        obtain ⟨before, hnumber⟩ := hdigit.exists_splitNumber span.stop
        exact .success hnumber
    | openBrace =>
        exact readWithin_groupParser hlexed rules hbelow span (hreached.step (by simp) (by simp))
    | command name => exact readWithin_readCommand hlexed rules hbelow hreached
    | beginning name => exact readWithin_readEnvironment hlexed rules hbelow hreached
    | rawText content => exact absurd hreached hlexed.not_reached_rawText
    | script side => exact .other rfl
    | malformed fault => exact .other rfl
    | _ => cases hends

theorem explains_above : (Level.above rules below).Explains whole where
  primary := explains_primaryParser hlexed rules hbelow
  group := readWithin_groupParser hlexed rules hbelow

end Below

theorem explains_levelWithin {whole : List Lexeme} (hlexed : WellLexed whole)
    (rules : ReadingRules) (depth : Nat) : (levelWithin rules depth).Explains whole := by
  induction depth with
  | zero => exact explains_above hlexed rules (by simp)
  | succ deeper ih => exact explains_above hlexed rules (by simpa using ih)

theorem explained_of_readTokens {whole : List Lexeme} (hlexed : WellLexed whole)
    {rules : ReadingRules} {error : FormulaError} (hread : readTokens rules whole = .error error) :
    Explained whole error := by
  have hwithin := readWithin_readSequence hlexed rules
    (explains_levelWithin hlexed rules nestingLimit).primary (.start whole)
  rcases readTokens_eq_error_iff.mp hread with
    hsequence | ⟨nodes, ⟨token, span⟩, rest, hsequence, rfl⟩
  · rw [hsequence] at hwithin
    cases hwithin with
    | failure hexplained => exact hexplained
  · have hends : token.endsSequence = true := atSequenceEnd_of_readSequence hsequence _ rfl
    rw [hsequence] at hwithin
    cases hwithin with
    | success hreached =>
        cases token with
        | closeBrace =>
            -- Outside of all groups no brace is open that could be closed.
            obtain ⟨brace, hopen, _⟩ := hlexed.opened hreached.whole_eq
            rw [hreached.stack_eq] at hopen
            cases hopen
        | endOfInput => exact absurd hreached hlexed.not_reached_endOfInput
        | nextCell | nextRow | ending => exact .of_needsReason_eq_false rfl
        | _ => cases hends

/-- What the errors about missing arguments and closing braces say about the
lexemes of the formula. -/
theorem lexemes_of_parse_error {settings : Settings} {formula : String} {error : FormulaError}
    (hparse : settings.parse formula = .error error) :
    (error.cause = .argumentAtEnd → EndsAsking (tokenize formula)) ∧
    (error.cause = .argumentBeforeClose → ClosesAsking (tokenize formula) error.span) ∧
    (error.cause = .misplaced .closeBrace →
      ClosesAcrossEnvironment (tokenize formula) error.span) := by
  have hexplained := explained_of_readTokens (wellLexed_tokenize formula) hparse
  exact ⟨hexplained.atEnd, hexplained.beforeClose, hexplained.closeBrace⟩

theorem lexemes_of_parse_error_of_three_formulas :
    (({} : Settings).parse "a+\\overbrace" = .error ⟨⟨12, 12⟩, .argumentAtEnd⟩ ∧
      EndsAsking (tokenize "a+\\overbrace")) ∧
    (({} : Settings).parse "\x7ba_\x7d" = .error ⟨⟨3, 4⟩, .argumentBeforeClose⟩ ∧
      ClosesAsking (tokenize "\x7ba_\x7d") ⟨3, 4⟩) ∧
    (({} : Settings).parse "\x7b\\begin\x7bmatrix\x7da\x7d" =
        .error ⟨⟨16, 17⟩, .misplaced .closeBrace⟩ ∧
      ClosesAcrossEnvironment (tokenize "\x7b\\begin\x7bmatrix\x7da\x7d") ⟨16, 17⟩) := by
  have hmark : ({} : Settings).parse "a+\\overbrace" = .error ⟨⟨12, 12⟩, .argumentAtEnd⟩ := by
    with_unfolding_all rfl
  have hscript : ({} : Settings).parse "\x7ba_\x7d" = .error ⟨⟨3, 4⟩, .argumentBeforeClose⟩ := by
    with_unfolding_all rfl
  have hbrace : ({} : Settings).parse "\x7b\\begin\x7bmatrix\x7da\x7d" =
      .error ⟨⟨16, 17⟩, .misplaced .closeBrace⟩ := by
    with_unfolding_all rfl
  exact ⟨⟨hmark, (lexemes_of_parse_error hmark).1 rfl⟩,
    ⟨hscript, (lexemes_of_parse_error hscript).2.1 rfl⟩,
    ⟨hbrace, (lexemes_of_parse_error hbrace).2.2 rfl⟩⟩

end FormulaMarkup
