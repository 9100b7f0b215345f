import FormulaMarkup.FormulaErrors
import FormulaMarkup.FormulaLexer
import FormulaMarkup.FormulaNodes

/-!
# Reading trees

A formula is read from its tokens by recursive descent.  What may stand inside
what is limited: groups, commands with a shape and environments nest at most
`nestingLimit` deep, and at most `nestingLimit` scripts stand on one base.  The
limit is also the reason why the descent ends.  A level holds the parsers for
one depth, and the parsers of the level above are built from it; at the limit
there is no level below, and whatever would need one is an error.

Within a level the only recursion is along the tokens.  A parser of nodes comes
with the proof that it leaves fewer tokens than it was given, so a loop over
such a parser ends.
-/

namespace FormulaMarkup

def nestingLimit : Nat := 128

/-- What the reading of a formula depends on besides its tokens. -/
structure ReadingRules where
  /-- Whether chemical notation is allowed. -/
  chemistry : Bool
  /-- The byte length of the formula, where its end is. -/
  finish : Nat

abbrev Reading (α : Type) := Except FormulaError (α × List Lexeme)

/-- The token that is next, which at the end is the end of the formula. -/
def ReadingRules.peek (rules : ReadingRules) : List Lexeme → Lexeme
  | [] => ⟨.endOfInput, .zeroWidth rules.finish⟩
  | lexeme :: _ => lexeme

/-- The cause for a token that cannot stand where it was found. -/
def Token.unexpectedCause : Token → Cause
  | .malformed fault => .lexical fault
  | .nextCell => .misplaced .ampersand
  | .nextRow => .misplaced .rowBreak
  | .ending _ => .misplaced .environmentEnd
  | .closeBrace => .misplaced .closeBrace
  | .script _ => .doubledScript
  | .endOfInput => .argumentAtEnd
  | _ => .argumentBeforeClose

def Lexeme.unexpected (lexeme : Lexeme) : FormulaError :=
  ⟨lexeme.span, lexeme.token.unexpectedCause⟩

/-- The error for a token of which only a malformed one has a cause of its own. -/
def Lexeme.missing (lexeme : Lexeme) (cause : Cause) : FormulaError :=
  match lexeme.token with
  | .malformed fault => ⟨lexeme.span, .lexical fault⟩
  | _ => ⟨lexeme.span, cause⟩

/-- A parser of one node, which takes at least one token. -/
structure NodeParser where
  run : List Lexeme → Reading Node
  shrinks : ∀ {input rest : List Lexeme} {node : Node},
    run input = .ok (node, rest) → rest.length < input.length

/-- The character that a token adds to a number. -/
def Token.numeral? : Token → Option Char
  | .digit c => some c
  | .symbol c => if c = '.' then some c else none
  | _ => none

/-- Takes the digits and points that continue a number without a gap, given
the offset at which the number ends so far. -/
def splitNumber (stop : Nat) : List Lexeme → List Char × List Lexeme
  | [] => ([], [])
  | lexeme :: rest =>
      match lexeme.token.numeral? with
      | some c =>
          if lexeme.span.start = stop then
            let (numerals, after) := splitNumber lexeme.span.stop rest
            (c :: numerals, after)
          else ([], lexeme :: rest)
      | none => ([], lexeme :: rest)

theorem length_splitNumber_le (stop : Nat) (input : List Lexeme) :
    (splitNumber stop input).2.length ≤ input.length := by
  induction input generalizing stop with
  | nil => simp [splitNumber]
  | cons lexeme rest ih =>
      simp only [splitNumber]
      split
      · split
        · exact Nat.le_succ_of_le (ih _)
        · exact Nat.le_refl _
      · exact Nat.le_refl _

/-- Reads an argument that may stand without braces. -/
def readArgument (rules : ReadingRules) (primary : NodeParser) (input : List Lexeme) :
    Reading Node :=
  match (rules.peek input).token with
  | .script _ => .error ⟨(rules.peek input).span, .doubledScript⟩
  | .endOfInput => .error ⟨(rules.peek input).span, .argumentAtEnd⟩
  | .closeBrace => .error ⟨(rules.peek input).span, .argumentBeforeClose⟩
  | .ending _ => .error ⟨(rules.peek input).span, .argumentBeforeClose⟩
  | .nextCell => .error ⟨(rules.peek input).span, .argumentBeforeClose⟩
  | .nextRow => .error ⟨(rules.peek input).span, .argumentBeforeClose⟩
  | _ => primary.run input

theorem readArgument_shrinks {rules : ReadingRules} {primary : NodeParser}
    {input rest : List Lexeme} {node : Node}
    (h : readArgument rules primary input = .ok (node, rest)) : rest.length < input.length := by
  unfold readArgument at h
  split at h <;> first | exact primary.shrinks h | simp at h

/-- Reads the scripts that stand on a base, as many as are still allowed. -/
def readScripts (rules : ReadingRules) (primary : NodeParser) :
    Nat → Node → List Lexeme → Reading Node
  | allowed, base, ⟨.script side, span⟩ :: rest =>
      match allowed with
      | 0 => .error ⟨span, .limitExceeded⟩
      | fewer + 1 =>
          match readArgument rules primary rest with
          | .error error => .error error
          | .ok (attached, after) =>
              readScripts rules primary fewer (.script side base attached) after
  | _, base, input => .ok (base, input)

theorem length_readScripts_le {rules : ReadingRules} {primary : NodeParser} {allowed : Nat}
    {base node : Node} {input rest : List Lexeme}
    (h : readScripts rules primary allowed base input = .ok (node, rest)) :
    rest.length ≤ input.length := by
  induction allowed generalizing base input with
  | zero =>
      unfold readScripts at h
      split at h
      · simp at h
      · simp_all
  | succ fewer ih =>
      unfold readScripts at h
      split at h
      · next lexemes side span after =>
          simp only at h
          split at h
          · simp at h
          · next hargument =>
              have hscript := readArgument_shrinks hargument
              have hafter := ih h
              simp only [List.length_cons]
              omega
      · simp_all

/-- Reads a node with its scripts.  Scripts that have no base stand on an empty one. -/
def readItem (rules : ReadingRules) (primary : NodeParser) (input : List Lexeme) :
    Reading Node :=
  match (rules.peek input).token with
  | .script _ => readScripts rules primary nestingLimit (.sequence false []) input
  | _ =>
      match primary.run input with
      | .error error => .error error
      | .ok (base, rest) => readScripts rules primary nestingLimit base rest

theorem readItem_shrinks {rules : ReadingRules} {primary : NodeParser}
    {input rest : List Lexeme} {node : Node}
    (h : readItem rules primary input = .ok (node, rest)) : rest.length < input.length := by
  unfold readItem at h
  split at h
  · next side hside =>
      cases input with
      | nil => simp [ReadingRules.peek] at hside
      | cons lexeme after =>
          obtain ⟨token, span⟩ := lexeme
          simp only [ReadingRules.peek] at hside
          subst hside
          simp only [nestingLimit, readScripts] at h
          split at h
          · simp at h
          · next hargument =>
              have hscript := readArgument_shrinks hargument
              have hafter := length_readScripts_le h
              simp only [List.length_cons]
              omega
  · split at h
    · simp at h
    · next hprimary =>
        exact Nat.lt_of_le_of_lt (length_readScripts_le h) (primary.shrinks hprimary)

/-- Reads nodes up to a token that ends the sequence. -/
def readSequence (rules : ReadingRules) (primary : NodeParser) (input : List Lexeme) :
    Reading (List Node) :=
  if (rules.peek input).token.endsSequence then .ok ([], input)
  else
    match _hitem : readItem rules primary input with
    | .error error => .error error
    | .ok (node, rest) =>
        match readSequence rules primary rest with
        | .error error => .error error
        | .ok (nodes, after) => .ok (node :: nodes, after)
termination_by input.length
decreasing_by exact readItem_shrinks _hitem

theorem readSequence_eq (rules : ReadingRules) (primary : NodeParser) (input : List Lexeme) :
    readSequence rules primary input =
      if (rules.peek input).token.endsSequence then .ok ([], input)
      else
        match readItem rules primary input with
        | .error error => .error error
        | .ok (node, rest) =>
            match readSequence rules primary rest with
            | .error error => .error error
            | .ok (nodes, after) => .ok (node :: nodes, after) := by
  rw [readSequence]
  split
  · rfl
  · split <;> next hitem => simp only [hitem]

theorem length_readSequence_le {rules : ReadingRules} {primary : NodeParser}
    {input rest : List Lexeme} {nodes : List Node}
    (h : readSequence rules primary input = .ok (nodes, rest)) :
    rest.length ≤ input.length := by
  induction hlength : input.length using Nat.strongRecOn generalizing input nodes with
  | ind size ih =>
      subst hlength
      rw [readSequence_eq] at h
      split at h
      · simp_all
      · split at h
        · simp at h
        · next hitem =>
            have hshrinks := readItem_shrinks hitem
            split at h
            · simp at h
            · next hrest =>
                simp only [Except.ok.injEq, Prod.mk.injEq] at h
                obtain ⟨_, rfl⟩ := h
                exact Nat.le_trans (ih _ hshrinks hrest rfl) (Nat.le_of_lt hshrinks)

/-- The parsers for one depth of nesting. -/
structure Level where
  /-- Reads a node without scripts. -/
  primary : NodeParser
  /-- Reads the rest of a group, given the span of its opening brace. -/
  group : Span → NodeParser

/-- The rest of a group, whose content is on the level below. -/
def groupParser (rules : ReadingRules) (below : Option Level) (brace : Span) : NodeParser where
  run input :=
    match below with
    | none => .error ⟨brace, .limitExceeded⟩
    | some level =>
        match readSequence rules level.primary input with
        | .error error => .error error
        | .ok (nodes, ⟨.closeBrace, _⟩ :: after) => .ok (.sequence true nodes, after)
        | .ok (_, rest) => .error (rules.peek rest).unexpected
  shrinks := by
    intro input rest node h
    cases below with
    | none => simp at h
    | some level =>
        simp only at h
        split at h
        · simp at h
        · next hsequence =>
            have hle := length_readSequence_le hsequence
            simp only [Except.ok.injEq, Prod.mk.injEq] at h
            obtain ⟨_, rfl⟩ := h
            simp only [List.length_cons] at hle
            omega
        · simp at h

/-- Reads an argument of a command that must stand in braces. -/
def readBraced (rules : ReadingRules) (level : Level) (command : String) (input : List Lexeme) :
    Reading Node :=
  match input with
  | ⟨.openBrace, span⟩ :: rest => (level.group span).run rest
  | _ => .error ((rules.peek input).missing (.bracedArgumentMissing command))

theorem readBraced_shrinks {rules : ReadingRules} {level : Level} {command : String}
    {input rest : List Lexeme} {node : Node}
    (h : readBraced rules level command input = .ok (node, rest)) :
    rest.length < input.length := by
  unfold readBraced at h
  split at h
  · exact Nat.lt_of_lt_of_le ((level.group _).shrinks h) (Nat.le_succ _)
  · simp at h

/-- The node that a token is as a delimiter. -/
def Token.delimiter? : Token → Option Node
  | .symbol c => some (.ofChar c)
  | .command name => if shape? name = none then some (.literal name) else none
  | _ => none

/-- Reads what follows a command that has a shape. -/
def readShaped (rules : ReadingRules) (level : Level) (span : Span) (name : String) :
    ArgumentShape → List Lexeme → Reading Node
  | .braced, input =>
      match readBraced rules level name input with
      | .error error => .error error
      | .ok (argument, rest) => .ok (.unary .braced name argument, rest)
  | .bare, input =>
      match readArgument rules level.primary input with
      | .error error => .error error
      | .ok (argument, rest) => .ok (.unary .bare name argument, rest)
  | .twoBraced, input =>
      match readBraced rules level name input with
      | .error error => .error error
      | .ok (first, rest) =>
          match readBraced rules level name rest with
          | .error error => .error error
          | .ok (second, after) => .ok (.binary name first second, after)
  | .rawText, input =>
      match input with
      | ⟨.rawText content, _⟩ :: rest =>
          let items := if content.isEmpty then [] else [.literal content]
          .ok (.unary .braced name (.sequence true items), rest)
      | _ => .error ((rules.peek input).missing (.bracedArgumentMissing name))
  | .chemistry, input =>
      if rules.chemistry then
        match readBraced rules level name input with
        | .error error => .error error
        | .ok (argument, rest) => .ok (.unary .braced name argument, rest)
      else .error ⟨span, .chemistryDisabled⟩
  | .delimiter, input =>
      match (rules.peek input).token.delimiter? with
      | some delimiter => .ok (.unary .bare name delimiter, input.tail)
      | none => .error ((rules.peek input).missing (.delimiterMissing name))

theorem length_readShaped_le {rules : ReadingRules} {level : Level} {span : Span} {name : String}
    {shape : ArgumentShape} {input rest : List Lexeme} {node : Node}
    (h : readShaped rules level span name shape input = .ok (node, rest)) :
    rest.length ≤ input.length := by
  have hbraced {command : String} {input rest : List Lexeme} {node : Node}
      (hread : readBraced rules level command input = .ok (node, rest)) :
      rest.length ≤ input.length := Nat.le_of_lt (readBraced_shrinks hread)
  cases shape with
  | braced =>
      simp only [readShaped] at h
      split at h
      · simp at h
      · next hread =>
          simp only [Except.ok.injEq, Prod.mk.injEq] at h
          exact h.2 ▸ hbraced hread
  | bare =>
      simp only [readShaped] at h
      split at h
      · simp at h
      · next hread =>
          simp only [Except.ok.injEq, Prod.mk.injEq] at h
          exact h.2 ▸ Nat.le_of_lt (readArgument_shrinks hread)
  | twoBraced =>
      simp only [readShaped] at h
      split at h
      · simp at h
      · next hfirst =>
          split at h
          · simp at h
          · next hsecond =>
              simp only [Except.ok.injEq, Prod.mk.injEq] at h
              exact h.2 ▸ Nat.le_trans (hbraced hsecond) (hbraced hfirst)
  | rawText =>
      simp only [readShaped] at h
      split at h
      · simp only [Except.ok.injEq, Prod.mk.injEq] at h
        exact h.2 ▸ Nat.le_succ _
      · simp at h
  | chemistry =>
      simp only [readShaped] at h
      split at h
      · split at h
        · simp at h
        · next hread =>
            simp only [Except.ok.injEq, Prod.mk.injEq] at h
            exact h.2 ▸ hbraced hread
      · simp at h
  | delimiter =>
      simp only [readShaped] at h
      split at h
      · simp only [Except.ok.injEq, Prod.mk.injEq] at h
        rw [← h.2, List.length_tail]
        exact Nat.sub_le _ _
      · simp at h

/-- Reads cells and rows up to the end of the environment.  The result is the
row that is being read and the rows after it. -/
def readRows (rules : ReadingRules) (primary : NodeParser) (environment : Environment)
    (input : List Lexeme) : Reading (List Node × List (List Node)) :=
  match _hcell : readSequence rules primary input with
  | .error error => .error error
  | .ok (nodes, ⟨.nextCell, _⟩ :: rest) =>
      match readRows rules primary environment rest with
      | .error error => .error error
      | .ok ((row, rows), after) => .ok ((.sequence false nodes :: row, rows), after)
  | .ok (nodes, ⟨.nextRow, _⟩ :: rest) =>
      match readRows rules primary environment rest with
      | .error error => .error error
      | .ok ((row, rows), after) => .ok (([.sequence false nodes], row :: rows), after)
  | .ok (nodes, ⟨.ending name, span⟩ :: rest) =>
      match Environment.ofName? name with
      | none => .error ⟨span, .unknownEnvironment name⟩
      | some found =>
          if found = environment then .ok (([.sequence false nodes], []), rest)
          else .error ⟨span, .mismatchedEnvironment environment found⟩
  | .ok (_, rest) => .error (rules.peek rest).unexpected
termination_by input.length
decreasing_by all_goals exact Nat.lt_of_succ_le (length_readSequence_le _hcell)

theorem readRows_eq (rules : ReadingRules) (primary : NodeParser) (environment : Environment)
    (input : List Lexeme) :
    readRows rules primary environment input =
      match readSequence rules primary input with
      | .error error => .error error
      | .ok (nodes, ⟨.nextCell, _⟩ :: rest) =>
          match readRows rules primary environment rest with
          | .error error => .error error
          | .ok ((row, rows), after) => .ok ((.sequence false nodes :: row, rows), after)
      | .ok (nodes, ⟨.nextRow, _⟩ :: rest) =>
          match readRows rules primary environment rest with
          | .error error => .error error
          | .ok ((row, rows), after) => .ok (([.sequence false nodes], row :: rows), after)
      | .ok (nodes, ⟨.ending name, span⟩ :: rest) =>
          match Environment.ofName? name with
          | none => .error ⟨span, .unknownEnvironment name⟩
          | some found =>
              if found = environment then .ok (([.sequence false nodes], []), rest)
              else .error ⟨span, .mismatchedEnvironment environment found⟩
      | .ok (_, rest) => .error (rules.peek rest).unexpected := by
  rw [readRows]
  split <;> next hcell => simp only [hcell]

theorem length_readRows_lt {rules : ReadingRules} {primary : NodeParser}
    {environment : Environment} {input rest : List Lexeme} {rows : List Node × List (List Node)}
    (h : readRows rules primary environment input = .ok (rows, rest)) :
    rest.length < input.length := by
  induction hlength : input.length using Nat.strongRecOn generalizing input rows with
  | ind size ih =>
      subst hlength
      rw [readRows_eq] at h
      split at h
      · simp at h
      · next hcell =>
          have hle := length_readSequence_le hcell
          split at h
          · simp at h
          · next hrest =>
              simp only [Except.ok.injEq, Prod.mk.injEq] at h
              obtain ⟨_, rfl⟩ := h
              have hlt := ih _ (Nat.lt_of_succ_le hle) hrest rfl
              simp only [List.length_cons] at hle
              omega
      · next hcell =>
          have hle := length_readSequence_le hcell
          split at h
          · simp at h
          · next hrest =>
              simp only [Except.ok.injEq, Prod.mk.injEq] at h
              obtain ⟨_, rfl⟩ := h
              have hlt := ih _ (Nat.lt_of_succ_le hle) hrest rfl
              simp only [List.length_cons] at hle
              omega
      · next hcell =>
          have hle := length_readSequence_le hcell
          split at h
          · simp at h
          · split at h
            · simp only [Except.ok.injEq, Prod.mk.injEq] at h
              obtain ⟨_, rfl⟩ := h
              exact Nat.lt_of_succ_le hle
            · simp at h
      · simp at h

/-- A row break right before the end of an environment begins no further row. -/
def dropEmptyLastRow (rows : List (List Node)) : List (List Node) :=
  match rows.getLast? with
  | some [cell] => if cell.isEmptySequence && 1 < rows.length then rows.dropLast else rows
  | _ => rows

/-- Reads the arguments of a command, if it takes any. -/
def readCommand (rules : ReadingRules) (below : Option Level) (span : Span) (name : String)
    (input : List Lexeme) : Except FormulaError (Node × List Lexeme) :=
  match shape? name, below with
  | none, _ => .ok (.literal name, input)
  | some _, none => .error ⟨span, .limitExceeded⟩
  | some shape, some level => readShaped rules level span name shape input

theorem length_readCommand_le {rules : ReadingRules} {below : Option Level} {span : Span}
    {name : String} {input rest : List Lexeme} {node : Node}
    (h : readCommand rules below span name input = .ok (node, rest)) :
    rest.length ≤ input.length := by
  unfold readCommand at h
  generalize shape? name = shape at h
  cases shape with
  | none =>
      have hrest : input = rest := (Prod.mk.inj (Except.ok.inj h)).2
      exact Nat.le_of_eq (congrArg List.length hrest.symm)
  | some shape =>
      cases below with
      | none => cases h
      | some level => exact length_readShaped_le h

/-- Reads an environment after its beginning. -/
def readEnvironment (rules : ReadingRules) (below : Option Level) (span : Span) (name : String)
    (input : List Lexeme) : Except FormulaError (Node × List Lexeme) :=
  match Environment.ofName? name, below with
  | none, _ => .error ⟨span, .unknownEnvironment name⟩
  | some _, none => .error ⟨span, .limitExceeded⟩
  | some environment, some level =>
      match readRows rules level.primary environment input with
      | .error error => .error error
      | .ok ((row, rows), after) =>
          .ok (.table environment (dropEmptyLastRow (row :: rows)), after)

theorem length_readEnvironment_lt {rules : ReadingRules} {below : Option Level} {span : Span}
    {name : String} {input rest : List Lexeme} {node : Node}
    (h : readEnvironment rules below span name input = .ok (node, rest)) :
    rest.length < input.length := by
  unfold readEnvironment at h
  generalize Environment.ofName? name = found at h
  cases found with
  | none => cases h
  | some environment =>
      cases below with
      | none => cases h
      | some level =>
          dsimp only at h
          cases hrows : readRows rules level.primary environment input with
          | error error =>
              rw [hrows] at h
              cases h
          | ok result =>
              rw [hrows] at h
              have hrest : result.2 = rest := (Prod.mk.inj (Except.ok.inj h)).2
              rw [← hrest]
              exact length_readRows_lt hrows

/-- Reads a node without scripts, whose inner nodes are on the level below. -/
def readPrimary (rules : ReadingRules) (below : Option Level) :
    List Lexeme → Except FormulaError (Node × List Lexeme)
  | [] => .error (rules.peek []).unexpected
  | ⟨token, span⟩ :: rest =>
      match token with
      | .letter c => .ok (.ofChar c, rest)
      | .symbol c => .ok (.ofChar c, rest)
      | .digit c =>
          .ok (.literal (String.ofList (c :: (splitNumber span.stop rest).1)),
            (splitNumber span.stop rest).2)
      | .openBrace => (groupParser rules below span).run rest
      | .command name => readCommand rules below span name rest
      | .beginning name => readEnvironment rules below span name rest
      | token => .error (Lexeme.unexpected ⟨token, span⟩)

theorem readPrimary_shrinks {rules : ReadingRules} {below : Option Level}
    {input rest : List Lexeme} {node : Node}
    (h : readPrimary rules below input = .ok (node, rest)) :
    rest.length < input.length := by
  cases input with
  | nil => cases h
  | cons lexeme after =>
      obtain ⟨token, span⟩ := lexeme
      rw [List.length_cons]
      cases token with
      | letter c => exact (Prod.mk.inj (Except.ok.inj h)).2 ▸ Nat.lt_succ_self _
      | symbol c => exact (Prod.mk.inj (Except.ok.inj h)).2 ▸ Nat.lt_succ_self _
      | digit c =>
          have hrest : (splitNumber span.stop after).2 = rest :=
            (Prod.mk.inj (Except.ok.inj h)).2
          rw [← hrest]
          exact Nat.lt_succ_of_le (length_splitNumber_le _ _)
      | openBrace => exact Nat.lt_succ_of_lt ((groupParser rules below span).shrinks h)
      | command name => exact Nat.lt_succ_of_le (length_readCommand_le h)
      | beginning name => exact Nat.lt_succ_of_lt (length_readEnvironment_lt h)
      | _ => cases h

def primaryParser (rules : ReadingRules) (below : Option Level) : NodeParser where
  run := readPrimary rules below
  shrinks := readPrimary_shrinks

/-- The level above another one, or above the limit. -/
def Level.above (rules : ReadingRules) (below : Option Level) : Level where
  primary := primaryParser rules below
  group := groupParser rules below

/-- The level from which so many further levels can be entered. -/
def levelWithin (rules : ReadingRules) : Nat → Level
  | 0 => .above rules none
  | deeper + 1 => .above rules (some (levelWithin rules deeper))

/-- Reads a whole list of tokens. -/
def readTokens (rules : ReadingRules) (input : List Lexeme) : Except FormulaError Node :=
  match readSequence rules (levelWithin rules nestingLimit).primary input with
  | .error error => .error error
  | .ok (nodes, []) => .ok (.sequence false nodes)
  | .ok (_, rest) => .error (rules.peek rest).unexpected

/-- Reads a formula. -/
def parseFormula (chemistry : Bool) (formula : String) : Except FormulaError Node :=
  readTokens ⟨chemistry, byteLength formula.toList⟩ (tokenize formula)

end FormulaMarkup
