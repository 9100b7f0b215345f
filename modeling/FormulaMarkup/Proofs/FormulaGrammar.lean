import FormulaMarkup.FormulaParser

/-!
# The grammar of formulas

The grammar says what a list of lexemes can be read as, without saying how it
is read.  A derivation relates the lexemes before a phrase and the lexemes
after it, so a rule can ask for what follows; only numbers and the ends of
sequences do.  The depth of a derivation is the number of groups, commands with
a shape and environments that may still be entered.

The facts below are about derivations alone: how they begin, what rows they
make, and which lexemes they pass over.
-/

namespace FormulaMarkup

/-- What a list of lexemes can be read as. -/
inductive Phrase where
  /-- A node without scripts. -/
  | primary (node : Node)
  /-- A sequence in braces. -/
  | group (node : Node)
  /-- So many scripts, which make the second node of the first. -/
  | scripts (count : Nat) (base node : Node)
  /-- Items, all of which have a base. -/
  | items (nodes : List Node)
  /-- Items, the first of which may lack its base. -/
  | sequence (nodes : List Node)
  /-- Cells and rows up to the end of their environment. -/
  | rows (environment : Environment) (rows : List (List Node))

/-- The numerals that continue a number which ends at the given offset.  Each
starts where the one before it ends, and no further one does so. -/
inductive NumberRun : Nat → List Lexeme → List Char → List Lexeme → Prop
  | stop {offset : Nat} {rest : List Lexeme}
      (hstop : ∀ lexeme ∈ rest.head?, lexeme.token.numeral? ≠ none →
        lexeme.span.start ≠ offset) :
      NumberRun offset rest [] rest
  | next {lexeme : Lexeme} {c : Char} {input rest : List Lexeme} {numerals : List Char}
      (hnumeral : lexeme.token.numeral? = some c)
      (hrun : NumberRun lexeme.span.stop input numerals rest) :
      NumberRun lexeme.span.start (lexeme :: input) (c :: numerals) rest

/-- A sequence ends before a token that closes something and at the end. -/
def AtSequenceEnd (rest : List Lexeme) : Prop :=
  ∀ lexeme ∈ rest.head?, lexeme.token.endsSequence = true

/-- The rows of an environment are the rows that were read, except that a last
row of one empty cell is left out if there are other rows. -/
def LastRowDropped (read kept : List (List Node)) : Prop :=
  (kept ≠ [] ∧ read = kept ++ [[.sequence false []]]) ∨
    (read = kept ∧ ∀ before, before ≠ [] → read ≠ before ++ [[.sequence false []]])

inductive Derives (chemistry : Bool) : Nat → Phrase → List Lexeme → List Lexeme → Prop
  | letter {depth : Nat} {c : Char} {span : Span} {rest : List Lexeme} :
      Derives chemistry depth (.primary (.ofChar c)) (⟨.letter c, span⟩ :: rest) rest
  | symbol {depth : Nat} {c : Char} {span : Span} {rest : List Lexeme} :
      Derives chemistry depth (.primary (.ofChar c)) (⟨.symbol c, span⟩ :: rest) rest
  | number {depth : Nat} {c : Char} {span : Span} {numerals : List Char}
      {input rest : List Lexeme}
      (hrun : NumberRun span.stop input numerals rest) :
      Derives chemistry depth (.primary (.literal (String.ofList (c :: numerals))))
        (⟨.digit c, span⟩ :: input) rest
  | command {depth : Nat} {name : String} {span : Span} {rest : List Lexeme}
      (hshape : shape? name = none) :
      Derives chemistry depth (.primary (.literal name)) (⟨.command name, span⟩ :: rest) rest
  | inBraces {depth : Nat} {node : Node} {input rest : List Lexeme}
      (hgroup : Derives chemistry depth (.group node) input rest) :
      Derives chemistry depth (.primary node) input rest
  | braced {depth : Nat} {name : String} {span : Span} {argument : Node}
      {input rest : List Lexeme}
      (hshape : shape? name = some .braced)
      (hargument : Derives chemistry depth (.group argument) input rest) :
      Derives chemistry (depth + 1) (.primary (.unary .braced name argument))
        (⟨.command name, span⟩ :: input) rest
  | chemical {depth : Nat} {name : String} {span : Span} {argument : Node}
      {input rest : List Lexeme}
      (hchemistry : chemistry = true)
      (hshape : shape? name = some .chemistry)
      (hargument : Derives chemistry depth (.group argument) input rest) :
      Derives chemistry (depth + 1) (.primary (.unary .braced name argument))
        (⟨.command name, span⟩ :: input) rest
  | bare {depth : Nat} {name : String} {span : Span} {argument : Node}
      {input rest : List Lexeme}
      (hshape : shape? name = some .bare)
      (hargument : Derives chemistry depth (.primary argument) input rest) :
      Derives chemistry (depth + 1) (.primary (.unary .bare name argument))
        (⟨.command name, span⟩ :: input) rest
  | twoBraced {depth : Nat} {name : String} {span : Span} {first second : Node}
      {input middle rest : List Lexeme}
      (hshape : shape? name = some .twoBraced)
      (hfirst : Derives chemistry depth (.group first) input middle)
      (hsecond : Derives chemistry depth (.group second) middle rest) :
      Derives chemistry (depth + 1) (.primary (.binary name first second))
        (⟨.command name, span⟩ :: input) rest
  | emptyText {depth : Nat} {name : String} {span box : Span} {rest : List Lexeme}
      (hshape : shape? name = some .rawText) :
      Derives chemistry (depth + 1) (.primary (.unary .braced name (.sequence true [])))
        (⟨.command name, span⟩ :: ⟨.rawText "", box⟩ :: rest) rest
  | text {depth : Nat} {name content : String} {span box : Span} {rest : List Lexeme}
      (hshape : shape? name = some .rawText) (hcontent : content ≠ "") :
      Derives chemistry (depth + 1)
        (.primary (.unary .braced name (.sequence true [.literal content])))
        (⟨.command name, span⟩ :: ⟨.rawText content, box⟩ :: rest) rest
  | symbolDelimiter {depth : Nat} {name : String} {c : Char} {span mark : Span}
      {rest : List Lexeme}
      (hshape : shape? name = some .delimiter) :
      Derives chemistry (depth + 1) (.primary (.unary .bare name (.ofChar c)))
        (⟨.command name, span⟩ :: ⟨.symbol c, mark⟩ :: rest) rest
  | commandDelimiter {depth : Nat} {name delimiter : String} {span mark : Span}
      {rest : List Lexeme}
      (hshape : shape? name = some .delimiter) (hplain : shape? delimiter = none) :
      Derives chemistry (depth + 1) (.primary (.unary .bare name (.literal delimiter)))
        (⟨.command name, span⟩ :: ⟨.command delimiter, mark⟩ :: rest) rest
  | environment {depth : Nat} {environment : Environment} {span : Span}
      {read kept : List (List Node)} {input rest : List Lexeme}
      (hrows : Derives chemistry depth (.rows environment read) input rest)
      (hkept : LastRowDropped read kept) :
      Derives chemistry (depth + 1) (.primary (.table environment kept))
        (⟨.beginning environment.name, span⟩ :: input) rest
  | group {depth : Nat} {nodes : List Node} {opening closing : Span}
      {input rest : List Lexeme}
      (hnodes : Derives chemistry depth (.sequence nodes) input
        (⟨.closeBrace, closing⟩ :: rest)) :
      Derives chemistry (depth + 1) (.group (.sequence true nodes))
        (⟨.openBrace, opening⟩ :: input) rest
  | noScript {depth : Nat} {base : Node} {rest : List Lexeme} :
      Derives chemistry depth (.scripts 0 base base) rest rest
  | script {depth count : Nat} {side : Side} {base attached node : Node} {span : Span}
      {input middle rest : List Lexeme}
      (hattached : Derives chemistry depth (.primary attached) input middle)
      (hscripts : Derives chemistry depth (.scripts count (.script side base attached) node)
        middle rest) :
      Derives chemistry depth (.scripts (count + 1) base node)
        (⟨.script side, span⟩ :: input) rest
  | noItem {depth : Nat} {rest : List Lexeme}
      (hend : AtSequenceEnd rest) :
      Derives chemistry depth (.items []) rest rest
  | item {depth count : Nat} {base node : Node} {nodes : List Node}
      {input middle after rest : List Lexeme}
      (hbase : Derives chemistry depth (.primary base) input middle)
      (hcount : count ≤ nestingLimit)
      (hscripts : Derives chemistry depth (.scripts count base node) middle after)
      (hnodes : Derives chemistry depth (.items nodes) after rest) :
      Derives chemistry depth (.items (node :: nodes)) input rest
  | sequence {depth : Nat} {nodes : List Node} {input rest : List Lexeme}
      (hnodes : Derives chemistry depth (.items nodes) input rest) :
      Derives chemistry depth (.sequence nodes) input rest
  | sequenceOfScripts {depth count : Nat} {node : Node} {nodes : List Node}
      {input after rest : List Lexeme}
      (hpositive : 0 < count) (hcount : count ≤ nestingLimit)
      (hscripts : Derives chemistry depth (.scripts count (.sequence false []) node) input after)
      (hnodes : Derives chemistry depth (.items nodes) after rest) :
      Derives chemistry depth (.sequence (node :: nodes)) input rest
  | lastCell {depth : Nat} {environment : Environment} {nodes : List Node} {span : Span}
      {input rest : List Lexeme}
      (hcell : Derives chemistry depth (.sequence nodes) input
        (⟨.ending environment.name, span⟩ :: rest)) :
      Derives chemistry depth (.rows environment [[.sequence false nodes]]) input rest
  | nextCell {depth : Nat} {environment : Environment} {nodes row : List Node}
      {rows : List (List Node)} {span : Span} {input middle rest : List Lexeme}
      (hcell : Derives chemistry depth (.sequence nodes) input (⟨.nextCell, span⟩ :: middle))
      (hrows : Derives chemistry depth (.rows environment (row :: rows)) middle rest) :
      Derives chemistry depth (.rows environment ((.sequence false nodes :: row) :: rows))
        input rest
  | nextRow {depth : Nat} {environment : Environment} {nodes : List Node}
      {rows : List (List Node)} {span : Span} {input middle rest : List Lexeme}
      (hcell : Derives chemistry depth (.sequence nodes) input (⟨.nextRow, span⟩ :: middle))
      (hrows : Derives chemistry depth (.rows environment rows) middle rest) :
      Derives chemistry depth (.rows environment ([.sequence false nodes] :: rows)) input rest

/-! ## How derivations begin -/

/-- The next token is no script mark. -/
def NoScriptNext (rest : List Lexeme) : Prop :=
  ∀ lexeme ∈ rest.head?, ∀ side, lexeme.token ≠ .script side

theorem script_or_noScriptNext (input : List Lexeme) :
    (∃ side span rest, input = ⟨.script side, span⟩ :: rest) ∨ NoScriptNext input := by
  cases input with
  | nil => right; simp [NoScriptNext]
  | cons lexeme rest =>
      obtain ⟨token, span⟩ := lexeme
      cases token with
      | script side => exact .inl ⟨side, span, rest, rfl⟩
      | _ => right; simp [NoScriptNext]

theorem AtSequenceEnd.noScriptNext {rest : List Lexeme} (hend : AtSequenceEnd rest) :
    NoScriptNext rest := by
  intro lexeme hlexeme side hscript
  have hends := hend lexeme hlexeme
  rw [hscript] at hends
  simp [Token.endsSequence] at hends

theorem Derives.head_of_primary
    {chemistry : Bool} {depth : Nat} {node : Node} {input rest : List Lexeme}
    (hderives : Derives chemistry depth (.primary node) input rest) :
    ∃ lexeme after, input = lexeme :: after ∧ lexeme.token.endsSequence = false ∧
      ∀ side, lexeme.token ≠ .script side := by
  cases hderives with
  | inBraces hgroup =>
      cases hgroup with
      | group => exact ⟨_, _, rfl, rfl, by simp⟩
  | _ => exact ⟨_, _, rfl, rfl, by simp⟩

theorem Derives.noScriptNext_of_items
    {chemistry : Bool} {depth : Nat} {nodes : List Node} {input rest : List Lexeme}
    (hderives : Derives chemistry depth (.items nodes) input rest) :
    NoScriptNext input := by
  cases hderives with
  | noItem hend => exact hend.noScriptNext
  | item hbase _ _ _ =>
      obtain ⟨lexeme, after, rfl, _, hscript⟩ := hbase.head_of_primary
      simpa [NoScriptNext] using hscript

theorem Derives.eq_of_scripts_of_noScriptNext
    {chemistry : Bool} {depth count : Nat} {base node : Node} {input rest : List Lexeme}
    (hscripts : Derives chemistry depth (.scripts count base node) input rest)
    (hnext : NoScriptNext input) :
    node = base ∧ rest = input := by
  cases hscripts with
  | noScript => exact ⟨rfl, rfl⟩
  | script => exact absurd rfl (hnext _ rfl _)

/-! ## Rows -/

theorem LastRowDropped.unique
    {read first second : List (List Node)}
    (hfirst : LastRowDropped read first) (hsecond : LastRowDropped read second) :
    first = second := by
  rcases hfirst with ⟨hne, rfl⟩ | ⟨rfl, hfull⟩
  · rcases hsecond with ⟨_, heq⟩ | ⟨_, hfull⟩
    · exact List.append_cancel_right heq
    · exact absurd rfl (hfull _ hne)
  · rcases hsecond with ⟨hne, heq⟩ | ⟨heq, _⟩
    · exact absurd heq (hfull _ hne)
    · exact heq

/-- The reader makes every cell a sequence that is not curly. -/
def CellsPlain (rows : List (List Node)) : Prop :=
  ∀ row ∈ rows, ∀ cell ∈ row, ∃ nodes, cell = .sequence false nodes

/-- What a derivation of rows says about their cells. -/
def Phrase.HasPlainCells : Phrase → Prop
  | .rows _ grid => CellsPlain grid
  | _ => True

theorem Derives.hasPlainCells
    {chemistry : Bool} {depth : Nat} {phrase : Phrase} {input rest : List Lexeme}
    (hderives : Derives chemistry depth phrase input rest) :
    phrase.HasPlainCells := by
  induction hderives with
  | lastCell => simp [Phrase.HasPlainCells, CellsPlain]
  | nextCell _ _ _ hrows =>
      simp only [Phrase.HasPlainCells, CellsPlain, List.forall_mem_cons] at hrows ⊢
      exact ⟨⟨⟨_, rfl⟩, hrows.1⟩, hrows.2⟩
  | nextRow _ _ _ hrows =>
      simp only [Phrase.HasPlainCells, CellsPlain, List.forall_mem_cons] at hrows ⊢
      exact ⟨⟨⟨_, rfl⟩, by simp⟩, hrows⟩
  | _ => trivial

/-! ## What derivations pass over -/

/-- The lexemes between two places of a list, none of which is malformed. -/
def WellFormedBetween (input rest : List Lexeme) : Prop :=
  ∃ taken, input = taken ++ rest ∧ ∀ lexeme ∈ taken, ∀ fault, lexeme.token ≠ .malformed fault

theorem WellFormedBetween.refl (rest : List Lexeme) : WellFormedBetween rest rest :=
  ⟨[], rfl, by simp⟩

theorem WellFormedBetween.trans
    {input middle rest : List Lexeme}
    (hfirst : WellFormedBetween input middle) (hsecond : WellFormedBetween middle rest) :
    WellFormedBetween input rest := by
  obtain ⟨first, rfl, hfirst⟩ := hfirst
  obtain ⟨second, rfl, hsecond⟩ := hsecond
  refine ⟨first ++ second, (List.append_assoc _ _ _).symm, ?_⟩
  intro lexeme hlexeme
  rcases List.mem_append.mp hlexeme with hmem | hmem
  · exact hfirst lexeme hmem
  · exact hsecond lexeme hmem

theorem WellFormedBetween.cons
    {lexeme : Lexeme} {input rest : List Lexeme}
    (hlexeme : ∀ fault, lexeme.token ≠ .malformed fault) (hrest : WellFormedBetween input rest) :
    WellFormedBetween (lexeme :: input) rest :=
  .trans ⟨[lexeme], rfl, by simpa using hlexeme⟩ hrest

theorem NumberRun.wellFormedBetween
    {offset : Nat} {input rest : List Lexeme} {numerals : List Char}
    (hrun : NumberRun offset input numerals rest) :
    WellFormedBetween input rest := by
  induction hrun with
  | stop => exact .refl _
  | next hnumeral _ ih =>
      refine ih.cons ?_
      intro fault hmalformed
      rw [hmalformed] at hnumeral
      cases hnumeral

theorem Derives.wellFormedBetween
    {chemistry : Bool} {depth : Nat} {phrase : Phrase} {input rest : List Lexeme}
    (hderives : Derives chemistry depth phrase input rest) :
    WellFormedBetween input rest := by
  have hclose {token : Token} {span : Span} {input rest : List Lexeme}
      (htoken : ∀ fault, token ≠ .malformed fault)
      (hbefore : WellFormedBetween input (⟨token, span⟩ :: rest)) :
      WellFormedBetween input rest :=
    hbefore.trans ((WellFormedBetween.refl rest).cons htoken)
  induction hderives with
  | letter | symbol | command => exact (WellFormedBetween.refl _).cons (by simp)
  | number hrun => exact hrun.wellFormedBetween.cons (by simp)
  | emptyText | text | symbolDelimiter | commandDelimiter =>
      exact ((WellFormedBetween.refl _).cons (by simp)).cons (by simp)
  | inBraces _ ih | sequence _ ih => exact ih
  | braced _ _ ih | chemical _ _ _ ih | bare _ _ ih | environment _ _ ih =>
      exact ih.cons (by simp)
  | twoBraced _ _ _ hfirst hsecond => exact (hfirst.trans hsecond).cons (by simp)
  | group _ ih => exact (hclose (by simp) ih).cons (by simp)
  | noScript | noItem => exact .refl _
  | script _ _ hattached hscripts => exact (hattached.trans hscripts).cons (by simp)
  | item _ _ _ _ hbase hscripts hnodes => exact (hbase.trans hscripts).trans hnodes
  | sequenceOfScripts _ _ _ _ hscripts hnodes => exact hscripts.trans hnodes
  | lastCell _ ih => exact hclose (by simp) ih
  | nextCell _ _ hcell hrows | nextRow _ _ hcell hrows =>
      exact (hclose (by simp) hcell).trans hrows

end FormulaMarkup
