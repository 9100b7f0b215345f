import FormulaMarkup.Proofs.BracedScripts
import FormulaMarkup.Proofs.FormulaGrammar
import FormulaMarkup.Proofs.LegibleTokens
import Mathlib.Data.List.Chain

/-!
# Written phrases

The canonical text of a node is read again as the node with braces around its
scripts, wherever it stands.  This file says it for one construct at a time,
given that it holds for the parts.

The only token that looks at what follows is a numeral, since a number goes on
as long as there are numerals.  So a phrase is read again if what comes next is
allowed, and besides it is said when a text can begin with a numeral.
-/

namespace FormulaMarkup

/-! ## The characters of the canonical text -/

def Node.written (node : Node) : List Char := node.canonicalText.toList

def writtenRow (row : List Node) : List Char := List.intercalate ['&'] (row.map Node.written)

def writtenRows (rows : List (List Node)) : List Char :=
  List.intercalate ['\\', '\\'] (rows.map writtenRow)

namespace Node

theorem written_eq : written = fun node => (node.text .canonical).toList := rfl

theorem written_literal (value : String) :
    (literal value).written = value.toList ++ if isControlWord value then [' '] else [] := by
  by_cases hword : isControlWord value
  · simp [written_eq, Node.text, literalText, hword]
  · simp [written_eq, Node.text, literalText, hword]

theorem written_of_isPlain {c : Char} (hplain : IsPlain c) (others : List Char) :
    (literal (String.ofList (c :: others))).written = c :: others := by
  have hslash : c ≠ '\\' := fun h => hplain.special (by simp [h])
  have hword : isControlWord (String.ofList (c :: others)) = false := by
    simp only [isControlWord, String.toList_ofList]
    simp [hslash]
  rw [written_literal, hword, String.toList_ofList]
  simp

theorem written_ofChar {c : Char} (hplain : IsPlain c) : (ofChar c).written = [c] := by
  have hsingle : ofChar c = literal (String.ofList [c]) := by
    simp [ofChar]
  rw [hsingle, written_of_isPlain hplain]

theorem written_sequence (nodes : List Node) :
    (sequence false nodes).written = nodes.flatMap written := by
  simp [written_eq, Node.text, String.toList_join, List.flatMap_map]

theorem written_group (nodes : List Node) :
    (sequence true nodes).written = '{' :: (nodes.flatMap written ++ ['}']) := by
  simp [written_eq, Node.text, inBraces, String.toList_join, List.flatMap_map]

theorem written_of_isCurly {node : Node} (hcurly : node.isCurly = true) :
    ∃ after, node.written = '{' :: after := by
  cases node with
  | sequence curly nodes =>
      obtain rfl : curly = true := hcurly
      exact ⟨_, written_group nodes⟩
  | _ => cases hcurly

theorem written_script (side : Side) (base attached : Node) :
    (script side base attached).written =
      base.written ++ (side.mark.toList ++ attached.enclosed.written) := by
  simp [written_eq, Node.text, bracing_text]

theorem written_bare (name : String) (argument : Node) :
    (unary .bare name argument).written = name.toList ++ ' ' :: argument.written := by
  simp [written_eq, Node.text]

theorem written_braced
    {name : String} {argument : Node}
    (hshape : shape? name ≠ some .rawText) (hcurly : argument.isCurly = true) :
    (unary .braced name argument).written = name.toList ++ argument.written := by
  simp [written_eq, Node.text, hshape, bracing_of_isCurly hcurly]

theorem written_textBox
    {name : String} {argument : Node} (hshape : shape? name = some .rawText) :
    (unary .braced name argument).written =
      name.toList ++ '{' :: ((argument.text .verbatim).toList ++ ['}']) := by
  simp [written_eq, Node.text, hshape, inBraces]

theorem written_binary
    {name : String} {first second : Node}
    (hfirst : first.isCurly = true) (hsecond : second.isCurly = true) :
    (binary name first second).written = name.toList ++ (first.written ++ second.written) := by
  simp [written_eq, Node.text, bracing_of_isCurly hfirst, bracing_of_isCurly hsecond]

theorem written_table (environment : Environment) (rows : List (List Node)) :
    (table environment rows).written =
      Lexer.environmentMark true environment.name.toList ++
        (writtenRows rows ++ Lexer.environmentMark false environment.name.toList) := by
  have hrow : writtenRow = fun row => List.intercalate ['&'] (row.map written) := rfl
  simp [written_eq, hrow, Node.text, inBraces, writtenRows, Lexer.environmentMark,
    Lexer.environmentCommand, Function.comp_def]

end Node

/-! ## Numerals -/

theorem Token.numeral?_eq_some_iff {token : Token} {c : Char} :
    token.numeral? = some c ↔ token = .digit c ∨ (token = .symbol c ∧ c = '.') := by
  cases token with
  | digit d =>
      have hdigit : (Token.digit d).numeral? = some d := rfl
      simp [hdigit]
  | symbol d =>
      have hsymbol : (Token.symbol d).numeral? = if d = '.' then some d else none := rfl
      rw [hsymbol]
      by_cases hpoint : d = '.'
      · rw [if_pos hpoint]
        constructor
        · rintro ⟨⟩
          exact .inr ⟨rfl, hpoint⟩
        · rintro (hdigit | ⟨hsame, _⟩)
          · cases hdigit
          · rw [Token.symbol.inj hsame]
      · rw [if_neg hpoint]
        constructor
        · nofun
        · rintro (hdigit | ⟨hsame, hc⟩)
          · cases hdigit
          · exact absurd ((Token.symbol.inj hsame).trans hc) hpoint
  | _ => exact ⟨nofun, by simp⟩

/-- The next token is a digit or a point. -/
def NumeralNext (rest : List Lexeme) : Prop :=
  ∃ lexeme ∈ rest.head?, lexeme.token.numeral? ≠ none

@[simp] theorem numeralNext_cons (lexeme : Lexeme) (rest : List Lexeme) :
    NumeralNext (lexeme :: rest) ↔ lexeme.token.numeral? ≠ none := by
  simp [NumeralNext]

theorem NumeralNext.elim
    {lexeme : Lexeme} {rest : List Lexeme} {p : Prop} (hnone : lexeme.token.numeral? = none)
    (hnumeral : NumeralNext (lexeme :: rest)) : p :=
  absurd hnone ((numeralNext_cons lexeme rest).mp hnumeral)

theorem AtSequenceEnd.not_numeralNext {rest : List Lexeme} (hend : AtSequenceEnd rest) :
    ¬ NumeralNext rest := by
  rintro ⟨⟨token, span⟩, hlexeme, hnumeral⟩
  have hends := hend _ hlexeme
  cases token with
  | endOfInput | closeBrace | nextCell | nextRow | ending => exact hnumeral rfl
  | _ => cases hends

/-- If both lexemes are numerals, nothing stands between them. -/
def Adjoins (first second : Lexeme) : Prop :=
  first.token.numeral? ≠ none → second.token.numeral? ≠ none →
    first.span.stop = second.span.start

instance : DecidableRel Adjoins := fun first second =>
  inferInstanceAs (Decidable (first.token.numeral? ≠ none → second.token.numeral? ≠ none →
    first.span.stop = second.span.start))

/-- No numeral is parted from a numeral that comes next by a blank or a comment. -/
def UnbrokenNumerals (lexemes : List Lexeme) : Prop := lexemes.IsChain Adjoins

instance : DecidablePred UnbrokenNumerals := fun lexemes =>
  inferInstanceAs (Decidable (lexemes.IsChain Adjoins))

/-- A number goes on as long as there are numerals, so none comes after it. -/
theorem NumberRun.not_numeralNext
    {offset : Nat} {input rest : List Lexeme} {numerals : List Char}
    (hrun : NumberRun offset input numerals rest) {last : Lexeme}
    (hnumeral : last.token.numeral? ≠ none) (hoffset : last.span.stop = offset)
    (hunbroken : UnbrokenNumerals (last :: input)) :
    ¬ NumeralNext rest := by
  induction hrun generalizing last with
  | @stop offset rest hstop =>
      rintro ⟨next, hnext, hnextNumeral⟩
      cases rest with
      | nil => cases hnext
      | cons lexeme after =>
          cases hnext
          have hadjoins := (List.isChain_cons_cons.mp hunbroken).1
          have hstart := hadjoins hnumeral hnextNumeral
          exact hstop next rfl hnextNumeral (hstart.symm.trans hoffset)
  | next hnext _ ih => exact ih (by simp [hnext]) rfl hunbroken.tail

/-- A character that is a numeral wherever it is written. -/
structure IsNumeral (c : Char) : Prop where
  plain : IsPlain c
  numeral : (characterToken c).numeral? = some c

theorem isNumeral_of_isLegible
    {token : Token} {c : Char} (hlegible : token.IsLegible) (hnumeral : token.numeral? = some c) :
    IsNumeral c := by
  have hcharacter : IsPlain c ∧ characterToken c = token := by
    rcases Token.numeral?_eq_some_iff.mp hnumeral with rfl | ⟨rfl, _⟩
    · exact hlegible
    · exact hlegible
  obtain ⟨hplain, rfl⟩ := hcharacter
  exact ⟨hplain, hnumeral⟩

theorem NumberRun.isNumeral
    {offset : Nat} {input rest : List Lexeme} {numerals : List Char}
    (hrun : NumberRun offset input numerals rest)
    (hlegible : ∀ lexeme ∈ input, lexeme.token.IsLegible) :
    ∀ c ∈ numerals, IsNumeral c := by
  induction hrun with
  | stop => simp
  | next hnumeral _ ih =>
      rw [List.forall_mem_cons] at hlegible ⊢
      exact ⟨isNumeral_of_isLegible hlegible.1 hnumeral, ih hlegible.2⟩

/-- Numerals that are written without a gap are read without one. -/
theorem reads_numerals
    {numerals suffix : List Char} {lexer : Lexer} (hnumerals : ∀ c ∈ numerals, IsNumeral c)
    (hbox : lexer.textBoxNext = false) (hrest : lexer.rest = numerals ++ suffix) :
    ∃ lexemes, lexer.Reads lexemes (lexer.advance numerals suffix) ∧
      ∀ out, ¬ NumeralNext out → NumberRun lexer.position (lexemes ++ out) numerals out := by
  induction numerals generalizing lexer with
  | nil =>
      have hstay : lexer.advance [] suffix = lexer := Lexer.advance_nil hrest
      rw [hstay]
      refine ⟨[], .done, ?_⟩
      intro out hout
      refine .stop ?_
      intro lexeme hlexeme hnumeral
      exact absurd ⟨lexeme, hlexeme, hnumeral⟩ hout
  | cons c others ih =>
      rw [List.forall_mem_cons] at hnumerals
      have hfirst := Lexer.reads_of_isPlain hbox hrest hnumerals.1.plain
      obtain ⟨lexemes, hreads, hrun⟩ :=
        @ih (lexer.advance [c] (others ++ suffix)) hnumerals.2 hbox rfl
      rw [Lexer.advance_advance] at hreads
      refine ⟨_, hfirst.trans hreads, ?_⟩
      intro out hout
      let lexeme : Lexeme := ⟨characterToken c, ⟨lexer.position, lexer.position + c.utf8Size⟩⟩
      have hothers : NumberRun lexeme.span.stop (lexemes ++ out) others out := hrun out hout
      have hwhole : NumberRun lexeme.span.start (lexeme :: (lexemes ++ out)) (c :: others) out :=
        .next hnumerals.1.numeral hothers
      exact hwhole

/-! ## Phrases that are read again -/

/-- Wherever the text is written, the phrase is read if what comes next is
allowed.  The text begins with a numeral only under the last condition. -/
def Rereads (chemistry : Bool) (depth : Nat) (phrase : Phrase) (text : List Char)
    (allowed : List Lexeme → Prop) (starts : Prop) : Prop :=
  Spells text fun lexemes => ∀ out, allowed out →
    Derives chemistry depth phrase (lexemes ++ out) out ∧
      (NumeralNext (lexemes ++ out) → starts)

/-- What may follow a number at a place where the formula had these lexemes next. -/
def FollowsLike (rest out : List Lexeme) : Prop := NumeralNext out → NumeralNext rest

section Rereading

variable {chemistry : Bool} {depth : Nat} {starts : Prop}

theorem rereads_character
    {c : Char} {token : Token} {allowed : List Lexeme → Prop}
    (hplain : IsPlain c) (htoken : characterToken c = token)
    (hderives : ∀ span out,
      Derives chemistry depth (.primary (.ofChar c)) (⟨token, span⟩ :: out) out) :
    Rereads chemistry depth (.primary (.ofChar c)) [c] allowed (token.numeral? ≠ none) := by
  refine (Spells.plain hplain).mono ?_
  rintro _ ⟨span, rfl⟩ out _
  rw [htoken]
  exact ⟨hderives span out, by simp⟩

theorem rereads_number
    {c : Char} {numerals : List Char} {rest : List Lexeme}
    (hplain : IsPlain c) (hdigit : characterToken c = .digit c)
    (hnumerals : ∀ d ∈ numerals, IsNumeral d) (hrest : ¬ NumeralNext rest) (hstarts : starts) :
    Rereads chemistry depth (.primary (.literal (String.ofList (c :: numerals))))
      (c :: numerals) (FollowsLike rest) starts := by
  intro lexer suffix hbox hhere
  have hfirst := Lexer.reads_of_isPlain hbox hhere hplain
  rw [hdigit] at hfirst
  have hafter : (lexer.advance [c] (numerals ++ suffix)).textBoxNext = false := hbox
  obtain ⟨lexemes, hreads, hrun⟩ := reads_numerals hnumerals hafter rfl
  rw [Lexer.advance_advance] at hreads
  refine ⟨_, hfirst.trans hreads, ?_⟩
  intro out hout
  have hnone : ¬ NumeralNext out := fun h => hrest (hout h)
  exact ⟨.number (hrun out hnone), fun _ => hstarts⟩

theorem spells_literal
    {name : String} (hname : IsCommand name) (hshape : shape? name = none) :
    Spells (Node.literal name).written fun lexemes =>
      ∃ span, lexemes = [⟨.command name, span⟩] := by
  have hgap : Spells (if isControlWord name then [' '] else []) fun lexemes => lexemes = [] := by
    split
    · exact Spells.blank (by decide)
    · exact Spells.nil rfl
  rw [Node.written_literal]
  refine (Spells.command hname (by simp [hshape]) ?_ hgap).mono ?_
  · intro hword suffix
    rw [if_pos hword]
    exact stopsName_blank suffix
  · rintro _ ⟨span, _, rfl, rfl⟩
    exact ⟨span, rfl⟩

/-- A command before an argument in braces. -/
theorem spells_bracedCommand
    {name : String} {text : List Char} {property : List Lexeme → Prop}
    (hname : IsCommand name) (hshape : shape? name ≠ some .rawText)
    (hbrace : ∃ after, text = '{' :: after) (htext : Spells text property) :
    Spells (name.toList ++ text) fun lexemes =>
      ∃ span rest, property rest ∧ lexemes = ⟨.command name, span⟩ :: rest := by
  obtain ⟨after, rfl⟩ := hbrace
  refine Spells.command hname hshape ?_ htext
  intro _ suffix
  exact stopsName_brace _

/-- A command that stands before its argument with a blank between them. -/
theorem spells_bareCommand
    {name : String} {argument : Node} {property : List Lexeme → Prop}
    (hname : IsCommand name) (hshape : shape? name ≠ some .rawText)
    (hargument : Spells argument.written property) :
    Spells (Node.unary .bare name argument).written fun lexemes =>
      ∃ span rest, property rest ∧ lexemes = ⟨.command name, span⟩ :: rest := by
  have htext : Spells ([' '] ++ argument.written) property := by
    refine Spells.append (Spells.blank (by decide)) hargument ?_
    rintro _ rest rfl hrest
    exact hrest
  rw [Node.written_bare]
  refine Spells.command hname hshape ?_ htext
  intro _ suffix
  exact stopsName_blank _

theorem rereads_group
    {nodes : List Node} {text : List Char}
    (hnodes : Rereads chemistry depth (.sequence nodes) text AtSequenceEnd starts) :
    Rereads chemistry (depth + 1) (.group (.sequence true nodes)) ('{' :: (text ++ ['}']))
      (fun _ => True) False := by
  refine (Spells.braces hnodes).mono ?_
  rintro _ ⟨opening, closing, inner, hinner, rfl⟩ out _
  have hend : AtSequenceEnd (⟨.closeBrace, closing⟩ :: out) := by
    intro lexeme hlexeme
    cases hlexeme
    rfl
  have hsequence := (hinner _ hend).1
  constructor
  · rw [List.cons_append, List.append_assoc]
    exact .group hsequence
  · exact NumeralNext.elim rfl

theorem Rereads.primary_of_group
    {node : Node} {text : List Char} {allowed : List Lexeme → Prop}
    (hgroup : Rereads chemistry depth (.group node) text (fun _ => True) False) :
    Rereads chemistry depth (.primary node) text allowed starts := by
  refine Spells.mono hgroup ?_
  intro lexemes hread out _
  obtain ⟨hderives, hnone⟩ := hread out trivial
  exact ⟨.inBraces hderives, fun hnumeral => (hnone hnumeral).elim⟩

/-- A script that stood without braces is read again as a group of one item. -/
theorem rereads_enclosed
    {attached : Node} {rest : List Lexeme}
    (hattached : ∀ depth, attached.Fits depth →
      Rereads chemistry depth (.primary attached.braceScripts) attached.written
        (FollowsLike rest) starts)
    (hfits : attached.enclosed.Fits depth) :
    Rereads chemistry depth (.primary attached.enclosed.braceScripts) attached.enclosed.written
      (FollowsLike rest) True := by
  by_cases hcurly : attached.isCurly = true
  · have henclosed : attached.enclosed = attached := if_pos hcurly
    rw [henclosed] at hfits ⊢
    refine (hattached depth hfits).mono ?_
    intro lexemes hread out hout
    exact ⟨(hread out hout).1, fun _ => trivial⟩
  · have henclosed : attached.enclosed = .sequence true [attached] := if_neg hcurly
    rw [henclosed] at hfits ⊢
    obtain ⟨below, rfl, hbelow⟩ := hfits.group
    have hprimary := hattached below (hbelow.items attached (by simp))
    have hsequence : Rereads chemistry below (.sequence [attached.braceScripts]) attached.written
        AtSequenceEnd True := by
      refine hprimary.mono ?_
      intro lexemes hread out hend
      have hnone := hend.not_numeralNext
      have hderives := (hread out fun hnumeral => absurd hnumeral hnone).1
      exact ⟨.sequence (.item hderives (Nat.zero_le _) .noScript (.noItem hend)),
        fun _ => trivial⟩
    have hwritten : (Node.sequence true [attached]).written =
        '{' :: (attached.written ++ ['}']) := by
      simp [Node.written_group]
    rw [hwritten]
    exact (rereads_group hsequence).primary_of_group

end Rereading

/-! ## Tables that are read again -/

theorem writtenRow_cons_cons (cell next : Node) (row : List Node) :
    writtenRow (cell :: next :: row) = cell.written ++ (['&'] ++ writtenRow (next :: row)) := by
  simp [writtenRow, List.intercalate]

theorem writtenRows_singleton (cell : Node) : writtenRows [[cell]] = cell.written := by
  simp [writtenRows, writtenRow, List.intercalate]

theorem writtenRows_nextRow (cell : Node) (row : List Node) (rows : List (List Node)) :
    writtenRows ([cell] :: row :: rows) =
      cell.written ++ (['\\', '\\'] ++ writtenRows (row :: rows)) := by
  simp [writtenRows, writtenRow, List.intercalate]

theorem writtenRows_nextCell (cell next : Node) (row : List Node) (rows : List (List Node)) :
    writtenRows ((cell :: next :: row) :: rows) =
      cell.written ++ (['&'] ++ writtenRows ((next :: row) :: rows)) := by
  cases rows with
  | nil => simp [writtenRows, List.intercalate, writtenRow_cons_cons]
  | cons second rows => simp [writtenRows, List.intercalate, writtenRow_cons_cons]

section Tables

variable {chemistry : Bool} {depth : Nat}

theorem lastRowDropped_braceScripts
    {rows : List (List Node)} (hblank : endsInBlankRow rows = false) :
    LastRowDropped (rows.map (List.map Node.braceScripts))
      (rows.map (List.map Node.braceScripts)) := by
  refine .inr ⟨rfl, ?_⟩
  intro before hbefore hrows
  obtain ⟨kept, last, rfl, rfl, hlast⟩ := List.map_eq_append_iff.mp hrows
  have hkept : kept ≠ [] := by simpa using hbefore
  simp only [List.map_eq_singleton_iff] at hlast
  obtain ⟨row, rfl, cell, rfl, hcell⟩ := hlast
  have hempty : cell.isEmptySequence = true := by
    cases cell with
    | sequence curly nodes => simp_all [Node.braceScripts, Node.isEmptySequence]
    | _ => simp [Node.braceScripts] at hcell
  simp [endsInBlankRow, hempty, hkept] at hblank

/-- The cell is read again as a sequence. -/
def Node.RereadsAsCell (chemistry : Bool) (depth : Nat) (cell : Node) : Prop :=
  ∃ nodes, cell.braceScripts = .sequence false nodes ∧
    Rereads chemistry depth (.sequence nodes) cell.written AtSequenceEnd True

/-- A cell, the mark that parts it from what follows, and what follows. -/
theorem spells_cell
    {nodes : List Node} {token : Token} {cell mark text : List Char}
    {property : List Lexeme → Prop}
    (hcell : Rereads chemistry depth (.sequence nodes) cell AtSequenceEnd True)
    (hmark : Spells mark fun lexemes => ∃ span, lexemes = [⟨token, span⟩])
    (hends : token.endsSequence = true) (htext : Spells text property) :
    Spells (cell ++ (mark ++ text)) fun lexemes =>
      ∃ first span rest, lexemes = first ++ ⟨token, span⟩ :: rest ∧ property rest ∧
        ∀ out, Derives chemistry depth (.sequence nodes) (first ++ ⟨token, span⟩ :: out)
          (⟨token, span⟩ :: out) := by
  have hafter : Spells (mark ++ text) fun lexemes =>
      ∃ span rest, lexemes = ⟨token, span⟩ :: rest ∧ property rest := by
    refine hmark.append htext ?_
    rintro _ rest ⟨span, rfl⟩ hrest
    exact ⟨span, rest, rfl, hrest⟩
  refine Spells.append hcell hafter ?_
  rintro first _ hfirst ⟨span, rest, rfl, hrest⟩
  refine ⟨first, span, rest, rfl, hrest, ?_⟩
  intro out
  refine (hfirst _ ?_).1
  intro lexeme hlexeme
  cases hlexeme
  exact hends

/-- The rows are read again up to the end of their environment. -/
def RereadsAsRows (chemistry : Bool) (depth : Nat) (environment : Environment)
    (rows : List (List Node)) : Prop :=
  Spells (writtenRows rows) fun lexemes => ∀ span out,
    Derives chemistry depth (.rows environment (rows.map (List.map Node.braceScripts)))
      (lexemes ++ ⟨.ending environment.name, span⟩ :: out) out

theorem rereads_cons_row
    {environment : Environment} {row : List Node} {rows : List (List Node)}
    (hrow : row ≠ []) (hcells : ∀ cell ∈ row, cell.RereadsAsCell chemistry depth)
    (hrows : rows ≠ [] → RereadsAsRows chemistry depth environment rows) :
    RereadsAsRows chemistry depth environment (row :: rows) := by
  obtain ⟨cell, others, rfl⟩ := List.exists_cons_of_ne_nil hrow
  clear hrow
  induction others generalizing cell with
  | nil =>
      obtain ⟨nodes, hnodes, hcell⟩ := hcells cell (by simp)
      unfold RereadsAsRows
      cases rows with
      | nil =>
          rw [writtenRows_singleton]
          refine Spells.mono hcell ?_
          intro lexemes hread span out
          have hend : AtSequenceEnd (⟨.ending environment.name, span⟩ :: out) := by
            intro lexeme hlexeme
            cases hlexeme
            rfl
          have hlast := Derives.lastCell (hread _ hend).1
          simpa [hnodes] using hlast
      | cons second rows =>
          have htext := hrows (by simp)
          rw [writtenRows_nextRow]
          refine (spells_cell hcell Spells.rowBreak rfl htext).mono ?_
          rintro _ ⟨first, mark, rest, rfl, hrest, hfirst⟩ span out
          have hwhole := Derives.nextRow (hfirst _) (hrest span out)
          simpa [hnodes] using hwhole
  | cons next others ih =>
      obtain ⟨nodes, hnodes, hcell⟩ := hcells cell (by simp)
      have htext := ih next fun other hother => hcells other (List.mem_cons_of_mem _ hother)
      have hmark : Spells ['&'] fun lexemes => ∃ span, lexemes = [⟨.nextCell, span⟩] :=
        Spells.plain ⟨by decide, by decide⟩
      unfold RereadsAsRows
      rw [writtenRows_nextCell]
      refine (spells_cell hcell hmark rfl htext).mono ?_
      rintro _ ⟨first, mark, rest, rfl, hrest, hfirst⟩ span out
      have hwhole := Derives.nextCell (hfirst _) (hrest span out)
      simpa [hnodes] using hwhole

theorem rereads_rows
    {environment : Environment} {rows : List (List Node)} (hrows : rows ≠ [])
    (hcells : ∀ row ∈ rows, row ≠ [] ∧ ∀ cell ∈ row, cell.RereadsAsCell chemistry depth) :
    RereadsAsRows chemistry depth environment rows := by
  induction rows with
  | nil => exact absurd rfl hrows
  | cons row rows ih =>
      rw [List.forall_mem_cons] at hcells
      exact rereads_cons_row hcells.1.1 hcells.1.2 fun hne => ih hne hcells.2

theorem rereads_table
    {environment : Environment} {rows : List (List Node)} {allowed : List Lexeme → Prop}
    {starts : Prop}
    (hblank : endsInBlankRow rows = false)
    (hrows : RereadsAsRows chemistry depth environment rows) :
    Rereads chemistry (depth + 1) (.primary (Node.table environment rows).braceScripts)
      (Node.table environment rows).written allowed starts := by
  have hname : ∀ c ∈ environment.name.toList, isEnvironmentNameCharacter c = true := by
    rw [← List.all_eq_true]
    cases environment <;> decide
  rw [Node.written_table]
  refine (Spells.environment hname hrows).mono ?_
  rintro _ ⟨beginning, ending, inner, hinner, rfl⟩ out _
  rw [String.ofList_toList]
  constructor
  · rw [List.cons_append, List.append_assoc, Node.braceScripts, braceScriptsOfRows_eq_map]
    exact .environment (hinner ending out) (lastRowDropped_braceScripts hblank)
  · exact NumeralNext.elim rfl

end Tables

end FormulaMarkup
