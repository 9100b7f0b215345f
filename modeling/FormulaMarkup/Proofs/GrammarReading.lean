import FormulaMarkup.Proofs.FormulaGrammar

/-!
# Reading by the grammar

What is read is exactly what the grammar derives, one reading function after
the other.  Every level of the parser is compared with one depth of the
grammar.  Therefore no induction goes over derivations: within a level the
lexemes get fewer, and the level below is known to be right.
-/

namespace FormulaMarkup

/-! ## Numbers and the ends of sequences -/

theorem numberRun_splitNumber (offset : Nat) (input : List Lexeme) :
    NumberRun offset input (splitNumber offset input).1 (splitNumber offset input).2 := by
  induction input generalizing offset with
  | nil => exact .stop (by simp)
  | cons lexeme rest ih =>
      simp only [splitNumber]
      cases hnumeral : lexeme.token.numeral? with
      | none => exact .stop (by simp [hnumeral])
      | some c =>
          by_cases hadjacent : lexeme.span.start = offset
          · subst hadjacent
            simpa using NumberRun.next hnumeral (ih lexeme.span.stop)
          · simpa [hadjacent] using NumberRun.stop (by simp [hadjacent])

theorem NumberRun.eq_splitNumber
    {offset : Nat} {input rest : List Lexeme} {numerals : List Char}
    (hrun : NumberRun offset input numerals rest) :
    splitNumber offset input = (numerals, rest) := by
  induction hrun with
  | @stop offset rest hstop =>
      cases rest with
      | nil => rfl
      | cons lexeme after =>
          have hhead := hstop lexeme (by simp)
          simp only [splitNumber]
          split
          · next hnumeral => simp [hhead (by simp [hnumeral])]
          · rfl
  | next hnumeral _ ih => simp [splitNumber, hnumeral, ih]

theorem numberRun_iff
    {offset : Nat} {input rest : List Lexeme} {numerals : List Char} :
    NumberRun offset input numerals rest ↔ splitNumber offset input = (numerals, rest) := by
  constructor
  · exact NumberRun.eq_splitNumber
  · intro hsplit
    have hrun := numberRun_splitNumber offset input
    rwa [hsplit] at hrun

theorem endsSequence_peek_iff (rules : ReadingRules) (rest : List Lexeme) :
    (rules.peek rest).token.endsSequence = true ↔ AtSequenceEnd rest := by
  cases rest with
  | nil => simp [ReadingRules.peek, AtSequenceEnd, Token.endsSequence]
  | cons lexeme after => simp [ReadingRules.peek, AtSequenceEnd]

/-! ## Reading on one level -/

/-- A parser reads exactly the primaries of a depth. -/
def NodeParser.ReadsPrimaries (chemistry : Bool) (depth : Nat) (parser : NodeParser) : Prop :=
  ∀ input node rest,
    parser.run input = .ok (node, rest) ↔ Derives chemistry depth (.primary node) input rest

section Level

variable {chemistry : Bool} {depth : Nat} {primary : NodeParser} (rules : ReadingRules)

theorem readArgument_eq_ok_iff
    (hprimary : primary.ReadsPrimaries chemistry depth)
    {input rest : List Lexeme} {node : Node} :
    readArgument rules primary input = .ok (node, rest) ↔
      Derives chemistry depth (.primary node) input rest := by
  constructor
  · intro hread
    unfold readArgument at hread
    split at hread
    all_goals first | exact (hprimary _ _ _).mp hread | simp at hread
  · intro hderives
    obtain ⟨⟨token, span⟩, after, rfl, hends, hscript⟩ := hderives.head_of_primary
    rw [← hprimary] at hderives
    unfold readArgument
    cases token with
    | script side => exact absurd rfl (hscript side)
    | endOfInput | closeBrace | ending | nextCell | nextRow => simp [Token.endsSequence] at hends
    | _ => exact hderives

theorem readScripts_eq_ok_iff_of_noScriptNext
    {allowed : Nat} {base node : Node} {input rest : List Lexeme}
    (hnext : NoScriptNext input) :
    readScripts rules primary allowed base input = .ok (node, rest) ↔
      NoScriptNext rest ∧
        ∃ count ≤ allowed, Derives chemistry depth (.scripts count base node) input rest := by
  have hread : readScripts rules primary allowed base input = .ok (base, input) := by
    unfold readScripts
    split
    · next side span after => exact absurd rfl (hnext _ rfl side)
    · rfl
  rw [hread]
  constructor
  · rintro ⟨⟩
    exact ⟨hnext, 0, Nat.zero_le _, .noScript⟩
  · rintro ⟨_, count, _, hscripts⟩
    obtain ⟨rfl, rfl⟩ := hscripts.eq_of_scripts_of_noScriptNext hnext
    rfl

/-- Scripts are read as long as there are any, which may be as many as are allowed. -/
theorem readScripts_eq_ok_iff
    (hprimary : primary.ReadsPrimaries chemistry depth)
    {allowed : Nat} {base node : Node} {input rest : List Lexeme} :
    readScripts rules primary allowed base input = .ok (node, rest) ↔
      NoScriptNext rest ∧
        ∃ count ≤ allowed, Derives chemistry depth (.scripts count base node) input rest := by
  induction allowed generalizing base input with
  | zero =>
      rcases script_or_noScriptNext input with ⟨side, span, after, rfl⟩ | hnone
      · constructor
        · simp [readScripts]
        · rintro ⟨hnext, count, hcount, hscripts⟩
          obtain rfl := Nat.le_zero.mp hcount
          cases hscripts with
          | noScript => exact absurd rfl (hnext _ rfl side)
      · exact readScripts_eq_ok_iff_of_noScriptNext rules hnone
  | succ fewer ih =>
      rcases script_or_noScriptNext input with ⟨side, span, after, rfl⟩ | hnone
      · constructor
        · intro hread
          simp only [readScripts] at hread
          split at hread
          · simp at hread
          · next attached middle hargument =>
              obtain ⟨hnext, count, hcount, hscripts⟩ := ih.mp hread
              have hattached := (readArgument_eq_ok_iff rules hprimary).mp hargument
              exact ⟨hnext, count + 1, Nat.succ_le_succ hcount, .script hattached hscripts⟩
        · rintro ⟨hnext, count, hcount, hscripts⟩
          cases hscripts with
          | noScript => exact absurd rfl (hnext _ rfl side)
          | script hattached hscripts =>
              have hargument := (readArgument_eq_ok_iff rules hprimary).mpr hattached
              have hread := ih.mpr ⟨hnext, _, Nat.le_of_succ_le_succ hcount, hscripts⟩
              simp only [readScripts, hargument, hread]
      · exact readScripts_eq_ok_iff_of_noScriptNext rules hnone

theorem readItem_eq_ok_iff_of_noScriptNext
    (hprimary : primary.ReadsPrimaries chemistry depth)
    {node : Node} {input rest : List Lexeme} (hnext : NoScriptNext input) :
    readItem rules primary input = .ok (node, rest) ↔
      ∃ base middle, Derives chemistry depth (.primary base) input middle ∧
        readScripts rules primary nestingLimit base middle = .ok (node, rest) := by
  unfold readItem
  split
  · next side hside =>
      cases input with
      | nil => simp [ReadingRules.peek] at hside
      | cons lexeme after => exact absurd hside (hnext lexeme rfl side)
  · constructor
    · intro hread
      split at hread
      · simp at hread
      · next base middle hbase => exact ⟨base, middle, (hprimary _ _ _).mp hbase, hread⟩
    · rintro ⟨base, middle, hbase, hread⟩
      rw [← hprimary] at hbase
      simpa only [hbase] using hread

theorem readSequence_of_atSequenceEnd
    {input : List Lexeme} (hend : AtSequenceEnd input) :
    readSequence rules primary input = .ok ([], input) := by
  rw [readSequence_eq, if_pos ((endsSequence_peek_iff rules input).mpr hend)]

theorem readSequence_eq_ok_iff_cons
    {nodes : List Node} {input rest : List Lexeme} (hgoes : ¬ AtSequenceEnd input) :
    readSequence rules primary input = .ok (nodes, rest) ↔
      ∃ node others after, nodes = node :: others ∧
        readItem rules primary input = .ok (node, after) ∧
        readSequence rules primary after = .ok (others, rest) := by
  rw [readSequence_eq, if_neg (mt (endsSequence_peek_iff rules input).mp hgoes)]
  constructor
  · intro hread
    split at hread
    · simp at hread
    · next node after hitem =>
        split at hread
        · simp at hread
        · next others final hothers =>
            simp only [Except.ok.injEq, Prod.mk.injEq] at hread
            obtain ⟨rfl, rfl⟩ := hread
            exact ⟨node, others, after, rfl, hitem, hothers⟩
  · rintro ⟨node, others, after, rfl, hitem, hothers⟩
    simp only [hitem, hothers]

/-- A sequence that does not begin with a script has only items with a base. -/
theorem readSequence_eq_ok_iff_items
    (hprimary : primary.ReadsPrimaries chemistry depth)
    {nodes : List Node} {input rest : List Lexeme} (hnext : NoScriptNext input) :
    readSequence rules primary input = .ok (nodes, rest) ↔
      Derives chemistry depth (.items nodes) input rest := by
  induction hlength : input.length using Nat.strongRecOn generalizing input nodes with
  | ind size ih =>
      subst hlength
      by_cases hend : AtSequenceEnd input
      · rw [readSequence_of_atSequenceEnd rules hend]
        constructor
        · rintro ⟨⟩
          exact .noItem hend
        · intro hderives
          cases hderives with
          | noItem => rfl
          | item hbase =>
              obtain ⟨lexeme, after, rfl, hends, _⟩ := hbase.head_of_primary
              simp [AtSequenceEnd, hends] at hend
      · rw [readSequence_eq_ok_iff_cons rules hend]
        constructor
        · rintro ⟨node, others, after, rfl, hitem, hothers⟩
          obtain ⟨base, middle, hbase, hscripts⟩ :=
            (readItem_eq_ok_iff_of_noScriptNext rules hprimary hnext).mp hitem
          obtain ⟨hafter, count, hcount, hscripts⟩ :=
            (readScripts_eq_ok_iff rules hprimary).mp hscripts
          have hnodes := (ih _ (readItem_shrinks hitem) hafter rfl).mp hothers
          exact .item hbase hcount hscripts hnodes
        · intro hderives
          cases hderives with
          | noItem hends => exact absurd hends hend
          | item hbase hcount hscripts hnodes =>
              have hafter := hnodes.noScriptNext_of_items
              have hread := (readScripts_eq_ok_iff rules hprimary).mpr
                ⟨hafter, _, hcount, hscripts⟩
              have hitem := (readItem_eq_ok_iff_of_noScriptNext rules hprimary hnext).mpr
                ⟨_, _, hbase, hread⟩
              have hothers := (ih _ (readItem_shrinks hitem) hafter rfl).mpr hnodes
              exact ⟨_, _, _, rfl, hitem, hothers⟩

theorem readSequence_eq_ok_iff
    (hprimary : primary.ReadsPrimaries chemistry depth)
    {nodes : List Node} {input rest : List Lexeme} :
    readSequence rules primary input = .ok (nodes, rest) ↔
      Derives chemistry depth (.sequence nodes) input rest := by
  rcases script_or_noScriptNext input with ⟨side, span, input, rfl⟩ | hnext
  · have hgoes : ¬ AtSequenceEnd (⟨.script side, span⟩ :: input) := by
      simp [AtSequenceEnd, Token.endsSequence]
    have hbaseless : readItem rules primary (⟨.script side, span⟩ :: input) =
        readScripts rules primary nestingLimit (.sequence false [])
          (⟨.script side, span⟩ :: input) := rfl
    rw [readSequence_eq_ok_iff_cons rules hgoes, hbaseless]
    constructor
    · rintro ⟨node, others, after, rfl, hitem, hothers⟩
      obtain ⟨hafter, count, hcount, hscripts⟩ :=
        (readScripts_eq_ok_iff rules hprimary).mp hitem
      have hpositive : 0 < count := by
        cases hscripts with
        | noScript => exact absurd rfl (hafter _ rfl side)
        | script => exact Nat.succ_pos _
      have hnodes := (readSequence_eq_ok_iff_items rules hprimary hafter).mp hothers
      exact .sequenceOfScripts hpositive hcount hscripts hnodes
    · intro hderives
      cases hderives with
      | sequence hnodes => exact absurd rfl (hnodes.noScriptNext_of_items _ rfl side)
      | sequenceOfScripts _ hcount hscripts hnodes =>
          have hafter := hnodes.noScriptNext_of_items
          have hitem := (readScripts_eq_ok_iff rules hprimary).mpr ⟨hafter, _, hcount, hscripts⟩
          have hothers := (readSequence_eq_ok_iff_items rules hprimary hafter).mpr hnodes
          exact ⟨_, _, _, rfl, hitem, hothers⟩
  · rw [readSequence_eq_ok_iff_items rules hprimary hnext]
    constructor
    · exact .sequence
    · intro hderives
      cases hderives with
      | sequence hnodes => exact hnodes
      | sequenceOfScripts hpositive _ hscripts _ =>
          cases hscripts with
          | noScript => simp at hpositive
          | script => exact absurd rfl (hnext _ rfl _)

theorem readRows_eq_ok_iff
    (hprimary : primary.ReadsPrimaries chemistry depth)
    {environment : Environment} {row : List Node} {rows : List (List Node)}
    {input rest : List Lexeme} :
    readRows rules primary environment input = .ok ((row, rows), rest) ↔
      Derives chemistry depth (.rows environment (row :: rows)) input rest := by
  induction hlength : input.length using Nat.strongRecOn generalizing input row rows with
  | ind size ih =>
      subst hlength
      rw [readRows_eq]
      constructor
      · intro hread
        split at hread
        · simp at hread
        · next nodes span middle hcell =>
            have hle := length_readSequence_le hcell
            rw [readSequence_eq_ok_iff rules hprimary] at hcell
            split at hread
            · simp at hread
            · next row' rows' after hrows =>
                simp only [Except.ok.injEq, Prod.mk.injEq] at hread
                obtain ⟨⟨rfl, rfl⟩, rfl⟩ := hread
                rw [ih _ (Nat.lt_of_succ_le hle) rfl] at hrows
                exact .nextCell hcell hrows
        · next nodes span middle hcell =>
            have hle := length_readSequence_le hcell
            rw [readSequence_eq_ok_iff rules hprimary] at hcell
            split at hread
            · simp at hread
            · next row' rows' after hrows =>
                simp only [Except.ok.injEq, Prod.mk.injEq] at hread
                obtain ⟨⟨rfl, rfl⟩, rfl⟩ := hread
                rw [ih _ (Nat.lt_of_succ_le hle) rfl] at hrows
                exact .nextRow hcell hrows
        · next nodes name span after hcell =>
            rw [readSequence_eq_ok_iff rules hprimary] at hcell
            split at hread
            · simp at hread
            · next found hfound =>
                split at hread
                · next hsame =>
                    subst hsame
                    simp only [Except.ok.injEq, Prod.mk.injEq] at hread
                    obtain ⟨⟨rfl, rfl⟩, rfl⟩ := hread
                    obtain rfl := Environment.name_of_ofName? hfound
                    exact .lastCell hcell
                · simp at hread
        · simp at hread
      · intro hderives
        cases hderives with
        | lastCell hcell =>
            rw [← readSequence_eq_ok_iff rules hprimary] at hcell
            simp [hcell]
        | nextCell hcell hrows =>
            rw [← readSequence_eq_ok_iff rules hprimary] at hcell
            have hle := length_readSequence_le hcell
            rw [← ih _ (Nat.lt_of_succ_le hle) rfl] at hrows
            simp only [hcell, hrows]
        | nextRow hcell hrows =>
            rw [← readSequence_eq_ok_iff rules hprimary] at hcell
            have hle := length_readSequence_le hcell
            cases rows with
            | nil => cases hrows
            | cons row' rows' =>
                rw [← ih _ (Nat.lt_of_succ_le hle) rfl] at hrows
                simp only [hcell, hrows]

end Level

/-! ## The last row of an environment -/

theorem dropEmptyLastRow_append
    {before : List (List Node)} {last : List Node}
    (hlast : last ≠ [.sequence false []]) (hplain : CellsPlain (before ++ [last])) :
    dropEmptyLastRow (before ++ [last]) = before ++ [last] := by
  unfold dropEmptyLastRow
  rw [List.getLast?_concat]
  split
  · next cell hcell =>
      cases hcell
      obtain ⟨nodes, rfl⟩ := hplain [cell] (by simp) cell (by simp)
      cases nodes with
      | nil => exact absurd rfl hlast
      | cons node others => rfl
  · rfl

theorem lastRowDropped_dropEmptyLastRow
    {rows : List (List Node)} (hplain : CellsPlain rows) :
    LastRowDropped rows (dropEmptyLastRow rows) := by
  rcases List.eq_nil_or_concat rows with rfl | ⟨before, last, rfl⟩
  · exact .inr ⟨rfl, by simp⟩
  · rw [List.concat_eq_append] at hplain ⊢
    by_cases hlast : last = [.sequence false []]
    · subst hlast
      by_cases hbefore : before = []
      · subst hbefore
        right
        refine ⟨rfl, ?_⟩
        intro others hothers heq
        have hlength := congrArg List.length heq
        simp at hlength
        exact hothers hlength
      · left
        have hpos := List.length_pos_iff.mpr hbefore
        have hdrop : dropEmptyLastRow (before ++ [[.sequence false []]]) = before := by
          simp [dropEmptyLastRow, Node.isEmptySequence, hpos]
        rw [hdrop]
        exact ⟨hbefore, rfl⟩
    · rw [dropEmptyLastRow_append hlast hplain]
      right
      refine ⟨rfl, ?_⟩
      intro others _ heq
      have hends := List.append_inj_right' heq rfl
      simp only [List.cons.injEq, and_true] at hends
      exact hlast hends

theorem lastRowDropped_iff
    {read kept : List (List Node)} (hplain : CellsPlain read) :
    LastRowDropped read kept ↔ dropEmptyLastRow read = kept := by
  constructor
  · intro hdropped
    exact (lastRowDropped_dropEmptyLastRow hplain).unique hdropped
  · rintro rfl
    exact lastRowDropped_dropEmptyLastRow hplain

/-! ## Groups, commands and environments -/

/-- The parsers of a level read exactly the primaries and groups of a depth. -/
structure Level.ReadsDepth (chemistry : Bool) (depth : Nat) (level : Level) : Prop where
  primary : level.primary.ReadsPrimaries chemistry depth
  group : ∀ span input node rest,
    (level.group span).run input = .ok (node, rest) ↔
      Derives chemistry depth (.group node) (⟨.openBrace, span⟩ :: input) rest

/-- The levels that can be entered are as many as the depth says, and each is right. -/
def LevelsBelow (chemistry : Bool) : Nat → Option Level → Prop
  | 0, none => True
  | depth + 1, some level => level.ReadsDepth chemistry depth
  | _, _ => False

theorem groupParser_eq_ok_iff
    {rules : ReadingRules} {depth : Nat} {below : Option Level}
    (hbelow : LevelsBelow rules.chemistry depth below)
    {span : Span} {input rest : List Lexeme} {node : Node} :
    (groupParser rules below span).run input = .ok (node, rest) ↔
      Derives rules.chemistry depth (.group node) (⟨.openBrace, span⟩ :: input) rest := by
  match depth, below, hbelow with
  | 0, none, _ =>
      constructor
      · simp [groupParser]
      · intro hderives
        cases hderives
  | depth + 1, some level, hlevel =>
      constructor
      · intro hread
        simp only [groupParser] at hread
        split at hread
        · simp at hread
        · next nodes closing after hnodes =>
            simp only [Except.ok.injEq, Prod.mk.injEq] at hread
            obtain ⟨rfl, rfl⟩ := hread
            exact .group ((readSequence_eq_ok_iff rules hlevel.primary).mp hnodes)
        · simp at hread
      · intro hderives
        cases hderives with
        | group hnodes =>
            rw [← readSequence_eq_ok_iff rules hlevel.primary] at hnodes
            simp only [groupParser, hnodes]

section Below

variable {rules : ReadingRules} {depth : Nat} {level : Level}

theorem readBraced_eq_ok_iff
    (hlevel : level.ReadsDepth rules.chemistry depth)
    (command : String) {input rest : List Lexeme} {node : Node} :
    readBraced rules level command input = .ok (node, rest) ↔
      Derives rules.chemistry depth (.group node) input rest := by
  constructor
  · intro hread
    unfold readBraced at hread
    split at hread
    · exact (hlevel.group _ _ _ _).mp hread
    · simp at hread
  · intro hderives
    cases hderives with
    | group hnodes => exact (hlevel.group _ _ _ _).mpr (.group hnodes)

theorem derives_of_readShaped
    (hlevel : level.ReadsDepth rules.chemistry depth)
    {span : Span} {name : String} {shape : ArgumentShape} {input rest : List Lexeme} {node : Node}
    (hshape : shape? name = some shape)
    (hread : readShaped rules level span name shape input = .ok (node, rest)) :
    Derives rules.chemistry (depth + 1) (.primary node) (⟨.command name, span⟩ :: input) rest := by
  cases shape with
  | braced =>
      simp only [readShaped] at hread
      split at hread
      · simp at hread
      · next argument after hargument =>
          simp only [Except.ok.injEq, Prod.mk.injEq] at hread
          obtain ⟨rfl, rfl⟩ := hread
          exact .braced hshape ((readBraced_eq_ok_iff hlevel name).mp hargument)
  | bare =>
      simp only [readShaped] at hread
      split at hread
      · simp at hread
      · next argument after hargument =>
          simp only [Except.ok.injEq, Prod.mk.injEq] at hread
          obtain ⟨rfl, rfl⟩ := hread
          exact .bare hshape ((readArgument_eq_ok_iff rules hlevel.primary).mp hargument)
  | twoBraced =>
      simp only [readShaped] at hread
      split at hread
      · simp at hread
      · next first middle hfirst =>
          split at hread
          · simp at hread
          · next second after hsecond =>
              simp only [Except.ok.injEq, Prod.mk.injEq] at hread
              obtain ⟨rfl, rfl⟩ := hread
              exact .twoBraced hshape ((readBraced_eq_ok_iff hlevel name).mp hfirst)
                ((readBraced_eq_ok_iff hlevel name).mp hsecond)
  | rawText =>
      simp only [readShaped] at hread
      split at hread
      · next content box after =>
          simp only [Except.ok.injEq, Prod.mk.injEq] at hread
          obtain ⟨rfl, rfl⟩ := hread
          by_cases hcontent : content = ""
          · subst hcontent
            exact .emptyText hshape
          · simpa [hcontent] using Derives.text hshape hcontent
      · simp at hread
  | chemistry =>
      simp only [readShaped] at hread
      split at hread
      · next hchemistry =>
          split at hread
          · simp at hread
          · next argument after hargument =>
              simp only [Except.ok.injEq, Prod.mk.injEq] at hread
              obtain ⟨rfl, rfl⟩ := hread
              exact .chemical hchemistry hshape ((readBraced_eq_ok_iff hlevel name).mp hargument)
      · simp at hread
  | delimiter =>
      simp only [readShaped] at hread
      split at hread
      · next delimiter hdelimiter =>
          simp only [Except.ok.injEq, Prod.mk.injEq] at hread
          obtain ⟨rfl, rfl⟩ := hread
          cases input with
          | nil => simp [ReadingRules.peek, Token.delimiter?] at hdelimiter
          | cons lexeme after =>
              obtain ⟨token, mark⟩ := lexeme
              cases token with
              | symbol c =>
                  simp only [ReadingRules.peek, Token.delimiter?, Option.some.injEq] at hdelimiter
                  subst hdelimiter
                  exact .symbolDelimiter hshape
              | command other =>
                  simp only [ReadingRules.peek, Token.delimiter?] at hdelimiter
                  split at hdelimiter
                  · next hplain =>
                      cases hdelimiter
                      exact .commandDelimiter hshape hplain
                  · cases hdelimiter
              | _ => simp [ReadingRules.peek, Token.delimiter?] at hdelimiter
      · simp at hread

theorem readShaped_of_derives
    (hlevel : level.ReadsDepth rules.chemistry depth)
    {span : Span} {name : String} {shape : ArgumentShape} {input rest : List Lexeme} {node : Node}
    (hshape : shape? name = some shape)
    (hderives : Derives rules.chemistry (depth + 1) (.primary node)
      (⟨.command name, span⟩ :: input) rest) :
    readShaped rules level span name shape input = .ok (node, rest) := by
  -- every rule for a command fixes the shape of its name, so only one shape is left
  cases hderives with
  | command hother => simp [hother] at hshape
  | inBraces hgroup => cases hgroup
  | braced hother hargument =>
      obtain rfl := Option.some.inj (hother.symm.trans hshape)
      rw [← readBraced_eq_ok_iff hlevel name] at hargument
      simp only [readShaped, hargument]
  | chemical hchemistry hother hargument =>
      obtain rfl := Option.some.inj (hother.symm.trans hshape)
      rw [← readBraced_eq_ok_iff hlevel name] at hargument
      simp only [readShaped, hchemistry, if_true, hargument]
  | bare hother hargument =>
      obtain rfl := Option.some.inj (hother.symm.trans hshape)
      rw [← readArgument_eq_ok_iff rules hlevel.primary] at hargument
      simp only [readShaped, hargument]
  | twoBraced hother hfirst hsecond =>
      obtain rfl := Option.some.inj (hother.symm.trans hshape)
      rw [← readBraced_eq_ok_iff hlevel name] at hfirst hsecond
      simp only [readShaped, hfirst, hsecond]
  | emptyText hother =>
      obtain rfl := Option.some.inj (hother.symm.trans hshape)
      rfl
  | text hother hcontent =>
      obtain rfl := Option.some.inj (hother.symm.trans hshape)
      simp [readShaped, hcontent]
  | symbolDelimiter hother =>
      obtain rfl := Option.some.inj (hother.symm.trans hshape)
      rfl
  | commandDelimiter hother hplain =>
      obtain rfl := Option.some.inj (hother.symm.trans hshape)
      simp [readShaped, ReadingRules.peek, Token.delimiter?, hplain]

end Below

theorem readCommand_eq_ok_iff
    {rules : ReadingRules} {depth : Nat} {below : Option Level}
    (hbelow : LevelsBelow rules.chemistry depth below)
    {span : Span} {name : String} {input rest : List Lexeme} {node : Node} :
    readCommand rules below span name input = .ok (node, rest) ↔
      Derives rules.chemistry depth (.primary node) (⟨.command name, span⟩ :: input) rest := by
  cases hshape : shape? name with
  | none =>
      unfold readCommand
      rw [hshape]
      constructor
      · rintro ⟨⟩
        exact .command hshape
      · intro hderives
        cases hderives with
        | command => rfl
        | inBraces hgroup => cases hgroup
        | _ => simp_all
  | some shape =>
      match depth, below, hbelow with
      | 0, none, _ =>
          constructor
          · simp [readCommand, hshape]
          · intro hderives
            cases hderives with
            | command hother => simp [hshape] at hother
            | inBraces hgroup => cases hgroup
      | depth + 1, some level, hlevel =>
          have hread : readCommand rules (some level) span name input =
              readShaped rules level span name shape input := by
            simp only [readCommand, hshape]
          rw [hread]
          exact ⟨derives_of_readShaped hlevel hshape, readShaped_of_derives hlevel hshape⟩

theorem readEnvironment_eq_ok_iff
    {rules : ReadingRules} {depth : Nat} {below : Option Level}
    (hbelow : LevelsBelow rules.chemistry depth below)
    {span : Span} {name : String} {input rest : List Lexeme} {node : Node} :
    readEnvironment rules below span name input = .ok (node, rest) ↔
      Derives rules.chemistry depth (.primary node) (⟨.beginning name, span⟩ :: input) rest := by
  match depth, below, hbelow with
  | 0, none, _ =>
      constructor
      · intro hread
        simp only [readEnvironment] at hread
        split at hread <;> simp_all
      · intro hderives
        cases hderives with
        | inBraces hgroup => cases hgroup
  | depth + 1, some level, hlevel =>
      constructor
      · intro hread
        simp only [readEnvironment] at hread
        split at hread
        · simp at hread
        · simp at hread
        · next environment level' henvironment hlevel' =>
            cases hlevel'
            obtain rfl := Environment.name_of_ofName? henvironment
            split at hread
            · simp at hread
            · next row rows after hrows =>
                simp only [Except.ok.injEq, Prod.mk.injEq] at hread
                obtain ⟨rfl, rfl⟩ := hread
                rw [readRows_eq_ok_iff rules hlevel.primary] at hrows
                exact .environment hrows (lastRowDropped_dropEmptyLastRow hrows.hasPlainCells)
      · intro hderives
        cases hderives with
        | inBraces hgroup => cases hgroup
        | @environment _ environment _ read kept _ _ hrows hkept =>
            have hplain : CellsPlain read := hrows.hasPlainCells
            rw [lastRowDropped_iff hplain] at hkept
            cases read with
            | nil => cases hrows
            | cons row rows =>
                rw [← readRows_eq_ok_iff rules hlevel.primary] at hrows
                simp only [readEnvironment, Environment.ofName?_name, hrows, hkept]

theorem readPrimary_eq_ok_iff
    {rules : ReadingRules} {depth : Nat} {below : Option Level}
    (hbelow : LevelsBelow rules.chemistry depth below)
    {input rest : List Lexeme} {node : Node} :
    readPrimary rules below input = .ok (node, rest) ↔
      Derives rules.chemistry depth (.primary node) input rest := by
  cases input with
  | nil =>
      constructor
      · intro hread
        cases hread
      · intro hderives
        obtain ⟨_, _, hinput, _⟩ := hderives.head_of_primary
        cases hinput
  | cons lexeme after =>
      obtain ⟨token, span⟩ := lexeme
      cases token with
      | letter c =>
          constructor
          · rintro ⟨⟩
            exact .letter
          · intro hderives
            cases hderives with
            | letter => rfl
            | inBraces hgroup => cases hgroup
      | symbol c =>
          constructor
          · rintro ⟨⟩
            exact .symbol
          · intro hderives
            cases hderives with
            | symbol => rfl
            | inBraces hgroup => cases hgroup
      | digit c =>
          constructor
          · rintro ⟨⟩
            exact .number (numberRun_splitNumber span.stop after)
          · intro hderives
            cases hderives with
            | number hrun =>
                rw [numberRun_iff] at hrun
                have hread : readPrimary rules below (⟨.digit c, span⟩ :: after) =
                    .ok (.literal (String.ofList (c :: (splitNumber span.stop after).1)),
                      (splitNumber span.stop after).2) := rfl
                rw [hread, hrun]
            | inBraces hgroup => cases hgroup
      | openBrace =>
          have hgroup : (groupParser rules below span).run after = .ok (node, rest) ↔
              Derives rules.chemistry depth (.group node) (⟨.openBrace, span⟩ :: after) rest :=
            groupParser_eq_ok_iff hbelow
          constructor
          · intro hread
            exact .inBraces (hgroup.mp hread)
          · intro hderives
            cases hderives with
            | inBraces hderives => exact hgroup.mpr hderives
      | command name => exact readCommand_eq_ok_iff hbelow
      | beginning name => exact readEnvironment_eq_ok_iff hbelow
      | _ =>
          constructor
          · intro hread
            cases hread
          · intro hderives
            cases hderives with
            | inBraces hgroup => cases hgroup

/-! ## Whole formulas -/

theorem readsDepth_above
    {rules : ReadingRules} {depth : Nat} {below : Option Level}
    (hbelow : LevelsBelow rules.chemistry depth below) :
    (Level.above rules below).ReadsDepth rules.chemistry depth where
  primary _ _ _ := readPrimary_eq_ok_iff hbelow
  group _ _ _ _ := groupParser_eq_ok_iff hbelow

theorem readsDepth_levelWithin (rules : ReadingRules) (depth : Nat) :
    (levelWithin rules depth).ReadsDepth rules.chemistry depth := by
  induction depth with
  | zero => exact readsDepth_above trivial
  | succ deeper ih => exact readsDepth_above ih

theorem readTokens_eq_ok_iff
    {rules : ReadingRules} {input : List Lexeme} {tree : Node} :
    readTokens rules input = .ok tree ↔
      ∃ nodes, tree = .sequence false nodes ∧
        Derives rules.chemistry nestingLimit (.sequence nodes) input [] := by
  have hprimary := (readsDepth_levelWithin rules nestingLimit).primary
  unfold readTokens
  constructor
  · intro hread
    split at hread
    · simp at hread
    · next nodes hnodes =>
        cases hread
        exact ⟨nodes, rfl, (readSequence_eq_ok_iff rules hprimary).mp hnodes⟩
    · simp at hread
  · rintro ⟨nodes, rfl, hnodes⟩
    rw [← readSequence_eq_ok_iff rules hprimary] at hnodes
    simp only [hnodes]

/-- Exactly the formulas that the grammar derives are read, and as the trees
that it derives. -/
theorem parseFormula_eq_ok_iff (chemistry : Bool) (formula : String) (tree : Node) :
    parseFormula chemistry formula = .ok tree ↔
      (∀ lexeme ∈ tokenize formula, ∀ fault, lexeme.token ≠ .malformed fault) ∧
        ∃ nodes, tree = .sequence false nodes ∧
          Derives chemistry nestingLimit (.sequence nodes) (tokenize formula) [] := by
  unfold parseFormula
  rw [readTokens_eq_ok_iff]
  constructor
  · rintro ⟨nodes, rfl, hderives⟩
    obtain ⟨taken, htaken, hwell⟩ := hderives.wellFormedBetween
    rw [List.append_nil] at htaken
    exact ⟨htaken ▸ hwell, nodes, rfl, hderives⟩
  · rintro ⟨_, hderives⟩
    exact hderives

end FormulaMarkup
