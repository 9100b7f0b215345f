import FormulaMarkup.Proofs.LayoutFailures

/-!
# Nodes that formulas are read as

A tree that a formula is read as is seen here node by node, without the phrases
in between.  What is kept is what its layout depends on: the shapes of the
names, the arguments that are not laid out as formulas, and that every name is
the name of a command token of the formula.  A property of the layouts of
formulas is shown by induction on such trees, with one case for each kind of
node.
-/

namespace FormulaMarkup

/-- The lexemes have a command of this name. -/
def CommandIn (lexemes : List Lexeme) (name : String) : Prop :=
  ∃ span, ⟨.command name, span⟩ ∈ lexemes

/-- A node that formulas are read as, with names that are known. -/
inductive Node.IsRead (known : String → Prop) : Node → Prop
  | literal {value : String}
      (hcommand : LiteralClass.of value = .command → known value ∧ shape? value = none) :
      IsRead known (.literal value)
  | sequence {curly : Bool} {items : List Node} (hitems : ∀ item ∈ items, item.IsRead known) :
      IsRead known (.sequence curly items)
  | script {side : Side} {base attached : Node} (hbase : base.IsRead known)
      (hattached : attached.IsRead known) :
      IsRead known (.script side base attached)
  | unary {style : ArgumentStyle} {name : String} {argument : Node} {shape : ArgumentShape}
      (hname : known name) (hshape : shape? name = some shape)
      (hone : shape = .braced ∨ shape = .bare) (hargument : argument.IsRead known) :
      IsRead known (.unary style name argument)
  | chemistry {style : ArgumentStyle} {name : String} {curly : Bool} {items : List Node}
      (hname : known name) (hshape : shape? name = some .chemistry)
      (hitems : ∀ item ∈ items, item.IsRead known) :
      IsRead known (.unary style name (.sequence curly items))
  | text {style : ArgumentStyle} {name content : String} (hname : known name)
      (hshape : shape? name = some .rawText) :
      IsRead known (.unary style name (boxedText content))
  | delimiter {style : ArgumentStyle} {name value : String} (hname : known name)
      (hshape : shape? name = some .delimiter)
      (hclass : LiteralClass.of value = .symbol ∨
        LiteralClass.of value = .command ∧ known value) :
      IsRead known (.unary style name (.literal value))
  | binary {name : String} {first second : Node} (hname : known name)
      (hshape : shape? name = some .twoBraced) (hfirst : first.IsRead known)
      (hsecond : second.IsRead known) :
      IsRead known (.binary name first second)
  | table {environment : Environment} {rows : List (List Node)}
      (hcells : ∀ row ∈ rows, ∀ cell ∈ row, cell.IsRead known) :
      IsRead known (.table environment rows)

/-- What a phrase gives to the trees that it is part of. -/
def Phrase.IsRead (known : String → Prop) : Phrase → Prop
  | .primary node => node.IsRead known
  | .group node => ∃ nodes, node = .sequence true nodes ∧ ∀ member ∈ nodes, member.IsRead known
  | .scripts _ base node => base.IsRead known → node.IsRead known
  | .items nodes => ∀ node ∈ nodes, node.IsRead known
  | .sequence nodes => ∀ node ∈ nodes, node.IsRead known
  | .rows _ grid => ∀ row ∈ grid, ∀ cell ∈ row, cell.IsRead known

theorem Phrase.IsRead.of_group {known : String → Prop} {node : Node}
    (hgroup : (Phrase.group node).IsRead known) : node.IsRead known := by
  obtain ⟨nodes, rfl, hnodes⟩ := hgroup
  exact .sequence hnodes

theorem Derives.suffix {chemistry : Bool} {depth : Nat} {phrase : Phrase}
    {input rest : List Lexeme} (hderives : Derives chemistry depth phrase input rest) :
    rest <:+ input := by
  obtain ⟨taken, rfl, _⟩ := hderives.wellFormedBetween
  exact List.suffix_append taken rest

section Derivations

variable {chemistry : Bool} {whole : List Lexeme} (hwhole : Legible whole)

include hwhole

theorem Derives.isRead {depth : Nat} {phrase : Phrase} {input rest : List Lexeme}
    (hderives : Derives chemistry depth phrase input rest) (hinput : input <:+ whole) :
    phrase.IsRead (CommandIn whole) := by
  have hcommand {name : String} {span : Span} {rest : List Lexeme}
      (hinput : ⟨.command name, span⟩ :: rest <:+ whole) : CommandIn whole name :=
    ⟨span, hinput.subset List.mem_cons_self⟩
  have hhead {lexeme : Lexeme} {rest : List Lexeme} (hinput : lexeme :: rest <:+ whole) :
      lexeme.token.IsLegible :=
    hwhole lexeme (hinput.subset List.mem_cons_self)
  have htail {lexeme : Lexeme} {rest : List Lexeme} (hinput : lexeme :: rest <:+ whole) :
      rest <:+ whole :=
    (List.suffix_cons lexeme rest).trans hinput
  have hcharacter (c : Char) : (Node.ofChar c).IsRead (CommandIn whole) := by
    apply Node.IsRead.literal
    intro hclass
    rw [LiteralClass.of_toString] at hclass
    exact absurd hclass (LiteralClass.ofChar_ne_command c)
  induction hderives with
  | letter | symbol => exact hcharacter _
  | @number _ c _ numerals _ _ hrun =>
      apply Node.IsRead.literal
      intro hclass
      rw [(hhead hinput).1.literalClass numerals] at hclass
      exact absurd hclass (LiteralClass.ofChar_ne_command c)
  | command hshape => exact .literal fun _ => ⟨hcommand hinput, hshape⟩
  | inBraces _ ih => exact (ih hinput).of_group
  | braced hshape _ ih =>
      exact .unary (hcommand hinput) hshape (.inl rfl) (ih (htail hinput)).of_group
  | chemical _ hshape _ ih =>
      obtain ⟨nodes, rfl, hnodes⟩ := ih (htail hinput)
      exact .chemistry (hcommand hinput) hshape hnodes
  | bare hshape _ ih => exact .unary (hcommand hinput) hshape (.inr rfl) (ih (htail hinput))
  | twoBraced hshape hfirst _ ihfirst ihsecond =>
      have hmiddle := hfirst.suffix.trans (htail hinput)
      exact .binary (hcommand hinput) hshape (ihfirst (htail hinput)).of_group
        (ihsecond hmiddle).of_group
  | @emptyText _ name _ _ _ hshape =>
      have hread : (Node.unary .braced name (boxedText "")).IsRead (CommandIn whole) :=
        .text (hcommand hinput) hshape
      exact hread
  | @text _ name content _ _ _ hshape hcontent =>
      have hread : (Node.unary .braced name (boxedText content)).IsRead (CommandIn whole) :=
        .text (hcommand hinput) hshape
      rwa [boxedText, if_neg hcontent] at hread
  | @symbolDelimiter _ _ c _ _ _ hshape =>
      refine .delimiter (hcommand hinput) hshape (.inl ?_)
      rw [LiteralClass.of_toString, LiteralClass.ofChar_eq_symbol (hhead (htail hinput)).2]
  | commandDelimiter hshape hunshaped =>
      have hclass := (hhead (htail hinput)).literalClass
      exact .delimiter (hcommand hinput) hshape (.inr ⟨hclass, hcommand (htail hinput)⟩)
  | environment _ hkept ih =>
      have hread := ih (htail hinput)
      rcases hkept with ⟨_, rfl⟩ | ⟨rfl, _⟩
      · exact .table fun row hrow => hread row (List.mem_append_left _ hrow)
      · exact .table hread
  | group _ ih => exact ⟨_, rfl, ih (htail hinput)⟩
  | noScript => exact id
  | script hattached _ ihattached ihscripts =>
      intro hbase
      have hmiddle := hattached.suffix.trans (htail hinput)
      exact ihscripts hmiddle (.script hbase (ihattached (htail hinput)))
  | noItem => exact fun node hnode => absurd hnode List.not_mem_nil
  | item hbase _ hscripts _ ihbase ihscripts ihnodes =>
      have hmiddle := hbase.suffix.trans hinput
      have hafter := hscripts.suffix.trans hmiddle
      exact List.forall_mem_cons.mpr ⟨ihscripts hmiddle (ihbase hinput), ihnodes hafter⟩
  | sequence _ ih => exact ih hinput
  | sequenceOfScripts _ _ hscripts _ ihscripts ihnodes =>
      have hempty : (Node.sequence false []).IsRead (CommandIn whole) := .sequence (by simp)
      have hafter := hscripts.suffix.trans hinput
      exact List.forall_mem_cons.mpr ⟨ihscripts hinput hempty, ihnodes hafter⟩
  | lastCell _ ih => simpa [Phrase.IsRead] using Node.IsRead.sequence (ih hinput)
  | nextCell hcell _ ihcell ihrows =>
      have hrest := ihrows (htail (hcell.suffix.trans hinput))
      simp only [Phrase.IsRead, List.forall_mem_cons] at hrest ⊢
      exact ⟨⟨.sequence (ihcell hinput), hrest.1⟩, hrest.2⟩
  | nextRow hcell _ ihcell ihrows =>
      have hrest := ihrows (htail (hcell.suffix.trans hinput))
      simp only [Phrase.IsRead, List.forall_mem_cons] at hrest ⊢
      exact ⟨⟨.sequence (ihcell hinput), by simp⟩, hrest⟩

end Derivations

/-- The names in a tree are commands of the formula that it was read from. -/
theorem isRead_of_parseFormula {chemistry : Bool} {formula : String} {tree : Node}
    (hparse : parseFormula chemistry formula = .ok tree) :
    tree.IsRead (CommandIn (tokenize formula)) := by
  obtain ⟨nodes, rfl, hderives⟩ := readTokens_eq_ok_iff.mp hparse
  have hlegible : Legible (tokenize formula) :=
    fun _ hlexeme => Lexer.isLegible_of_mem_lexemes hlexeme
  exact .sequence (hderives.isRead hlegible List.suffix_rfl)

end FormulaMarkup
