import FormulaMarkup.FormulaConversion
import FormulaMarkup.Proofs.CanonicalLimits
import FormulaMarkup.Proofs.ReadTrees

/-!
# Canonical texts of canonical texts

Numerals that were parted by a blank stand side by side in the canonical text,
where they are read as one number.  So the text may be read as another tree;
but what a number takes from the nodes after it keeps its place, and the other
tree has the same text.

This is said with lexemes that have no gaps between them.  From any tree that
comes out of reading such lexemes can be put together, with braces around the
scripts, that are read as a tree of the same text.  Since they have no gaps,
that tree is read again from its text.
-/

namespace FormulaMarkup

/-! ## Trees that fit -/

namespace Node.Fits

variable {depth : Nat}

theorem literal (value : String) : (Node.literal value).Fits depth := by
  constructor
  · simp [Node.tables]
  · simp [Node.braceScripts, Node.nesting]

theorem of_items {nodes : List Node} (hnodes : ∀ node ∈ nodes, node.Fits depth) :
    (Node.sequence false nodes).Fits depth := by
  constructor
  · intro rows hrows
    obtain ⟨node, hnode, hrows⟩ := mem_tablesOfAll.mp hrows
    exact (hnodes node hnode).tables rows hrows
  · simp only [Node.braceScripts, braceScriptsOfAll_eq_map, Node.nesting, Bool.toNat_false,
      Nat.add_zero, nestingOfAll_le_iff, List.forall_mem_map]
    intro node hnode
    exact (hnodes node hnode).nesting

theorem of_group {nodes : List Node} (hnodes : ∀ node ∈ nodes, node.Fits depth) :
    (Node.sequence true nodes).Fits (depth + 1) := by
  have hitems := of_items hnodes
  constructor
  · exact hitems.tables
  · have hnesting := hitems.nesting
    simp only [Node.braceScripts, Node.nesting, Bool.toNat_false, Bool.toNat_true,
      Nat.add_zero] at hnesting ⊢
    exact Nat.add_le_add_right hnesting 1

theorem of_script {side : Side} {base attached : Node} (hbase : base.Fits depth)
    (hattached : attached.enclosed.Fits depth) :
    (Node.script side base attached).Fits depth := by
  constructor
  · intro rows hrows
    simp only [Node.tables, List.mem_append] at hrows
    rcases hrows with hrows | hrows
    · exact hbase.tables rows hrows
    · exact hattached.tables rows (attached.tables_enclosed.symm ▸ hrows)
  · have hnesting := hattached.nesting
    rw [Node.braceScripts_enclosed] at hnesting
    simp only [Node.braceScripts, Node.nesting, Nat.max_le]
    exact ⟨hbase.nesting, hnesting⟩

theorem of_argument {style : ArgumentStyle} {name : String} {argument : Node}
    (hargument : argument.Fits depth) : (Node.unary style name argument).Fits (depth + 1) := by
  constructor
  · exact hargument.tables
  · have hnesting := hargument.nesting
    simp only [Node.braceScripts, Node.nesting]
    split <;> omega

theorem of_arguments {name : String} {first second : Node} (hfirst : first.Fits depth)
    (hsecond : second.Fits depth) : (Node.binary name first second).Fits (depth + 1) := by
  constructor
  · intro rows hrows
    simp only [Node.tables, List.mem_append] at hrows
    rcases hrows with hrows | hrows
    · exact hfirst.tables rows hrows
    · exact hsecond.tables rows hrows
  · have hfirst := hfirst.nesting
    have hsecond := hsecond.nesting
    simp only [Node.braceScripts, Node.nesting]
    omega

theorem of_cells {environment : Environment} {rows : List (List Node)}
    (hblank : endsInBlankRow rows = false)
    (hcells : ∀ row ∈ rows, ∀ cell ∈ row, cell.Fits depth) :
    (Node.table environment rows).Fits (depth + 1) := by
  constructor
  · intro found hfound
    simp only [Node.tables, List.mem_cons] at hfound
    rcases hfound with rfl | hfound
    · exact hblank
    · obtain ⟨row, hrow, cell, hcell, hfound⟩ := mem_tablesOfRows.mp hfound
      exact (hcells row hrow cell hcell).tables found hfound
  · simp only [Node.braceScripts, braceScriptsOfRows_eq_map, Node.nesting]
    apply Nat.add_le_add_right
    rw [nestingOfRows_le_iff]
    simp only [List.forall_mem_map]
    intro row hrow cell hcell
    exact (hcells row hrow cell hcell).nesting

end Node.Fits

/-! ## Lexemes without gaps -/

/-- A lexeme of the token.  All such lexemes are at the same place, so none is
parted from the next one. -/
def Token.glued (token : Token) : Lexeme := ⟨token, ⟨0, 0⟩⟩

/-- Lexemes of legible tokens without gaps between them. -/
def Glued (lexemes : List Lexeme) : Prop :=
  ∀ lexeme ∈ lexemes, lexeme.token.IsLegible ∧ lexeme.span = ⟨0, 0⟩

namespace Glued

variable {first second : List Lexeme}

theorem nil : Glued [] := by
  simp [Glued]

theorem cons {token : Token} (htoken : token.IsLegible) (hsecond : Glued second) :
    Glued (token.glued :: second) :=
  List.forall_mem_cons.mpr ⟨⟨htoken, rfl⟩, hsecond⟩

theorem append (hfirst : Glued first) (hsecond : Glued second) : Glued (first ++ second) := by
  intro lexeme hlexeme
  rcases List.mem_append.mp hlexeme with hmem | hmem
  · exact hfirst lexeme hmem
  · exact hsecond lexeme hmem

theorem tail {lexeme : Lexeme} (hglued : Glued (lexeme :: second)) : Glued second :=
  (List.forall_mem_cons.mp hglued).2

theorem head {lexeme : Lexeme} (hglued : Glued (lexeme :: second)) :
    lexeme.token.IsLegible ∧ lexeme.span = ⟨0, 0⟩ :=
  (List.forall_mem_cons.mp hglued).1

theorem rewritable (hglued : Glued first) : Rewritable first := by
  constructor
  · exact fun lexeme hlexeme => (hglued lexeme hlexeme).1
  · unfold UnbrokenNumerals
    induction first with
    | nil => exact .nil
    | cons lexeme rest ih =>
        cases rest with
        | nil => exact .singleton _
        | cons next rest =>
            refine List.isChain_cons_cons.mpr ⟨?_, ih hglued.tail⟩
            intro _ _
            rw [hglued.head.2, hglued.tail.head.2]

end Glued

/-- The numerals that a node takes from what follows.  A node that does not end
in a number takes none. -/
def TakesNumerals (out : List Lexeme) (numerals : List Char) (rest : List Lexeme) : Prop :=
  (numerals = [] ∧ rest = out) ∨ NumberRun 0 out numerals rest

theorem NumberRun.of_not_numeralNext
    {offset : Nat} {input rest : List Lexeme} {numerals : List Char}
    (hrun : NumberRun offset input numerals rest) (hnext : ¬ NumeralNext input) :
    numerals = [] ∧ rest = input := by
  cases hrun with
  | stop => exact ⟨rfl, rfl⟩
  | next hnumeral _ => exact absurd ((numeralNext_cons _ _).mpr (by simp [hnumeral])) hnext

theorem TakesNumerals.of_not_numeralNext
    {out rest : List Lexeme} {numerals : List Char} (htakes : TakesNumerals out numerals rest)
    (hnext : ¬ NumeralNext out) : numerals = [] ∧ rest = out := by
  rcases htakes with hnone | hrun
  · exact hnone
  · exact hrun.of_not_numeralNext hnext

/-! ## Scripts and items on another base -/

section Fusing

variable {chemistry : Bool} {depth enough : Nat}

theorem Derives.rebase
    {count : Nat} {base node : Node} {input rest : List Lexeme}
    (hscripts : Derives chemistry depth (.scripts count base node) input rest)
    (hnode : node.Fits enough) :
    base.Fits enough ∧ ∃ text, node.written = base.written ++ text ∧
      ∀ other, other.Fits enough → ∃ moved,
        Derives chemistry depth (.scripts count other moved) input rest ∧ moved.Fits enough ∧
          moved.written = other.written ++ text := by
  induction count generalizing base input with
  | zero =>
      cases hscripts with
      | noScript =>
          refine ⟨hnode, [], (List.append_nil _).symm, ?_⟩
          intro other hother
          exact ⟨other, .noScript, hother, (List.append_nil _).symm⟩
  | succ count ih =>
      cases hscripts with
      | @script _ _ side _ attached _ _ _ _ _ hattached hothers =>
          obtain ⟨hscript, text, hwritten, hmove⟩ := ih hothers
          refine ⟨hscript.base, side.mark.toList ++ attached.enclosed.written ++ text, ?_, ?_⟩
          · rw [hwritten, Node.written_script]
            simp only [List.append_assoc]
          · intro other hother
            obtain ⟨moved, hmoved, hfits, htext⟩ :=
              hmove (.script side other attached) (.of_script hother hscript.attached)
            refine ⟨moved, .script hattached hmoved, hfits, ?_⟩
            rw [htext, Node.written_script]
            simp only [List.append_assoc]

/-- A base that has taken the numerals which nodes begin with is left with
scripts and further nodes of the same text. -/
def LeavesItems (chemistry : Bool) (depth enough : Nat) (base : Node) (nodes : List Node)
    (numerals : List Char) (middle rest : List Lexeme) : Prop :=
  ∃ count node others after, count ≤ nestingLimit ∧
    Derives chemistry depth (.scripts count base node) middle after ∧
    Derives chemistry depth (.items others) after rest ∧
    (∀ member ∈ node :: others, member.Fits enough) ∧
    ∃ text, nodes.flatMap Node.written = numerals ++ text ∧
      (node :: others).flatMap Node.written = base.written ++ text

/-- The numerals are all of the first node but its scripts. -/
theorem Derives.leavesItems
    {count : Nat} {base first node : Node} {others : List Node} {numerals : List Char}
    {middle after rest : List Lexeme} (hcount : count ≤ nestingLimit)
    (hscripts : Derives chemistry depth (.scripts count first node) middle after)
    (hothers : Derives chemistry depth (.items others) after rest)
    (hnodes : ∀ member ∈ node :: others, member.Fits enough) (hbase : base.Fits enough)
    (hnumerals : first.written = numerals) :
    LeavesItems chemistry depth enough base (node :: others) numerals middle rest := by
  rw [List.forall_mem_cons] at hnodes
  obtain ⟨_, text, hwritten, hmove⟩ := hscripts.rebase hnodes.1
  obtain ⟨moved, hmoved, hfits, htext⟩ := hmove base hbase
  refine ⟨count, moved, others, after, hcount, hmoved, hothers,
    List.forall_mem_cons.mpr ⟨hfits, hnodes.2⟩, text ++ others.flatMap Node.written, ?_, ?_⟩
  · rw [List.flatMap_cons, hwritten, hnumerals, List.append_assoc]
  · rw [List.flatMap_cons, htext, List.append_assoc]

theorem LeavesItems.cons
    {base first : Node} {nodes : List Node} {c : Char} {numerals : List Char}
    {middle rest : List Lexeme}
    (hleaves : LeavesItems chemistry depth enough base nodes numerals middle rest)
    (hfirst : first.written = [c]) :
    LeavesItems chemistry depth enough base (first :: nodes) (c :: numerals) middle rest := by
  obtain ⟨count, node, others, after, hcount, hscripts, hothers, hfits, text, htext, hmoved⟩ :=
    hleaves
  refine ⟨count, node, others, after, hcount, hscripts, hothers, hfits, text, ?_, hmoved⟩
  rw [List.flatMap_cons, hfirst, htext]
  rfl

theorem Derives.fuse
    {offset : Nat} {nodes : List Node} {numerals : List Char} {input middle rest : List Lexeme}
    (hrun : NumberRun offset input numerals middle)
    (hitems : Derives chemistry depth (.items nodes) input rest) (hglued : Glued input)
    (hnodes : ∀ node ∈ nodes, node.Fits enough) {base : Node} (hbase : base.Fits enough) :
    LeavesItems chemistry depth enough base nodes numerals middle rest := by
  induction hrun generalizing nodes with
  | stop =>
      refine ⟨0, base, nodes, _, Nat.zero_le _, .noScript, hitems, ?_, _, rfl, rfl⟩
      exact List.forall_mem_cons.mpr ⟨hbase, hnodes⟩
  | @next lexeme c input middle numerals hnumeral hrun ih =>
      have hnext : NumeralNext (lexeme :: input) :=
        (numeralNext_cons _ _).mpr (by simp [hnumeral])
      obtain ⟨token, span⟩ := lexeme
      cases hitems with
      | noItem hend => exact absurd hnext hend.not_numeralNext
      | item hprimary hcount hscripts hothers =>
          rcases Token.numeral?_eq_some_iff.mp hnumeral with hdigit | ⟨hsymbol, hpoint⟩
          · -- The first item is a number, which has taken the same numerals.
            simp only at hdigit
            subst hdigit
            cases hprimary with
            | number hnumber =>
                cases (numberRun_iff.mp hnumber).symm.trans (numberRun_iff.mp hrun)
                have hwritten := Node.written_of_isPlain hglued.head.1.1 numerals
                exact hscripts.leavesItems hcount hothers hnodes hbase hwritten
            | inBraces hgroup => cases hgroup
          · simp only at hsymbol
            subst hsymbol
            cases hprimary with
            | symbol =>
                have hwritten : (Node.ofChar c).written = [c] :=
                  Node.written_ofChar hglued.head.1.1
                rcases script_or_noScriptNext input with ⟨side, mark, input, rfl⟩ | hnone
                · -- The point is the last numeral, and its scripts are those of the number.
                  obtain ⟨rfl, rfl⟩ := hrun.of_not_numeralNext (NumeralNext.elim rfl)
                  exact hscripts.leavesItems hcount hothers hnodes hbase hwritten
                · obtain ⟨rfl, rfl⟩ := hscripts.eq_of_scripts_of_noScriptNext hnone
                  rw [List.forall_mem_cons] at hnodes
                  exact (ih hothers hglued.tail hnodes.2).cons hwritten
            | inBraces hgroup => cases hgroup

end Fusing

/-! ## Phrases that are read without gaps -/

/-- What a table and its text show of a cell. -/
def Node.shown (cell : Node) : List Char × Bool := (cell.written, cell.isEmptySequence)

/-- Nodes that fit and have the text of other nodes. -/
structure Fused (depth : Nat) (nodes fused : List Node) : Prop where
  fits : ∀ node ∈ fused, node.Fits depth
  written : fused.flatMap Node.written = nodes.flatMap Node.written
  nil_iff : fused = [] ↔ nodes = []

/-- Lexemes without gaps are read as a phrase of the same text.  Only a number
at the end of a node takes something from what follows. -/
def Phrase.Fuses (chemistry : Bool) : Phrase → Prop
  | .primary node => ∃ lexemes, Glued lexemes ∧
      ∀ depth, node.Fits depth → ∀ out, Glued out → ∃ fused numerals rest,
        TakesNumerals out numerals rest ∧
        (node.isCurly = true → fused.isCurly = true ∧ numerals = [] ∧ rest = out) ∧
        Derives chemistry depth (.primary fused) (lexemes ++ out) rest ∧
        fused.Fits depth ∧ fused.written = node.written ++ numerals
  | .group node => node.isCurly = true ∧ ∃ lexemes, Glued lexemes ∧
      ∀ depth, node.Fits depth → ∀ out, Glued out → ∃ fused,
        fused.isCurly = true ∧ Derives chemistry depth (.group fused) (lexemes ++ out) out ∧
        fused.Fits depth ∧ fused.written = node.written
  | .scripts count base node => ∃ lexemes text, Glued lexemes ∧
      node.written = base.written ++ text ∧
      (lexemes = [] ∧ text = [] ∨ ∃ side rest, lexemes = (Token.script side).glued :: rest) ∧
      ∀ depth, node.Fits depth → base.Fits depth ∧
        ∀ other, other.Fits depth → ∀ out, Glued out → ∃ fused,
          Derives chemistry depth (.scripts count other fused) (lexemes ++ out) out ∧
          fused.Fits depth ∧ fused.written = other.written ++ text
  | .items nodes => ∃ lexemes, Glued lexemes ∧
      ∀ depth, (∀ node ∈ nodes, node.Fits depth) → ∀ out, Glued out → AtSequenceEnd out →
        ∃ fused, Derives chemistry depth (.items fused) (lexemes ++ out) out ∧
          Fused depth nodes fused
  | .sequence nodes => ∃ lexemes, Glued lexemes ∧
      ∀ depth, (∀ node ∈ nodes, node.Fits depth) → ∀ out, Glued out → AtSequenceEnd out →
        ∃ fused, Derives chemistry depth (.sequence fused) (lexemes ++ out) out ∧
          Fused depth nodes fused
  | .rows environment grid => ∃ lexemes, Glued lexemes ∧
      ∀ depth, (∀ row ∈ grid, ∀ cell ∈ row, cell.Fits depth) → ∀ out, Glued out →
        ∃ fused, Derives chemistry depth (.rows environment fused) (lexemes ++ out) out ∧
          (∀ row ∈ fused, ∀ cell ∈ row, cell.Fits depth) ∧
          fused.map (List.map Node.shown) = grid.map (List.map Node.shown)

theorem Fused.cons {depth : Nat} {node fusedNode : Node} {nodes fused : List Node}
    (hfits : ∀ member ∈ fusedNode :: fused, member.Fits depth)
    (hwritten : (fusedNode :: fused).flatMap Node.written = (node :: nodes).flatMap Node.written) :
    Fused depth (node :: nodes) (fusedNode :: fused) :=
  ⟨hfits, hwritten, by simp⟩

theorem Fused.shown_cell {depth : Nat} {nodes fused : List Node} (hfused : Fused depth nodes fused) :
    (Node.sequence false fused).shown = (Node.sequence false nodes).shown := by
  have hempty : (Node.sequence false fused).isEmptySequence =
      (Node.sequence false nodes).isEmptySequence := by
    have hiff := hfused.nil_iff
    cases fused <;> cases nodes <;> simp_all [Node.isEmptySequence]
  rw [Node.shown, Node.shown, hempty, Node.written_sequence, Node.written_sequence, hfused.written]

theorem endsInBlankRow_eq_of_shown {first second : List (List Node)}
    (hshown : first.map (List.map Node.shown) = second.map (List.map Node.shown)) :
    endsInBlankRow first = endsInBlankRow second := by
  have hview (rows : List (List Node)) : endsInBlankRow rows =
      (2 ≤ (rows.map (List.map Node.shown)).length &&
        (rows.map (List.map Node.shown)).getLast?.any fun row =>
          row.length == 1 && row.all Prod.snd) := by
    simp [endsInBlankRow, Option.any_map, Function.comp_def, Node.shown]
  rw [hview, hview, hshown]

theorem writtenRows_eq_of_shown {first second : List (List Node)}
    (hshown : first.map (List.map Node.shown) = second.map (List.map Node.shown)) :
    writtenRows first = writtenRows second := by
  have hview (rows : List (List Node)) : writtenRows rows =
      List.intercalate ['\\', '\\'] ((rows.map (List.map Node.shown)).map fun row =>
        List.intercalate ['&'] (row.map Prod.fst)) := by
    have hrow : writtenRow = fun row => List.intercalate ['&'] (row.map Node.written) := rfl
    simp [writtenRows, hrow, Function.comp_def, Node.shown]
  rw [hview, hview, hshown]

theorem lastRowDropped_self {rows : List (List Node)} (hblank : endsInBlankRow rows = false) :
    LastRowDropped rows rows := by
  refine .inr ⟨rfl, ?_⟩
  rintro before hbefore rfl
  simp [endsInBlankRow, Node.isEmptySequence, hbefore] at hblank

theorem atSequenceEnd_cons {token : Token} {span : Span} {rest : List Lexeme}
    (hends : token.endsSequence = true) : AtSequenceEnd (⟨token, span⟩ :: rest) := by
  intro lexeme hlexeme
  cases hlexeme
  exact hends

namespace Phrase.Fuses

variable {chemistry : Bool}

/-- A node that takes nothing from what follows and is read as it is. -/
theorem closed {node : Node} {lexemes : List Lexeme} (hlexemes : Glued lexemes)
    (hcurly : node.isCurly = false)
    (hrule : ∀ depth, node.Fits depth → ∀ out,
      Derives chemistry depth (.primary node) (lexemes ++ out) out) :
    (Phrase.primary node).Fuses chemistry := by
  refine ⟨lexemes, hlexemes, ?_⟩
  intro depth hfits out _
  refine ⟨node, [], out, .inl ⟨rfl, rfl⟩, ?_, hrule depth hfits out, hfits,
    (List.append_nil _).symm⟩
  intro htrue
  rw [hcurly] at htrue
  cases htrue

theorem character {c : Char} (hplain : IsPlain c)
    (htoken : characterToken c = .letter c ∨ characterToken c = .symbol c) :
    (Phrase.primary (.ofChar c)).Fuses chemistry := by
  rcases htoken with hletter | hsymbol
  · have hlegible : (Token.letter c).IsLegible := ⟨hplain, hletter⟩
    exact closed (Glued.nil.cons hlegible) rfl fun _ _ _ => .letter
  · have hlegible : (Token.symbol c).IsLegible := ⟨hplain, hsymbol⟩
    exact closed (Glued.nil.cons hlegible) rfl fun _ _ _ => .symbol

theorem numberRun_glued {numerals others : List Char} {out rest : List Lexeme}
    (hnumerals : ∀ d ∈ numerals, IsNumeral d) (hrun : NumberRun 0 out others rest) :
    NumberRun 0 (numerals.map (fun d => (characterToken d).glued) ++ out)
      (numerals ++ others) rest := by
  induction numerals with
  | nil => exact hrun
  | cons d numerals ih =>
      rw [List.forall_mem_cons] at hnumerals
      have hlexeme : (characterToken d).glued.token.numeral? = some d := hnumerals.1.numeral
      exact .next hlexeme (ih hnumerals.2)

theorem number {c : Char} {numerals : List Char} (hplain : IsPlain c)
    (hdigit : characterToken c = .digit c) (hnumerals : ∀ d ∈ numerals, IsNumeral d) :
    (Phrase.primary (.literal (String.ofList (c :: numerals)))).Fuses chemistry := by
  have hlegible : (Token.digit c).IsLegible := ⟨hplain, hdigit⟩
  have hothers : Glued (numerals.map fun d => (characterToken d).glued) := by
    intro lexeme hlexeme
    obtain ⟨d, hd, rfl⟩ := List.mem_map.mp hlexeme
    exact ⟨Lexer.isLegible_characterToken (hnumerals d hd).plain, rfl⟩
  refine ⟨_, hothers.cons hlegible, ?_⟩
  intro depth _ out _
  have hrun := numberRun_splitNumber 0 out
  refine ⟨.literal (String.ofList (c :: (numerals ++ (splitNumber 0 out).1))), _, _, .inr hrun,
    nofun, .number (numberRun_glued hnumerals hrun), .literal _, ?_⟩
  rw [Node.written_of_isPlain hplain, Node.written_of_isPlain hplain, List.cons_append]

theorem command {name : String} (hname : IsCommand name) (hshape : shape? name = none) :
    (Phrase.primary (.literal name)).Fuses chemistry := by
  have hlegible : (Token.command name).IsLegible := hname
  exact closed (Glued.nil.cons hlegible) rfl fun _ _ _ => .command hshape

theorem inBraces {node : Node} (hgroup : (Phrase.group node).Fuses chemistry) :
    (Phrase.primary node).Fuses chemistry := by
  obtain ⟨_, lexemes, hglued, hread⟩ := hgroup
  refine ⟨lexemes, hglued, ?_⟩
  intro depth hfits out hout
  obtain ⟨fused, hcurly, hderives, hfused, hwritten⟩ := hread depth hfits out hout
  refine ⟨fused, [], out, .inl ⟨rfl, rfl⟩, fun _ => ⟨hcurly, rfl, rfl⟩, .inBraces hderives,
    hfused, ?_⟩
  rw [hwritten, List.append_nil]

theorem braced {name : String} {argument : Node} (hname : IsCommand name)
    (hshape : shape? name ≠ some .rawText) (hargument : (Phrase.group argument).Fuses chemistry)
    (hrule : ∀ depth argument span input rest,
      Derives chemistry depth (.group argument) input rest →
        Derives chemistry (depth + 1) (.primary (.unary .braced name argument))
          (⟨.command name, span⟩ :: input) rest) :
    (Phrase.primary (.unary .braced name argument)).Fuses chemistry := by
  obtain ⟨hcurly, lexemes, hglued, hread⟩ := hargument
  have hlegible : (Token.command name).IsLegible := hname
  refine ⟨_, hglued.cons hlegible, ?_⟩
  intro depth hfits out hout
  obtain ⟨below, rfl, hbelow⟩ := hfits.argument hshape
  obtain ⟨fused, hfusedCurly, hderives, hfused, hwritten⟩ := hread below hbelow out hout
  refine ⟨.unary .braced name fused, [], out, .inl ⟨rfl, rfl⟩, nofun, hrule _ _ _ _ _ hderives,
    .of_argument hfused, ?_⟩
  rw [Node.written_braced hshape hfusedCurly, Node.written_braced hshape hcurly, hwritten,
    List.append_nil]

theorem bare {name : String} {argument : Node} (hname : IsCommand name)
    (hshape : shape? name = some .bare)
    (hargument : (Phrase.primary argument).Fuses chemistry) :
    (Phrase.primary (.unary .bare name argument)).Fuses chemistry := by
  obtain ⟨lexemes, hglued, hread⟩ := hargument
  have hlegible : (Token.command name).IsLegible := hname
  refine ⟨_, hglued.cons hlegible, ?_⟩
  intro depth hfits out hout
  obtain ⟨below, rfl, hbelow⟩ := hfits.argument (by simp [hshape])
  obtain ⟨fused, numerals, rest, htakes, _, hderives, hfused, hwritten⟩ :=
    hread below hbelow out hout
  refine ⟨.unary .bare name fused, numerals, rest, htakes, nofun, .bare hshape hderives,
    .of_argument hfused, ?_⟩
  rw [Node.written_bare, Node.written_bare, hwritten, List.append_assoc, List.cons_append]

theorem twoBraced {name : String} {first second : Node} (hname : IsCommand name)
    (hshape : shape? name = some .twoBraced) (hfirst : (Phrase.group first).Fuses chemistry)
    (hsecond : (Phrase.group second).Fuses chemistry) :
    (Phrase.primary (.binary name first second)).Fuses chemistry := by
  obtain ⟨hfirstCurly, lexemes, hglued, hreadFirst⟩ := hfirst
  obtain ⟨hsecondCurly, others, hothers, hreadSecond⟩ := hsecond
  have hlegible : (Token.command name).IsLegible := hname
  refine ⟨_, (hglued.append hothers).cons hlegible, ?_⟩
  intro depth hfits out hout
  obtain ⟨below, rfl, hfitsFirst, hfitsSecond⟩ := hfits.arguments
  obtain ⟨one, honeCurly, hone, hfitsOne, hwrittenOne⟩ :=
    hreadFirst below hfitsFirst (others ++ out) (hothers.append hout)
  obtain ⟨two, htwoCurly, htwo, hfitsTwo, hwrittenTwo⟩ := hreadSecond below hfitsSecond out hout
  rw [← List.append_assoc] at hone
  refine ⟨.binary name one two, [], out, .inl ⟨rfl, rfl⟩, nofun, .twoBraced hshape hone htwo,
    .of_arguments hfitsOne hfitsTwo, ?_⟩
  rw [Node.written_binary honeCurly htwoCurly, Node.written_binary hfirstCurly hsecondCurly,
    hwrittenOne, hwrittenTwo, List.append_nil]

theorem textBox {name content : String} (hname : IsCommand name)
    (hshape : shape? name = some .rawText) (hcontent : Lexer.IsBoxContent content.toList) :
    (Phrase.primary (.unary .braced name (boxedText content))).Fuses chemistry := by
  have hlegible : (Token.command name).IsLegible := hname
  have hbox : (Token.rawText content).IsLegible := hcontent
  refine closed ((Glued.nil.cons hbox).cons hlegible) rfl ?_
  intro depth hfits out
  obtain ⟨below, rfl⟩ := hfits.exists_below_of_unary
  by_cases hempty : content = ""
  · subst hempty
    exact .emptyText hshape
  · rw [boxedText, if_neg hempty]
    exact .text hshape hempty

theorem symbolDelimiter {name : String} {c : Char} (hname : IsCommand name)
    (hshape : shape? name = some .delimiter) (hplain : IsPlain c)
    (htoken : characterToken c = .symbol c) :
    (Phrase.primary (.unary .bare name (.ofChar c))).Fuses chemistry := by
  have hlegible : (Token.command name).IsLegible := hname
  have hsymbol : (Token.symbol c).IsLegible := ⟨hplain, htoken⟩
  refine closed ((Glued.nil.cons hsymbol).cons hlegible) rfl ?_
  intro depth hfits out
  obtain ⟨below, rfl⟩ := hfits.exists_below_of_unary
  exact .symbolDelimiter hshape

theorem commandDelimiter {name delimiter : String} (hname : IsCommand name)
    (hshape : shape? name = some .delimiter) (hdelimiter : IsCommand delimiter)
    (hunshaped : shape? delimiter = none) :
    (Phrase.primary (.unary .bare name (.literal delimiter))).Fuses chemistry := by
  have hlegible : (Token.command name).IsLegible := hname
  have hcommand : (Token.command delimiter).IsLegible := hdelimiter
  refine closed ((Glued.nil.cons hcommand).cons hlegible) rfl ?_
  intro depth hfits out
  obtain ⟨below, rfl⟩ := hfits.exists_below_of_unary
  exact .commandDelimiter hshape hunshaped

theorem noScript {base : Node} : (Phrase.scripts 0 base base).Fuses chemistry := by
  refine ⟨[], [], .nil, (List.append_nil _).symm, .inl ⟨rfl, rfl⟩, ?_⟩
  intro depth hfits
  refine ⟨hfits, ?_⟩
  intro other hother out _
  exact ⟨other, .noScript, hother, (List.append_nil _).symm⟩

theorem noItem : (Phrase.items []).Fuses chemistry := by
  refine ⟨[], .nil, ?_⟩
  intro depth _ out _ hend
  exact ⟨[], .noItem hend, ⟨by simp, rfl, Iff.rfl⟩⟩

theorem item {count : Nat} {base node : Node} {nodes : List Node}
    (hbase : (Phrase.primary base).Fuses chemistry) (hcount : count ≤ nestingLimit)
    (hscripts : (Phrase.scripts count base node).Fuses chemistry)
    (hnodes : (Phrase.items nodes).Fuses chemistry) :
    (Phrase.items (node :: nodes)).Fuses chemistry := by
  obtain ⟨inner, hinner, hreadBase⟩ := hbase
  obtain ⟨marks, text, hmarks, hwritten, hstart, hreadScripts⟩ := hscripts
  obtain ⟨others, hothers, hreadNodes⟩ := hnodes
  refine ⟨inner ++ (marks ++ others), hinner.append (hmarks.append hothers), ?_⟩
  intro depth hfits out hout hend
  rw [List.forall_mem_cons] at hfits
  obtain ⟨hbaseFits, hmove⟩ := hreadScripts depth hfits.1
  have hafter : Glued (others ++ out) := hothers.append hout
  obtain ⟨fusedNodes, hfusedNodes, hnodesFused⟩ := hreadNodes depth hfits.2 out hout hend
  obtain ⟨fusedBase, numerals, rest, htakes, _, hfusedBase, hfusedFits, hbaseText⟩ :=
    hreadBase depth hbaseFits _ (hmarks.append hafter)
  simp only [List.append_assoc]
  -- A base takes numerals only if no scripts stand between it and the next item.
  have htaken : (numerals = [] ∧ rest = marks ++ (others ++ out)) ∨
      (marks = [] ∧ text = [] ∧ NumberRun 0 (others ++ out) numerals rest) := by
    rcases hstart with ⟨rfl, rfl⟩ | ⟨side, after, rfl⟩
    · rcases htakes with hnone | hrun
      · exact .inl hnone
      · exact .inr ⟨rfl, rfl, hrun⟩
    · exact .inl (htakes.of_not_numeralNext (NumeralNext.elim rfl))
  rcases htaken with ⟨rfl, rfl⟩ | ⟨rfl, rfl, hrun⟩
  · obtain ⟨fused, hfused, hfits, htext⟩ := hmove fusedBase hfusedFits _ hafter
    refine ⟨fused :: fusedNodes, .item hfusedBase hcount hfused hfusedNodes, .cons ?_ ?_⟩
    · exact List.forall_mem_cons.mpr ⟨hfits, hnodesFused.fits⟩
    · rw [List.flatMap_cons, List.flatMap_cons, hnodesFused.written, htext, hbaseText, hwritten,
        List.append_nil]
  · obtain ⟨total, fused, left, after, htotal, hfused, hleft, hfits, tail, htail, htext⟩ :=
      hfusedNodes.fuse hrun hafter hnodesFused.fits hfusedFits
    refine ⟨fused :: left, .item hfusedBase htotal hfused hleft, .cons hfits ?_⟩
    rw [htext, hbaseText, List.flatMap_cons, ← hnodesFused.written, htail, hwritten,
      List.append_nil, List.append_assoc]

theorem sequence {nodes : List Node} (hnodes : (Phrase.items nodes).Fuses chemistry) :
    (Phrase.sequence nodes).Fuses chemistry := by
  obtain ⟨lexemes, hglued, hread⟩ := hnodes
  refine ⟨lexemes, hglued, ?_⟩
  intro depth hfits out hout hend
  obtain ⟨fused, hderives, hfused⟩ := hread depth hfits out hout hend
  exact ⟨fused, .sequence hderives, hfused⟩

theorem group {nodes : List Node} (hnodes : (Phrase.sequence nodes).Fuses chemistry) :
    (Phrase.group (.sequence true nodes)).Fuses chemistry := by
  obtain ⟨lexemes, hglued, hread⟩ := hnodes
  have hclosing : Glued [Token.closeBrace.glued] := Glued.nil.cons trivial
  have hopening : Token.openBrace.IsLegible := trivial
  refine ⟨rfl, _, (hglued.append hclosing).cons hopening, ?_⟩
  intro depth hfits out hout
  obtain ⟨below, rfl, hbelow⟩ := hfits.group
  have hclose : Glued (Token.closeBrace.glued :: out) := hout.cons trivial
  obtain ⟨fused, hderives, hfused⟩ :=
    hread below hbelow.items _ hclose (atSequenceEnd_cons rfl)
  refine ⟨.sequence true fused, rfl, ?_, .of_group hfused.fits, ?_⟩
  · rw [List.cons_append, List.append_assoc]
    exact .group hderives
  · rw [Node.written_group, Node.written_group, hfused.written]

/-- In braces a node takes nothing from what follows. -/
theorem enclosed {attached : Node} (hattached : (Phrase.primary attached).Fuses chemistry) :
    (Phrase.primary attached.enclosed).Fuses chemistry := by
  by_cases hcurly : attached.isCurly = true
  · have henclosed : attached.enclosed = attached := if_pos hcurly
    rw [henclosed]
    exact hattached
  · have henclosed : attached.enclosed = .sequence true [attached] := if_neg hcurly
    rw [henclosed]
    exact inBraces (group (sequence (item hattached (Nat.zero_le _) noScript noItem)))

theorem script {count : Nat} {side : Side} {base attached node : Node}
    (hattached : (Phrase.primary attached).Fuses chemistry)
    (hscripts : (Phrase.scripts count (.script side base attached) node).Fuses chemistry) :
    (Phrase.scripts (count + 1) base node).Fuses chemistry := by
  obtain ⟨inner, hinner, hreadAttached⟩ := enclosed hattached
  obtain ⟨lexemes, text, hglued, hwritten, _, hread⟩ := hscripts
  have hmark : (Token.script side).IsLegible := trivial
  refine ⟨_, side.mark.toList ++ attached.enclosed.written ++ text,
    (hinner.append hglued).cons hmark, ?_, .inr ⟨side, _, rfl⟩, ?_⟩
  · rw [hwritten, Node.written_script]
    simp only [List.append_assoc]
  intro depth hfits
  obtain ⟨hscript, hmove⟩ := hread depth hfits
  refine ⟨hscript.base, ?_⟩
  intro other hother out hout
  obtain ⟨braced, numerals, rest, _, hclosed, hbraced, hbracedFits, hbracedText⟩ :=
    hreadAttached depth hscript.attached (lexemes ++ out) (hglued.append hout)
  obtain ⟨hcurly, rfl, rfl⟩ := hclosed attached.isCurly_enclosed
  have henclosed : braced.enclosed = braced := if_pos hcurly
  obtain ⟨fused, hderives, hfused, htext⟩ :=
    hmove (.script side other braced) (.of_script hother (henclosed.symm ▸ hbracedFits)) out hout
  rw [← List.append_assoc] at hbraced
  refine ⟨fused, .script hbraced hderives, hfused, ?_⟩
  rw [htext, Node.written_script, henclosed, hbracedText, List.append_nil]
  simp only [List.append_assoc]

theorem sequenceOfScripts {count : Nat} {node : Node} {nodes : List Node}
    (hpositive : 0 < count) (hcount : count ≤ nestingLimit)
    (hscripts : (Phrase.scripts count (.sequence false []) node).Fuses chemistry)
    (hnodes : (Phrase.items nodes).Fuses chemistry) :
    (Phrase.sequence (node :: nodes)).Fuses chemistry := by
  obtain ⟨marks, text, hmarks, hwritten, _, hreadScripts⟩ := hscripts
  obtain ⟨others, hothers, hreadNodes⟩ := hnodes
  refine ⟨marks ++ others, hmarks.append hothers, ?_⟩
  intro depth hfits out hout hend
  rw [List.forall_mem_cons] at hfits
  obtain ⟨hbaseFits, hmove⟩ := hreadScripts depth hfits.1
  obtain ⟨fusedNodes, hfusedNodes, hnodesFused⟩ := hreadNodes depth hfits.2 out hout hend
  obtain ⟨fused, hfused, hfusedFits, htext⟩ :=
    hmove (.sequence false []) hbaseFits _ (hothers.append hout)
  rw [List.append_assoc]
  refine ⟨fused :: fusedNodes, .sequenceOfScripts hpositive hcount hfused hfusedNodes, .cons ?_ ?_⟩
  · exact List.forall_mem_cons.mpr ⟨hfusedFits, hnodesFused.fits⟩
  · rw [List.flatMap_cons, List.flatMap_cons, hnodesFused.written, htext, hwritten]

/-- A cell is read up to the token that ends it. -/
theorem cell {nodes : List Node} (hnodes : (Phrase.sequence nodes).Fuses chemistry) :
    ∃ lexemes, Glued lexemes ∧ ∀ depth, (Node.sequence false nodes).Fits depth →
      ∀ token : Token, token.IsLegible → token.endsSequence = true → ∀ out, Glued out → ∃ fused,
        Derives chemistry depth (.sequence fused) (lexemes ++ token.glued :: out)
          (token.glued :: out) ∧
        (Node.sequence false fused).Fits depth ∧
        (Node.sequence false fused).shown = (Node.sequence false nodes).shown := by
  obtain ⟨lexemes, hglued, hread⟩ := hnodes
  refine ⟨lexemes, hglued, ?_⟩
  intro depth hfits token htoken hends out hout
  obtain ⟨fused, hderives, hfused⟩ :=
    hread depth hfits.items _ (hout.cons htoken) (atSequenceEnd_cons hends)
  exact ⟨fused, hderives, .of_items hfused.fits, hfused.shown_cell⟩

theorem lastCell {environment : Environment} {nodes : List Node}
    (hcell : (Phrase.sequence nodes).Fuses chemistry) :
    (Phrase.rows environment [[.sequence false nodes]]).Fuses chemistry := by
  obtain ⟨lexemes, hglued, hread⟩ := hcell.cell
  have hending : Glued [(Token.ending environment.name).glued] := Glued.nil.cons trivial
  refine ⟨_, hglued.append hending, ?_⟩
  intro depth hfits out hout
  have hcellFits : (Node.sequence false nodes).Fits depth := by simpa using hfits
  obtain ⟨fused, hderives, hfused, hshown⟩ :=
    hread depth hcellFits (.ending environment.name) trivial rfl out hout
  rw [List.append_assoc]
  refine ⟨[[.sequence false fused]], .lastCell hderives, ?_, ?_⟩
  · simpa using hfused
  · simp [hshown]

theorem nextCell {environment : Environment} {nodes row : List Node} {rows : List (List Node)}
    (hcell : (Phrase.sequence nodes).Fuses chemistry)
    (hrows : (Phrase.rows environment (row :: rows)).Fuses chemistry) :
    (Phrase.rows environment ((.sequence false nodes :: row) :: rows)).Fuses chemistry := by
  obtain ⟨lexemes, hglued, hreadCell⟩ := hcell.cell
  obtain ⟨others, hothers, hreadRows⟩ := hrows
  have hmark : Token.nextCell.IsLegible := trivial
  refine ⟨_, hglued.append (hothers.cons hmark), ?_⟩
  intro depth hfits out hout
  simp only [List.forall_mem_cons] at hfits
  obtain ⟨fused, hderives, hfused, hcellShown⟩ :=
    hreadCell depth hfits.1.1 .nextCell hmark rfl _ (hothers.append hout)
  obtain ⟨grid, hgrid, hgridFits, hshown⟩ :=
    hreadRows depth (List.forall_mem_cons.mpr ⟨hfits.1.2, hfits.2⟩) out hout
  obtain ⟨first, left, rfl⟩ : ∃ first left, grid = first :: left := by
    cases grid with
    | nil => cases hshown
    | cons first left => exact ⟨first, left, rfl⟩
  simp only [List.map_cons, List.cons.injEq] at hshown
  rw [List.forall_mem_cons] at hgridFits
  rw [List.append_assoc]
  refine ⟨(.sequence false fused :: first) :: left, .nextCell hderives hgrid, ?_, ?_⟩
  · simp only [List.forall_mem_cons]
    exact ⟨⟨hfused, hgridFits.1⟩, hgridFits.2⟩
  · simp [hcellShown, hshown]

theorem nextRow {environment : Environment} {nodes : List Node} {rows : List (List Node)}
    (hcell : (Phrase.sequence nodes).Fuses chemistry)
    (hrows : (Phrase.rows environment rows).Fuses chemistry) :
    (Phrase.rows environment ([.sequence false nodes] :: rows)).Fuses chemistry := by
  obtain ⟨lexemes, hglued, hreadCell⟩ := hcell.cell
  obtain ⟨others, hothers, hreadRows⟩ := hrows
  have hmark : Token.nextRow.IsLegible := trivial
  refine ⟨_, hglued.append (hothers.cons hmark), ?_⟩
  intro depth hfits out hout
  rw [List.forall_mem_cons, List.forall_mem_singleton] at hfits
  obtain ⟨fused, hderives, hfused, hcellShown⟩ :=
    hreadCell depth hfits.1 .nextRow hmark rfl _ (hothers.append hout)
  obtain ⟨grid, hgrid, hgridFits, hshown⟩ := hreadRows depth hfits.2 out hout
  rw [List.append_assoc]
  refine ⟨[.sequence false fused] :: grid, .nextRow hderives hgrid, ?_, ?_⟩
  · rw [List.forall_mem_cons, List.forall_mem_singleton]
    exact ⟨hfused, hgridFits⟩
  · simp [hcellShown, hshown]

theorem environment {environment : Environment} {grid : List (List Node)}
    (hrows : (Phrase.rows environment grid).Fuses chemistry) :
    (Phrase.primary (.table environment grid)).Fuses chemistry := by
  obtain ⟨lexemes, hglued, hread⟩ := hrows
  have hbeginning : (Token.beginning environment.name).IsLegible := trivial
  refine ⟨_, hglued.cons hbeginning, ?_⟩
  intro depth hfits out hout
  obtain ⟨below, rfl, hblank, hcells⟩ := hfits.cells
  obtain ⟨fused, hderives, hfused, hshown⟩ := hread below hcells out hout
  rw [← endsInBlankRow_eq_of_shown hshown] at hblank
  refine ⟨.table environment fused, [], out, .inl ⟨rfl, rfl⟩, nofun,
    .environment hderives (lastRowDropped_self hblank), .of_cells hblank hfused, ?_⟩
  rw [Node.written_table, Node.written_table, writtenRows_eq_of_shown hshown, List.append_nil]

end Phrase.Fuses

theorem Formed.fuses {chemistry : Bool} {phrase : Phrase} (hformed : Formed chemistry phrase) :
    phrase.Fuses chemistry := by
  induction hformed with
  | character hplain htoken => exact .character hplain htoken
  | number hplain hdigit hnumerals => exact .number hplain hdigit hnumerals
  | command hname hshape => exact .command hname hshape
  | inBraces _ ih => exact .inBraces ih
  | braced hname hshape _ ih =>
      exact .braced hname (by simp [hshape]) ih fun _ _ _ _ _ => .braced hshape
  | chemical hchemistry hname hshape _ ih =>
      exact .braced hname (by simp [hshape]) ih fun _ _ _ _ _ => .chemical hchemistry hshape
  | bare hname hshape _ ih => exact .bare hname hshape ih
  | twoBraced hname hshape _ _ ihfirst ihsecond => exact .twoBraced hname hshape ihfirst ihsecond
  | textBox hname hshape hcontent => exact .textBox hname hshape hcontent
  | symbolDelimiter hname hshape hplain htoken => exact .symbolDelimiter hname hshape hplain htoken
  | commandDelimiter hname hshape hdelimiter hunshaped =>
      exact .commandDelimiter hname hshape hdelimiter hunshaped
  | environment _ ih => exact .environment ih
  | group _ ih => exact .group ih
  | noScript => exact .noScript
  | script _ _ ihattached ihscripts => exact .script ihattached ihscripts
  | noItem => exact .noItem
  | item _ hcount _ _ ihbase ihscripts ihnodes => exact .item ihbase hcount ihscripts ihnodes
  | sequence _ ih => exact .sequence ih
  | sequenceOfScripts hpositive hcount _ _ ihscripts ihnodes =>
      exact .sequenceOfScripts hpositive hcount ihscripts ihnodes
  | lastCell _ ih => exact .lastCell ih
  | nextCell _ _ ihcell ihrows => exact .nextCell ihcell ihrows
  | nextRow _ _ ihcell ihrows => exact .nextRow ihcell ihrows

/-! ## Canonical texts -/

/-- The canonical text of nodes that fit is derived as nodes of the same text,
with which it is canonical. -/
theorem Formed.derives_canonicalText
    {chemistry : Bool} {depth : Nat} {nodes : List Node}
    (hformed : Formed chemistry (.sequence nodes)) (hfits : ∀ node ∈ nodes, node.Fits depth) :
    ∃ again, (Node.sequence false again).canonicalText = (Node.sequence false nodes).canonicalText ∧
      Derives chemistry depth (.sequence again)
        (tokenize (Node.sequence false nodes).canonicalText) [] := by
  obtain ⟨lexemes, hglued, hread⟩ := hformed.fuses
  obtain ⟨fused, hderives, hfused⟩ := hread depth hfits [] .nil (by simp [AtSequenceEnd])
  rw [List.append_nil] at hderives
  have htext : (Node.sequence false fused).canonicalText =
      (Node.sequence false nodes).canonicalText := by
    apply String.toList_injective
    have hwritten := hfused.written
    rw [← Node.written_sequence, ← Node.written_sequence] at hwritten
    exact hwritten
  refine ⟨fused.map Node.braceScripts, ?_, ?_⟩
  · rw [← htext, ← braceScriptsOfAll_eq_map]
    exact (Node.sequence false fused).text_braceScripts .canonical
  · rw [← htext]
    exact hderives.tokenize_canonicalText hglued.rewritable hfused.fits

/-- If no table ends in a blank row, the canonical text of a formula is its own
canonical text.  It can only fail to be if it is nested too deep, which the
braces around scripts can make it. -/
theorem canonicalText_canonicalText
    (settings : Settings) {formula : String} {tree : Node}
    (hparse : settings.parse formula = .ok tree)
    (hrows : ∀ rows ∈ tree.tables, endsInBlankRow rows = false) :
    settings.canonicalText formula = .ok tree.canonicalText ∧
      (tree.braceScripts.nesting ≤ nestingLimit →
        settings.canonicalText tree.canonicalText = .ok tree.canonicalText) ∧
      (settings.canonicalText tree.canonicalText = .ok tree.canonicalText ∨
        ∃ span, settings.canonicalText tree.canonicalText = .error ⟨span, .limitExceeded⟩) := by
  obtain ⟨nodes, rfl, hformed⟩ := formed_of_parseFormula hparse
  have htext {source : String} {found : Node} (hfound : settings.parse source = .ok found) :
      settings.canonicalText source = .ok found.canonicalText := by
    rw [Settings.canonicalText, hfound]
  refine ⟨htext hparse, ?_, ?_⟩
  · intro hnesting
    have hfits : (Node.sequence false nodes).Fits nestingLimit := ⟨hrows, hnesting⟩
    obtain ⟨again, hagain, hderives⟩ := hformed.derives_canonicalText hfits.items
    rw [htext (readTokens_eq_ok_iff.mpr ⟨again, rfl, hderives⟩), hagain]
  · have hfits : (Node.sequence false nodes).Fits (Node.sequence false nodes).braceScripts.nesting :=
      ⟨hrows, Nat.le_refl _⟩
    obtain ⟨again, hagain, hderives⟩ := hformed.derives_canonicalText hfits.items
    rcases parseFormula_of_derives hderives with hok | ⟨span, hexceeded⟩
    · left
      rw [htext hok, hagain]
    · right
      refine ⟨span, ?_⟩
      rw [Settings.canonicalText, Settings.parse, hexceeded]

theorem canonicalText_canonicalText_parted :
    ∃ tree, Settings.parse {} "1 2^3\\begin\x7bcases\x7d4 .5\\\\x\\end\x7bcases\x7d" = .ok tree ∧
      Settings.canonicalText {} tree.canonicalText = .ok tree.canonicalText := by
  have hparse : Settings.parse {} "1 2^3\\begin\x7bcases\x7d4 .5\\\\x\\end\x7bcases\x7d" =
      .ok (.sequence false [.literal "1", .script .over (.literal "2") (.literal "3"),
        .table .cases [[.sequence false [.literal "4", .literal ".", .literal "5"]],
          [.sequence false [.literal "x"]]]]) := by
    with_unfolding_all rfl
  exact ⟨_, hparse,
    (canonicalText_canonicalText {} hparse (by decide +kernel)).2.1 (by decide +kernel)⟩

/-- The last of two blank rows is left out when a table is read.  The canonical
text ends in the other one, which is left out when the text is read again. -/
theorem canonicalText_blank_rows :
    ∃ first second,
      Settings.canonicalText {} "\\begin\x7bmatrix\x7da\\\\\\\\\\end\x7bmatrix\x7d" = .ok first ∧
      Settings.canonicalText {} first = .ok second ∧ first ≠ second := by
  refine ⟨"\\begin\x7bmatrix\x7da\\\\\\end\x7bmatrix\x7d",
    "\\begin\x7bmatrix\x7da\\end\x7bmatrix\x7d", ?_, ?_, by decide⟩
  · with_unfolding_all rfl
  · with_unfolding_all rfl

end FormulaMarkup
