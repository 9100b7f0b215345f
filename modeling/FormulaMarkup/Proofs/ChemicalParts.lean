import FormulaMarkup.Proofs.LayoutFailures
import Mathlib.Data.List.Infix
import Mathlib.Tactic.Choose

/-!
# The parts of a chemical formula

The nodes of a chemical formula fall into consecutive parts: reaction arrows,
atoms and nodes that stand for themselves.  Which part comes first is decided by
the nodes alone, and no two arrows can come first at once, so the parts are
determined and the order in which the arrows are tried does not matter.  The
segments that are laid out are these parts, one for one.
-/

namespace FormulaMarkup

/-- A part of a chemical formula.  An atom is a capital letter with the small
letters and the number after it. -/
inductive ChemicalPart where
  | arrow (literals : List String) (symbol : String)
  | atom (capital : Char) (small : List Char) (count : Option String)
  | other (node : Node)

/-- The nodes that a part is made of. -/
def ChemicalPart.nodes : ChemicalPart → List Node
  | .arrow literals _ => literals.map .literal
  | .atom capital small count => .ofChar capital :: (small.map .ofChar ++ count.toList.map .literal)
  | .other node => [node]

/-- The literals of an arrow come first. -/
def BeginsWithArrow (nodes : List Node) : Prop :=
  ∃ arrow ∈ reactionArrows, arrow.1.map .literal <+: nodes

/-- The small letters go on as far as they can before the other nodes. -/
structure TakesSmallLetters (small : List Char) (after : List Node) : Prop where
  small : ∀ c ∈ small, c.isLower = true
  longest : ∀ c : Char, c.isLower = true → after.head? ≠ some (.ofChar c)

/-- The number is taken before the other nodes if there is one. -/
structure TakesCount (count : Option String) (after : List Node) : Prop where
  digit : ∀ text ∈ count, LiteralClass.of text = .digit
  uncounted : count = none →
    ∀ text, after.head? = some (.literal text) → LiteralClass.of text ≠ .digit

/-- The part is the first one where its nodes stand before the rest. -/
def ChemicalPart.StandsBefore (rest : List Node) : ChemicalPart → Prop
  | .arrow literals symbol => (literals, symbol) ∈ reactionArrows
  | .atom capital small count =>
      ¬BeginsWithArrow ((ChemicalPart.atom capital small count).nodes ++ rest) ∧
        capital.isUpper = true ∧
        TakesSmallLetters small (count.toList.map .literal ++ rest) ∧ TakesCount count rest
  | .other node => ¬BeginsWithArrow (node :: rest) ∧ ∀ c : Char, c.isUpper = true → node ≠ .ofChar c

/-- The nodes are cut into the parts, from left to right. -/
inductive CutInto : List Node → List ChemicalPart → Prop
  | done : CutInto [] []
  | next {part : ChemicalPart} {rest : List Node} {parts : List ChemicalPart}
      (hpart : part.StandsBefore rest) (hrest : CutInto rest parts) :
      CutInto (part.nodes ++ rest) (part :: parts)

def Node.piece (registry : Registry) (node : Node) : Piece := ⟨node, node.layout registry⟩

/-- The segment that is laid out for a part. -/
def ChemicalPart.segment (registry : Registry) : ChemicalPart → ChemicalSegment
  | .arrow _ symbol => .arrow symbol
  | .atom capital small count => .atom (String.ofList (capital :: small)) count
  | .other node => .other (node.piece registry)

variable {registry : Registry} {nodes rest : List Node}

theorem literal_injective : Function.Injective Node.literal := fun _ _ h => Node.literal.inj h

theorem piece_injective : Function.Injective (Node.piece registry) :=
  fun _ _ h => congrArg Piece.node h

theorem literal?_piece_iff {node : Node} {text : String} :
    (node.piece registry).literal? = some text ↔ node = .literal text := by
  cases node <;> simp [Node.piece, Piece.literal?, Node.literal?]

/-! ## Arrows -/

/-- The first arrow of a table that comes first, and the pieces after it. -/
def firstArrow (arrows : List (List String × String)) (pieces : List Piece) :
    Option (String × List Piece) :=
  arrows.findSome? fun arrow => (dropLiterals arrow.1 pieces).map fun rest => (arrow.2, rest)

theorem dropLiterals_eq_some_iff {literals : List String} {after : List Piece} :
    dropLiterals literals (nodes.map (Node.piece registry)) = some after ↔
      ∃ rest, nodes = literals.map .literal ++ rest ∧ after = rest.map (Node.piece registry) := by
  induction literals generalizing nodes with
  | nil => simp [dropLiterals, eq_comm]
  | cons literal literals ih =>
      cases nodes with
      | nil => simp [dropLiterals]
      | cons node nodes =>
          rw [List.map_cons, dropLiterals]
          split
          · next hliteral => simp [ih, literal?_piece_iff.mp hliteral]
          · next hliteral => simp [mt literal?_piece_iff.mpr hliteral]

/-- No arrow begins with another one. -/
theorem reactionArrows_prefix_free :
    ∀ first ∈ reactionArrows, ∀ second ∈ reactionArrows, first.1 <+: second.1 → first = second := by
  decide

theorem arrow_unique {first second : List String × String} (hfirst : first ∈ reactionArrows)
    (hsecond : second ∈ reactionArrows) (hbefore : first.1.map .literal <+: nodes)
    (hother : second.1.map .literal <+: nodes) : first = second := by
  rcases List.prefix_or_prefix_of_prefix hbefore hother with hprefix | hprefix
  · rw [List.prefix_map_iff_of_injective literal_injective] at hprefix
    exact reactionArrows_prefix_free first hfirst second hsecond hprefix
  · rw [List.prefix_map_iff_of_injective literal_injective] at hprefix
    exact (reactionArrows_prefix_free second hsecond first hfirst hprefix).symm

theorem firstArrow_eq_none_iff {arrows : List (List String × String)}
    (harrows : ∀ arrow, arrow ∈ arrows ↔ arrow ∈ reactionArrows) :
    firstArrow arrows (nodes.map (Node.piece registry)) = none ↔ ¬BeginsWithArrow nodes := by
  simp only [firstArrow, List.findSome?_eq_none_iff, Option.map_eq_none_iff]
  constructor
  · rintro hnone ⟨arrow, hmem, rest, rfl⟩
    have hdrop := hnone arrow ((harrows arrow).mpr hmem)
    rw [dropLiterals_eq_some_iff.mpr ⟨rest, rfl, rfl⟩] at hdrop
    cases hdrop
  · intro hbegins arrow hmem
    cases hdrop : dropLiterals arrow.1 (nodes.map (Node.piece registry)) with
    | none => rfl
    | some after =>
        obtain ⟨rest, hnodes, _⟩ := dropLiterals_eq_some_iff.mp hdrop
        exact absurd ⟨arrow, (harrows arrow).mp hmem, rest, hnodes.symm⟩ hbegins

theorem firstArrow_eq_some_iff {arrows : List (List String × String)}
    (harrows : ∀ arrow, arrow ∈ arrows ↔ arrow ∈ reactionArrows) {symbol : String}
    {after : List Piece} :
    firstArrow arrows (nodes.map (Node.piece registry)) = some (symbol, after) ↔
      ∃ literals rest, (literals, symbol) ∈ reactionArrows ∧
        nodes = literals.map .literal ++ rest ∧ after = rest.map (Node.piece registry) := by
  have hfound {symbol : String} {after : List Piece}
      (hfirst : firstArrow arrows (nodes.map (Node.piece registry)) = some (symbol, after)) :
      ∃ literals rest, (literals, symbol) ∈ reactionArrows ∧
        nodes = literals.map .literal ++ rest ∧ after = rest.map (Node.piece registry) := by
    obtain ⟨⟨literals, other⟩, hmem, harrow⟩ := List.exists_of_findSome?_eq_some hfirst
    obtain ⟨pieces, hdrop, hpieces⟩ := Option.map_eq_some_iff.mp harrow
    cases hpieces
    obtain ⟨rest, hnodes, hrest⟩ := dropLiterals_eq_some_iff.mp hdrop
    exact ⟨literals, rest, (harrows _).mp hmem, hnodes, hrest⟩
  refine ⟨hfound, ?_⟩
  rintro ⟨literals, rest, hmem, hnodes, rfl⟩
  cases hfirst : firstArrow arrows (nodes.map (Node.piece registry)) with
  | none => exact absurd ⟨_, hmem, rest, hnodes.symm⟩ ((firstArrow_eq_none_iff harrows).mp hfirst)
  | some found =>
      -- Whatever arrow is found, it is the one that is there.
      obtain ⟨other, later, hother, hlater, hafter⟩ := hfound hfirst
      cases arrow_unique hmem hother ⟨rest, hnodes.symm⟩ ⟨later, hlater.symm⟩
      rw [hnodes] at hlater
      rw [List.append_cancel_left hlater, ← hafter]

theorem eq_toString_iff {text : String} {c : Char} : text.toList = [c] ↔ text = c.toString := by
  constructor
  · intro htext
    rw [← String.ofList_toList (s := text), htext]
    simp
  · rintro rfl
    simp

theorem toString_append_ofList (c : Char) (cs : List Char) :
    c.toString ++ String.ofList cs = String.ofList (c :: cs) := by
  rw [← String.toList_inj]
  simp

theorem match_single_iff {text : String} {letter : Char → Bool} :
    (match text.toList with
      | [c] => letter c
      | _ => false) = true ↔ ∃ c, letter c = true ∧ text = c.toString := by
  simp only [← eq_toString_iff]
  split
  · next c htext => simp [htext]
  · next htext =>
      constructor
      · intro hfalse
        cases hfalse
      · rintro ⟨c, _, hsingle⟩
        exact absurd hsingle (htext c)

theorem isCapital_iff {text : String} :
    isCapital text = true ↔ ∃ c : Char, c.isUpper = true ∧ text = c.toString := match_single_iff

theorem isSmallLetter_iff {text : String} :
    isSmallLetter text = true ↔ ∃ c : Char, c.isLower = true ∧ text = c.toString := match_single_iff

theorem TakesSmallLetters.splitSmallLetters {small : List Char}
    (htakes : TakesSmallLetters small rest) :
    splitSmallLetters ((small.map Node.ofChar ++ rest).map (Node.piece registry)) =
      (String.ofList small, rest.map (Node.piece registry)) := by
  obtain ⟨hsmall, hlongest⟩ := htakes
  induction small with
  | nil =>
      cases rest with
      | nil => rfl
      | cons node rest =>
          simp only [List.map_nil, List.nil_append, List.map_cons, FormulaMarkup.splitSmallLetters]
          split
          · next text hliteral =>
              have hletter : ¬isSmallLetter text = true := by
                intro hletter
                obtain ⟨c, hlower, rfl⟩ := isSmallLetter_iff.mp hletter
                exact hlongest c hlower (congrArg some (literal?_piece_iff.mp hliteral))
              rw [if_neg hletter]
          · rfl
  | cons c small ih =>
      rw [List.forall_mem_cons] at hsmall
      have hliteral : ((Node.ofChar c).piece registry).literal? = some c.toString := rfl
      have hletter : isSmallLetter c.toString = true := isSmallLetter_iff.mpr ⟨c, hsmall.1, rfl⟩
      simp only [List.map_cons, List.cons_append, FormulaMarkup.splitSmallLetters, hliteral,
        hletter, if_true, ih hsmall.2, toString_append_ofList]

theorem TakesCount.splitCount {count : Option String} (htakes : TakesCount count rest) :
    splitCount ((count.toList.map Node.literal ++ rest).map (Node.piece registry)) =
      (count, rest.map (Node.piece registry)) := by
  obtain ⟨hdigit, hnone⟩ := htakes
  cases count with
  | some text =>
      have hliteral : ((Node.literal text).piece registry).literal? = some text := rfl
      simp [FormulaMarkup.splitCount, hliteral, hdigit text rfl]
  | none =>
      cases rest with
      | nil => rfl
      | cons node rest =>
          simp only [Option.toList_none, List.map_nil, List.nil_append, List.map_cons,
            FormulaMarkup.splitCount]
          split
          · next text hliteral =>
              rw [if_neg (hnone rfl text (congrArg some (literal?_piece_iff.mp hliteral)))]
          · rfl

theorem splitSegment_of_standsBefore (registry : Registry) {part : ChemicalPart}
    (hpart : part.StandsBefore rest) {first : Node} {others : List Node}
    (hnodes : part.nodes ++ rest = first :: others) :
    splitSegment (first.piece registry) (others.map (Node.piece registry)) =
      (part.segment registry, rest.map (Node.piece registry)) := by
  have harrow (hbegins : ¬BeginsWithArrow (first :: others)) :
      splitArrow ((first :: others).map (Node.piece registry)) = none :=
    (firstArrow_eq_none_iff fun _ => Iff.rfl).mpr hbegins
  unfold splitSegment
  rw [← List.map_cons]
  cases part with
  | arrow literals symbol =>
      have hsplit : splitArrow ((first :: others).map (Node.piece registry)) =
          some (symbol, rest.map (Node.piece registry)) :=
        (firstArrow_eq_some_iff fun _ => Iff.rfl).mpr ⟨literals, rest, hpart, hnodes.symm, rfl⟩
      rw [hsplit]
      rfl
  | atom capital small count =>
      obtain ⟨hbegins, hupper, hsmall, hcount⟩ := hpart
      rw [hnodes] at hbegins
      rw [harrow hbegins]
      simp only [ChemicalPart.nodes, List.cons_append, List.append_assoc, List.cons.injEq] at hnodes
      obtain ⟨rfl, rfl⟩ := hnodes
      have hliteral : ((Node.ofChar capital).piece registry).literal? = some capital.toString := rfl
      have hcapital : isCapital capital.toString = true := isCapital_iff.mpr ⟨capital, hupper, rfl⟩
      simp only [hliteral, hcapital, if_true, hsmall.splitSmallLetters, hcount.splitCount,
        toString_append_ofList, ChemicalPart.segment]
  | other node =>
      obtain ⟨hbegins, hcapital⟩ := hpart
      simp only [ChemicalPart.nodes, List.cons_append, List.nil_append, List.cons.injEq] at hnodes
      obtain ⟨rfl, rfl⟩ := hnodes
      rw [harrow hbegins]
      simp only
      split
      · next text hliteral =>
          have hletter : ¬isCapital text = true := by
            intro hletter
            obtain ⟨c, hupper, rfl⟩ := isCapital_iff.mp hletter
            exact hcapital c hupper (literal?_piece_iff.mp hliteral)
          rw [if_neg hletter]
          rfl
      · rfl

theorem ChemicalPart.StandsBefore.nodes_ne_nil {part : ChemicalPart}
    (hpart : part.StandsBefore rest) : part.nodes ≠ [] := by
  cases part with
  | arrow literals symbol =>
      have hliterals : ∀ arrow ∈ reactionArrows, arrow.1 ≠ [] := by decide
      simpa [nodes] using hliterals _ hpart
  | atom capital small count => exact List.cons_ne_nil _ _
  | other node => exact List.cons_ne_nil _ _

/-- A part is known from its nodes and its segment. -/
theorem ChemicalPart.eq_of_segment {first second : ChemicalPart}
    (hnodes : first.nodes = second.nodes)
    (hsegment : first.segment registry = second.segment registry) : first = second := by
  cases first with
  | arrow literals symbol =>
      cases second with
      | arrow others other =>
          cases hsegment
          rw [List.map_injective_iff.mpr literal_injective hnodes]
      | atom | other => cases hsegment
  | atom capital small count =>
      cases second with
      | atom other others number =>
          obtain ⟨hword, rfl⟩ := ChemicalSegment.atom.inj hsegment
          rw [String.ofList_inj, List.cons.injEq] at hword
          rw [hword.1, hword.2]
      | arrow | other => cases hsegment
  | other node =>
      cases second with
      | other another => rw [(List.cons.inj hnodes).1]
      | arrow | atom => cases hsegment

/-- Two parts that come first among the same nodes are the same part. -/
theorem ChemicalPart.StandsBefore.unique {first second : ChemicalPart} {rest others : List Node}
    (hfirst : first.StandsBefore rest) (hsecond : second.StandsBefore others)
    (hnodes : first.nodes ++ rest = second.nodes ++ others) : first = second ∧ rest = others := by
  obtain ⟨node, later, hcons⟩ : ∃ node later, first.nodes ++ rest = node :: later :=
    List.exists_cons_of_ne_nil (by simp [hfirst.nodes_ne_nil])
  have hsplit := splitSegment_of_standsBefore .builtin hfirst hcons
  rw [splitSegment_of_standsBefore .builtin hsecond (hnodes.symm.trans hcons)] at hsplit
  obtain ⟨hsegment, hrest⟩ := Prod.mk.inj hsplit
  obtain rfl := List.map_injective_iff.mpr piece_injective hrest
  exact ⟨eq_of_segment (List.append_cancel_right hnodes) hsegment.symm, rfl⟩

/-! ## All parts -/

theorem CutInto.unique {first second : List ChemicalPart} (hfirst : CutInto nodes first)
    (hsecond : CutInto nodes second) : first = second := by
  induction hfirst generalizing second with
  | done =>
      generalize hnodes : ([] : List Node) = nodes at hsecond
      cases hsecond with
      | done => rfl
      | next hother _ =>
          exact absurd (List.append_eq_nil_iff.mp hnodes.symm).1 hother.nodes_ne_nil
  | @next part rest parts hpart hrest ih =>
      generalize hnodes : part.nodes ++ rest = nodes at hsecond
      cases hsecond with
      | done => exact absurd (List.append_eq_nil_iff.mp hnodes).1 hpart.nodes_ne_nil
      | next hother hlater =>
          obtain ⟨rfl, rfl⟩ := hpart.unique hother hnodes
          rw [ih hlater]

section Layouts

variable {α : Type} {layout : α → Layout} {members : List α}

end Layouts

def ChemicalPart.layout (registry : Registry) (context : Context) (part : ChemicalPart) : Layout :=
  (part.segment registry).layout context

namespace CutInto

variable {parts : List ChemicalPart} {context : Context}

end CutInto

end FormulaMarkup
