import FormulaMarkup.FormulaNodes
import FormulaMarkup.LayoutContexts

/-!
# Chemical notation

The argument of a chemical formula is cut into segments from left to right.
Where the literals of a reaction arrow stand there is an arrow; where a single
capital letter stands there is an atom, to which the small letters after it
belong and, as a subscript, a number after those; anything else is a segment of
its own and is laid out as it would be elsewhere, with upright letters.
-/

namespace FormulaMarkup

/-- A node together with the ways to lay it out. -/
structure Piece where
  node : Node
  layout : Layoutable

def Piece.literal? (piece : Piece) : Option String := piece.node.literal?

inductive ChemicalSegment where
  | arrow (symbol : String)
  | atom (symbol : String) (count : Option String)
  | other (piece : Piece)

/-- The literals of the arrows and their symbols. -/
def reactionArrows : List (List String × String) :=
  [(["<", "=", ">"], "⇌"), (["-", ">"], "→"), (["<", "-"], "←")]

/-- The pieces after the given literals, if these come first. -/
def dropLiterals : List String → List Piece → Option (List Piece)
  | [], pieces => some pieces
  | _ :: _, [] => none
  | literal :: literals, piece :: pieces =>
      if piece.literal? = some literal then dropLiterals literals pieces else none

/-- The arrow that comes first and the pieces after it. -/
def splitArrow (pieces : List Piece) : Option (String × List Piece) :=
  reactionArrows.findSome? fun (literals, symbol) =>
    (dropLiterals literals pieces).map fun rest => (symbol, rest)

def isCapital (text : String) : Bool :=
  match text.toList with
  | [c] => c.isUpper
  | _ => false

def isSmallLetter (text : String) : Bool :=
  match text.toList with
  | [c] => c.isLower
  | _ => false

/-- Takes the small letters that come first. -/
def splitSmallLetters : List Piece → String × List Piece
  | [] => ("", [])
  | piece :: rest =>
      match piece.literal? with
      | some text =>
          if isSmallLetter text then
            let (letters, after) := splitSmallLetters rest
            (text ++ letters, after)
          else ("", piece :: rest)
      | none => ("", piece :: rest)

/-- Takes the number that comes first. -/
def splitCount : List Piece → Option String × List Piece
  | [] => (none, [])
  | piece :: rest =>
      match piece.literal? with
      | some text =>
          if LiteralClass.of text = .digit then (some text, rest) else (none, piece :: rest)
      | none => (none, piece :: rest)

/-- Takes the first segment, whose first piece is given. -/
def splitSegment (piece : Piece) (rest : List Piece) : ChemicalSegment × List Piece :=
  match splitArrow (piece :: rest) with
  | some (symbol, after) => (.arrow symbol, after)
  | none =>
      match piece.literal? with
      | some text =>
          if isCapital text then
            let (letters, afterLetters) := splitSmallLetters rest
            let (count, after) := splitCount afterLetters
            (.atom (text ++ letters) count, after)
          else (.other piece, rest)
      | none => (.other piece, rest)

theorem length_dropLiterals {literals : List String} {pieces rest : List Piece}
    (h : dropLiterals literals pieces = some rest) :
    rest.length + literals.length = pieces.length := by
  induction literals generalizing pieces with
  | nil => simp_all [dropLiterals]
  | cons literal literals ih =>
      cases pieces with
      | nil => simp [dropLiterals] at h
      | cons piece pieces =>
          simp only [dropLiterals] at h
          split at h
          · have hrest := ih h
            simp only [List.length_cons]
            omega
          · simp at h

theorem length_splitArrow_lt {pieces rest : List Piece} {symbol : String}
    (h : splitArrow pieces = some (symbol, rest)) : rest.length < pieces.length := by
  unfold splitArrow at h
  obtain ⟨⟨literals, arrow⟩, hmem, hsome⟩ := List.exists_of_findSome?_eq_some h
  simp only [Option.map_eq_some_iff, Prod.mk.injEq] at hsome
  obtain ⟨after, hdrop, _, rfl⟩ := hsome
  have hlength := length_dropLiterals hdrop
  have hpos : 0 < literals.length := by
    simp only [reactionArrows, List.mem_cons, Prod.mk.injEq, List.not_mem_nil, or_false] at hmem
    rcases hmem with ⟨rfl, _⟩ | ⟨rfl, _⟩ | ⟨rfl, _⟩ <;> decide
  omega

theorem length_splitSmallLetters_le (pieces : List Piece) :
    (splitSmallLetters pieces).2.length ≤ pieces.length := by
  induction pieces with
  | nil => simp [splitSmallLetters]
  | cons piece rest ih =>
      simp only [splitSmallLetters]
      split
      · split
        · exact Nat.le_succ_of_le ih
        · exact Nat.le_refl _
      · exact Nat.le_refl _

theorem length_splitCount_le (pieces : List Piece) :
    (splitCount pieces).2.length ≤ pieces.length := by
  cases pieces with
  | nil => simp [splitCount]
  | cons piece rest =>
      simp only [splitCount]
      split
      · split
        · exact Nat.le_succ _
        · exact Nat.le_refl _
      · exact Nat.le_refl _

theorem length_splitSegment_le (piece : Piece) (rest : List Piece) :
    (splitSegment piece rest).2.length ≤ rest.length := by
  unfold splitSegment
  split
  · next harrow => exact Nat.le_of_lt_succ (length_splitArrow_lt harrow)
  · split
    · split
      · exact Nat.le_trans (length_splitCount_le _) (length_splitSmallLetters_le _)
      · exact Nat.le_refl _
    · exact Nat.le_refl _

/-- Cuts the pieces of a chemical formula into segments. -/
def chemicalSegments : List Piece → List ChemicalSegment
  | [] => []
  | piece :: rest =>
      (splitSegment piece rest).1 :: chemicalSegments (splitSegment piece rest).2
termination_by pieces => pieces.length
decreasing_by exact Nat.lt_succ_of_le (length_splitSegment_le piece rest)

def ChemicalSegment.layout (context : Context) : ChemicalSegment → Layout
  | .arrow symbol => .ok [.operator ∅ symbol]
  | .atom symbol count =>
      let letters := Element.identifier
        (Dictionary.singleton "mathvariant" Variant.normal.name) symbol
      match count with
      | none => .ok [letters]
      | some number => .ok [.layout .subscript ∅ [letters, .number ∅ number]]
  | .other piece => piece.layout context

/-- The layout of a chemical formula, given the pieces of its argument. -/
def chemicalLayout (pieces : List Piece) (context : Context) : Layout :=
  match layoutAll (ChemicalSegment.layout context.withoutAttributes.inChemistry)
      (chemicalSegments pieces) with
  | .error error => .error error
  | .ok elements => .ok [.row context.attributes elements]

end FormulaMarkup
