import FormulaMarkup.FormulaErrors
import FormulaMarkup.MarkupElements

/-!
# Contexts of a layout

A node is laid out in a context that its surroundings decide on: the
attributes for the element that it designates, and what it inherits, namely
whether it stands in a table or in chemical notation and the typeface that an
enclosing command asked for.  A handler passes changed contexts on to what it
encloses, and nothing flows back.

A layout is a list of elements or the reason why there is none.  Layouts of
several things are put together in order, and the first failure is the failure
of the whole.
-/

namespace FormulaMarkup

structure Context where
  attributes : Attributes := ∅
  insideTable : Bool := false
  chemistry : Bool := false
  variant : Option Variant := none

namespace Context

def withVariant (context : Context) (variant : Variant) : Context :=
  { context with variant := some variant }

def withoutAttributes (context : Context) : Context := { context with attributes := ∅ }

/-- The context of the cells of a table. -/
def inTable (context : Context) : Context := { context with insideTable := true }

/-- The context of chemical notation. -/
def inChemistry (context : Context) : Context := { context with chemistry := true }

/-- The attributes of a text element: the typeface that is inherited or else
the default one, and the attributes of the context. -/
def textAttributes (context : Context) (default : Option Variant) : Attributes :=
  match context.variant.or default with
  | some variant => (Dictionary.singleton "mathvariant" variant.name).merge context.attributes
  | none => (∅ : Attributes).merge context.attributes

end Context

abbrev Layout := Except LayoutError (List Element)

/-- Something that can be laid out in any context. -/
abbrev Layoutable := Context → Layout

/-- The layouts of the members of a list, one after the other. -/
def layoutAll {α : Type} (layout : α → Layout) : List α → Layout
  | [] => .ok []
  | member :: rest =>
      match layout member with
      | .error error => .error error
      | .ok elements =>
          match layoutAll layout rest with
          | .error error => .error error
          | .ok others => .ok (elements ++ others)

theorem layoutAll_append {α : Type} (layout : α → Layout) (first second : List α) :
    layoutAll layout (first ++ second) =
      match layoutAll layout first with
      | .error error => .error error
      | .ok elements =>
          match layoutAll layout second with
          | .error error => .error error
          | .ok others => .ok (elements ++ others) := by
  induction first with
  | nil =>
      simp only [List.nil_append, layoutAll]
      cases layoutAll layout second <;> rfl
  | cons member rest ih =>
      simp only [List.cons_append, layoutAll, ih]
      cases layout member with
      | error error => rfl
      | ok elements =>
          cases layoutAll layout rest with
          | error error => rfl
          | ok others =>
              cases layoutAll layout second with
              | error error => rfl
              | ok last => simp

end FormulaMarkup
