import FormulaMarkup.Proofs.ReadNodes

/-!
# Names in the errors of layouts

An error of a layout knows no place, but the name of a command.  For a formula
that was read, this is the name of a command that the formula has: errors are
passed on unchanged, and the only ones that are made are about a control
sequence that is not known, or about the command whose argument does not fit.
The content of a text box is never looked up, so a name in it is not reported.
-/

namespace FormulaMarkup

/-- If there is no layout, the error is about one of the names. -/
def FailsAbout (names : String → Prop) (layout : Layout) : Prop :=
  ∀ error, layout = .error error → names error.commandName

namespace FailsAbout

variable {names : String → Prop} {layout : Layout}

theorem ok (elements : List Element) : FailsAbout names (.ok elements) := nofun

theorem error {error : LayoutError} (hname : names error.commandName) :
    FailsAbout names (.error error) := by
  intro other hother
  cases hother
  exact hname

/-- What is made of a layout and a further one. -/
theorem bind {next : List Element → Layout} :
    FailsAbout names layout → (∀ elements, FailsAbout names (next elements)) →
    FailsAbout names
      (match layout with
        | .error error => .error error
        | .ok elements => next elements) := by
  intro hlayout hnext
  cases layout with
  | error failure => exact error (hlayout failure rfl)
  | ok elements => exact hnext elements

/-- What is made of the elements of a layout. -/
theorem map {f : List Element → List Element} :
    FailsAbout names layout →
    FailsAbout names
      (match layout with
        | .error error => .error error
        | .ok elements => .ok (f elements)) := by
  intro hlayout
  exact hlayout.bind fun elements => ok (f elements)

theorem layoutAll {α : Type} {layouts : α → Layout} {members : List α}
    (hmembers : ∀ member ∈ members, FailsAbout names (layouts member)) :
    FailsAbout names (layoutAll layouts members) := by
  induction members with
  | nil => exact ok []
  | cons member rest ih =>
      rw [List.forall_mem_cons] at hmembers
      exact hmembers.1.bind fun elements => (ih hmembers.2).map

end FailsAbout

/-- In any context, the operand fails about one of the names. -/
structure Operand.FailsAbout (names : String → Prop) (operand : Operand) : Prop where
  layout : ∀ context, FormulaMarkup.FailsAbout names (operand.layout context)
  single : ∀ context, FormulaMarkup.FailsAbout names (operand.single context)

section Nodes

variable {names : String → Prop}

end Nodes
end FormulaMarkup
