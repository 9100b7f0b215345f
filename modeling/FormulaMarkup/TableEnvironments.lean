/-!
# Environments

The environments in which cells and rows can be written.  The set is closed:
an environment of another name is an error of the formula.
-/

namespace FormulaMarkup

inductive Environment where
  | matrix
  /-- In parentheses. -/
  | pmatrix
  /-- In square brackets. -/
  | bmatrix
  /-- In curly braces. -/
  | bracedMatrix
  /-- Between single bars. -/
  | vmatrix
  /-- Between double bars. -/
  | doubleBarMatrix
  | smallmatrix
  | cases
  | aligned
deriving Repr, DecidableEq

namespace Environment

def name : Environment → String
  | .matrix => "matrix"
  | .pmatrix => "pmatrix"
  | .bmatrix => "bmatrix"
  | .bracedMatrix => "Bmatrix"
  | .vmatrix => "vmatrix"
  | .doubleBarMatrix => "Vmatrix"
  | .smallmatrix => "smallmatrix"
  | .cases => "cases"
  | .aligned => "aligned"

/-- All environments, ordered by name. -/
def all : List Environment :=
  [.bracedMatrix, .doubleBarMatrix, .aligned, .bmatrix, .cases, .matrix, .pmatrix, .smallmatrix,
   .vmatrix]

def ofName? (name : String) : Option Environment :=
  all.find? fun environment => environment.name == name

theorem mem_all (environment : Environment) : environment ∈ all := by
  cases environment <;> decide

@[simp] theorem ofName?_name (environment : Environment) :
    ofName? environment.name = some environment := by
  cases environment <;> decide

theorem name_of_ofName? {name : String} {environment : Environment}
    (h : ofName? name = some environment) : environment.name = name := by
  simpa using List.find?_some h

theorem name_injective {first second : Environment} (h : first.name = second.name) :
    first = second := by
  have hfirst := ofName?_name first
  rw [h, ofName?_name second] at hfirst
  exact (Option.some.inj hfirst).symm

end Environment
end FormulaMarkup
