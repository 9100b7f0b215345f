import FormulaMarkup.BuiltinCommands

/-!
# The tables of commands

What is known about commands stands in two tables: the shapes, which say how
arguments are written, and the registry, which says what is made of them.  The
tables agree.  Every command with a shape has an entry, and every entry can do
its work with the arguments that the shape of its name brings: its handler
takes that many, and the data that the handler looks for are there.
-/

namespace FormulaMarkup

/-- The commands whose argument is the name of an operator. -/
def operatorNameCommands : List String := ["\\operatorname", "\\operatorname*"]

/-- The commands whose argument is a delimiter. -/
def delimiterCommands : List String := ["\\left", "\\right"]

namespace Entry

/-- Entries of commands that stand for themselves. -/
inductive StandsAlone : Entry → Prop
  | identifier {c : Char} {family : Family} : StandsAlone ⟨.identifier, some c, family⟩
  | operator {c : Char} {family : Family} : StandsAlone ⟨.operator, some c, family⟩
  | functionName {codepoint : Option Char} {family : Family} :
      StandsAlone ⟨.functionName, codepoint, family⟩
  | space {codepoint : Option Char} {width : String} :
      StandsAlone ⟨.space, codepoint, .space width⟩

/-- Entries of commands that are laid out around the layout of one argument. -/
inductive TakesOne : Entry → Prop
  | accent {c : Char} {stretchy : Bool} : TakesOne ⟨.accent, some c, .accent stretchy⟩
  | mark {c : Char} {side : Side} : TakesOne ⟨.mark, some c, .stack side⟩
  | boldSymbol {codepoint : Option Char} {family : Family} :
      TakesOne ⟨.boldSymbol, codepoint, family⟩
  | font {codepoint : Option Char} {variant : Variant} : TakesOne ⟨.font, codepoint, .font variant⟩
  | enclosure {codepoint : Option Char} {kind : String} :
      TakesOne ⟨.enclosure, codepoint, .enclosure kind⟩
  | root {codepoint : Option Char} {family : Family} : TakesOne ⟨.root, codepoint, family⟩

/-- Entries of commands that are laid out around the layouts of two arguments. -/
inductive TakesTwo : Entry → Prop
  | stack {codepoint : Option Char} {side : Side} : TakesTwo ⟨.stack, codepoint, .stack side⟩
  | fraction {codepoint : Option Char} {style : FractionStyle} :
      TakesTwo ⟨.fraction, codepoint, .fraction style⟩

/-- The entry can lay out the command of this name and shape. -/
inductive Serves (name : String) : Option ArgumentShape → Entry → Prop
  | alone {entry : Entry} (hentry : entry.StandsAlone) : Serves name none entry
  | braced {entry : Entry} (hname : name ∉ operatorNameCommands) (hentry : entry.TakesOne) :
      Serves name (some .braced) entry
  | bare {entry : Entry} (hentry : entry.TakesOne) : Serves name (some .bare) entry
  | operatorName {codepoint : Option Char} {family : Family}
      (hname : name ∈ operatorNameCommands) :
      Serves name (some .braced) ⟨.operatorName, codepoint, family⟩
  | twoBraced {entry : Entry} (hentry : entry.TakesTwo) : Serves name (some .twoBraced) entry
  | text {codepoint : Option Char} {variant : Option Variant} :
      Serves name (some .rawText) ⟨.text, codepoint, .text variant⟩
  | chemistry {codepoint : Option Char} {family : Family} :
      Serves name (some .chemistry) ⟨.chemistry, codepoint, family⟩
  | delimiter {codepoint : Option Char} {family : Family} (hname : name ∈ delimiterCommands) :
      Serves name (some .delimiter) ⟨.delimiter, codepoint, family⟩

end Entry

/-! ## Agreement of the tables -/

/-- The bytes of a name as the digits of a number.  It takes less to tell two
numbers apart than two names. -/
def nameCode (name : String) : Nat :=
  name.toByteArray.data.toList.foldl (fun code byte => 256 * code + byte.toNat) 0

def shapedCodes : List Nat := shapedCommands.map fun command => nameCode command.1

theorem shape?_eq_none_of_nameCode {name : String} (hcode : nameCode name ∉ shapedCodes) :
    shape? name = none := by
  rw [shape?, List.lookup_eq_none_iff]
  intro command hcommand
  rw [bne_iff_ne]
  rintro rfl
  exact hcode (List.mem_map_of_mem hcommand)

/-- One braced argument, which is no name of an operator. -/
def IsBraced (name : String) : Prop :=
  shape? name = some .braced ∧ name ∉ operatorNameCommands

instance (name : String) : Decidable (IsBraced name) :=
  inferInstanceAs (Decidable (_ ∧ _))

/-- The shapes of the names in the registry, family by family. -/
structure FamilyShapes : Prop where
  identifiers : ∀ command ∈ identifierCommands, nameCode command.1 ∉ shapedCodes
  operators : ∀ command ∈ operatorCommands, nameCode command.1 ∉ shapedCodes
  functions : ∀ name ∈ functionCommands, nameCode name ∉ shapedCodes
  spaces : ∀ command ∈ spaceCommands, nameCode command.1 ∉ shapedCodes
  accents : ∀ command ∈ accentCommands, IsBraced command.1
  marks : ∀ command ∈ markCommands, IsBraced command.1 ∨ shape? command.1 = some .bare
  enclosures : ∀ command ∈ enclosureCommands, IsBraced command.1
  fonts : ∀ command ∈ fontCommands, IsBraced command.1
  others : ∀ name ∈ ["\\boldsymbol", "\\bm", "\\sqrt"], IsBraced name
  operatorNames : ∀ name ∈ operatorNameCommands, shape? name = some .braced
  fractions : ∀ command ∈ fractionCommands, shape? command.1 = some .twoBraced
  stackings : ∀ command ∈ stackCommands, shape? command.1 = some .twoBraced
  texts : ∀ command ∈ textCommands, shape? command.1 = some .rawText
  chemistry : shape? "\\ce" = some .chemistry
  delimiters : ∀ name ∈ delimiterCommands, shape? name = some .delimiter
  -- The commands with a shape are the last ones of the registry.
  listed : ∀ command ∈ shapedCommands, (builtinEntries.reverse.lookup command.1).isSome = true

/-- The tables themselves are looked at here and nowhere else. -/
theorem familyShapes : FamilyShapes := by
  constructor
  all_goals decide +kernel

theorem shape?_of_mem_operatorNameCommands {name : String} (hname : name ∈ operatorNameCommands) :
    shape? name = some .braced :=
  familyShapes.operatorNames name hname

theorem shape?_of_mem_delimiterCommands {name : String} (hname : name ∈ delimiterCommands) :
    shape? name = some .delimiter :=
  familyShapes.delimiters name hname

theorem not_mem_operatorNameCommands {name : String} {shape : ArgumentShape}
    (hshape : shape? name = some shape) (hbraced : shape ≠ .braced) :
    name ∉ operatorNameCommands := by
  intro hname
  rw [shape?_of_mem_operatorNameCommands hname] at hshape
  exact hbraced (Option.some.inj hshape).symm

theorem not_mem_delimiterCommands {name : String} {shape : ArgumentShape}
    (hshape : shape? name = some shape) (hdelimiter : shape ≠ .delimiter) :
    name ∉ delimiterCommands := by
  intro hname
  rw [shape?_of_mem_delimiterCommands hname] at hshape
  exact hdelimiter (Option.some.inj hshape).symm

theorem serves_of_mem_builtinEntries {name : String} {entry : Entry}
    (hentry : (name, entry) ∈ builtinEntries) : entry.Serves name (shape? name) := by
  have hbraced {name : String} {entry : Entry} (hname : IsBraced name) (htakes : entry.TakesOne) :
      entry.Serves name (shape? name) :=
    hname.1 ▸ .braced hname.2 htakes
  simp only [builtinEntries, List.mem_append, List.mem_map, or_assoc] at hentry
  rcases hentry with ⟨command, hmem, heq⟩ | ⟨command, hmem, heq⟩ | ⟨command, hmem, heq⟩ |
    ⟨command, hmem, heq⟩ | ⟨command, hmem, heq⟩ | ⟨command, hmem, heq⟩ | ⟨command, hmem, heq⟩ |
    ⟨command, hmem, heq⟩ | ⟨command, hmem, heq⟩ | ⟨command, hmem, heq⟩ | ⟨command, hmem, heq⟩ |
    hspecial
  · cases heq
    exact shape?_eq_none_of_nameCode (familyShapes.identifiers _ hmem) ▸ .alone .identifier
  · cases heq
    exact shape?_eq_none_of_nameCode (familyShapes.operators _ hmem) ▸ .alone .operator
  · cases heq
    exact shape?_eq_none_of_nameCode (familyShapes.functions _ hmem) ▸ .alone .functionName
  · cases heq
    exact shape?_eq_none_of_nameCode (familyShapes.spaces _ hmem) ▸ .alone .space
  · cases heq
    exact hbraced (familyShapes.accents _ hmem) .accent
  · cases heq
    rcases familyShapes.marks _ hmem with hshape | hshape
    · exact hbraced hshape .mark
    · exact hshape ▸ .bare .mark
  · cases heq
    exact hbraced (familyShapes.enclosures _ hmem) .enclosure
  · cases heq
    exact hbraced (familyShapes.fonts _ hmem) .font
  · cases heq
    exact familyShapes.texts _ hmem ▸ .text
  · cases heq
    exact familyShapes.fractions _ hmem ▸ .twoBraced .fraction
  · cases heq
    exact familyShapes.stackings _ hmem ▸ .twoBraced .stack
  · simp only [List.mem_cons, Prod.mk.injEq, List.not_mem_nil, or_false] at hspecial
    rcases hspecial with ⟨rfl, rfl⟩ | ⟨rfl, rfl⟩ | ⟨rfl, rfl⟩ | ⟨rfl, rfl⟩ | ⟨rfl, rfl⟩ |
      ⟨rfl, rfl⟩ | ⟨rfl, rfl⟩ | ⟨rfl, rfl⟩
    · exact hbraced (familyShapes.others "\\boldsymbol" (by simp)) .boldSymbol
    · exact hbraced (familyShapes.others "\\bm" (by simp)) .boldSymbol
    · exact hbraced (familyShapes.others "\\sqrt" (by simp)) .root
    · have hname : "\\operatorname" ∈ operatorNameCommands := by simp [operatorNameCommands]
      exact shape?_of_mem_operatorNameCommands hname ▸ .operatorName hname
    · have hname : "\\operatorname*" ∈ operatorNameCommands := by simp [operatorNameCommands]
      exact shape?_of_mem_operatorNameCommands hname ▸ .operatorName hname
    · have hname : "\\left" ∈ delimiterCommands := by simp [delimiterCommands]
      exact shape?_of_mem_delimiterCommands hname ▸ .delimiter hname
    · have hname : "\\right" ∈ delimiterCommands := by simp [delimiterCommands]
      exact shape?_of_mem_delimiterCommands hname ▸ .delimiter hname
    · exact familyShapes.chemistry ▸ .chemistry

/-- An entry of the registry serves the shape of its name. -/
theorem serves_of_get? {name : String} {entry : Entry}
    (hentry : Registry.builtin.get? name = some entry) : entry.Serves name (shape? name) := by
  obtain ⟨before, after, heq, _⟩ := List.lookup_eq_some_iff.mp hentry
  apply serves_of_mem_builtinEntries
  have hmem : (name, entry) ∈ Registry.builtin.commands := by simp [heq]
  exact hmem

/-- A command with a shape has an entry, which serves that shape. -/
theorem exists_entry_of_shape? {name : String} {shape : ArgumentShape}
    (hshape : shape? name = some shape) :
    ∃ entry, Registry.builtin.get? name = some entry ∧ entry.Serves name (some shape) := by
  obtain ⟨before, after, heq, _⟩ := List.lookup_eq_some_iff.mp hshape
  have hfound := familyShapes.listed (name, shape) (by simp [heq])
  simp only [List.lookup_isSome_iff, List.mem_reverse] at hfound
  obtain ⟨entry, hentry⟩ := Option.isSome_iff_exists.mp (List.lookup_isSome_iff.mpr hfound)
  have hget : Registry.builtin.get? name = some entry := hentry
  exact ⟨entry, hget, hshape ▸ serves_of_get? hget⟩

end FormulaMarkup
