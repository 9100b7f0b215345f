import FormulaMarkup.FormulaConversion
import FormulaMarkup.TomlDocuments

/-!
# Settings from a configuration file

The settings of a conversion can be kept in a TOML document.  Every entry may
be left out, and entries with other names are ignored.  The attributes of the
`math` element are taken in the order of their names.
-/

namespace FormulaMarkup

/-- A Boolean setting, which is off if it is left out. -/
def booleanSetting (name : String) (document : Toml.Table) : Option Bool :=
  match document.lookup name with
  | none => some false
  | some (.boolean value) => some value
  | some _ => none

def attributeEntry : String × Toml.Value → Option (String × String)
  | (name, .string value) => some (name, value)
  | _ => none

def orderedByName (entries : List (String × String)) : List (String × String) :=
  entries.mergeSort fun first second => decide (first.1 ≤ second.1)

/-- The name under which a date is entered where a table is asked for. -/
def dateEntryName : String := "$__toml_private_datetime"

/-- The attributes in a table of strings.  A date counts as a table whose only entry is the date
itself. -/
def attributeSetting (name : String) (document : Toml.Table) : Option Attributes :=
  match document.lookup name with
  | none => some ∅
  | some (.dateTime value) => some (.singleton dateEntryName value.text)
  | some (.table _ entries) =>
      (entries.mapM attributeEntry).map fun pairs => .ofList (orderedByName pairs)
  | some _ => none

/-- The settings that a document gives. -/
def Settings.ofDocument (document : Toml.Table) : Option Settings :=
  match booleanSetting "use-mhchem" document, booleanSetting "xml-namespace" document,
      booleanSetting "annotation" document, attributeSetting "math-attributes" document with
  | some chemistry, some xmlNamespace, some annotated, some mathAttributes =>
      some { chemistry, xmlNamespace, annotated, mathAttributes }
  | _, _, _, _ => none

/-- The settings that the text of a configuration file gives. -/
def Settings.ofText (text : String) : Option Settings :=
  match Toml.readDocument text with
  | some document => Settings.ofDocument document
  | none => none

end FormulaMarkup
