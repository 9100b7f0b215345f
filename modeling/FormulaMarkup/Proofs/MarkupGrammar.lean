import FormulaMarkup.FormulaConversion
import FormulaMarkup.Proofs.SearchedMarks

/-!
# The grammar of the markup

Markup is read by programs that know nothing about formulas, so what counts as
well formed is said here about text and not about trees of elements: tags are
closed by their own names, attributes are names with values in quotes, and
nothing in a text or in a value can be taken for the beginning of a tag, the
end of a value or an entity of another kind.

Whatever a tree of elements holds, it is written in this grammar.  Texts,
names and values may come from anywhere; it is the escaping that makes them
harmless, so the proof is about the escaping and about how tags are put
together, and not about where the elements come from.
-/

namespace FormulaMarkup

/-- The text holds none of the forbidden characters, and each ampersand begins an entity. -/
structure IsEscaped (forbidden : List Char) (entities : List String) (text : String) :
    Prop where
  clean : ∀ c ∈ text.toList, c ∉ forbidden
  begins : ∀ rest, '&' :: rest <:+ text.toList → ∃ entity ∈ entities, entity.toList <+: '&' :: rest

/-- The content of an element that holds text. -/
def IsTextContent (text : String) : Prop :=
  IsEscaped ['<', '>'] ["&amp;", "&lt;", "&gt;"] text

/-- What stands between the quotes of an attribute. -/
def IsAttributeValue (text : String) : Prop :=
  IsEscaped ['\x22', '\x27', '<', '>'] ["&amp;", "&quot;", "&#39;", "&lt;", "&gt;"] text

def IsAttributeName (name : String) : Prop :=
  name ≠ "" ∧ ∀ c ∈ name.toList, c.isAlphanum = true ∨ c ∈ ['-', '_', ':', '.']

/-- The attributes of a start tag, each with the blank before it. -/
inductive IsAttributeList : String → Prop
  | none : IsAttributeList ""
  | next {name value rest : String}
      (hname : IsAttributeName name) (hvalue : IsAttributeValue value)
      (hrest : IsAttributeList rest) :
      IsAttributeList (" " ++ name ++ "=\"" ++ value ++ "\"" ++ rest)

/-- With a tag, the text is one element of this tag; without one, it is any
number of elements one after the other. -/
inductive IsMarkup : Option Tag → String → Prop
  | text {tag : TextTag} {attributes content : String}
      (hattributes : IsAttributeList attributes) (hcontent : IsTextContent content) :
      IsMarkup (some (.text tag))
        ("<" ++ tag.name ++ attributes ++ ">" ++ content ++ "</" ++ tag.name ++ ">")
  | layout {tag : LayoutTag} {attributes content : String}
      (hattributes : IsAttributeList attributes) (hcontent : IsMarkup none content) :
      IsMarkup (some (.layout tag))
        ("<" ++ tag.name ++ attributes ++ ">" ++ content ++ "</" ++ tag.name ++ ">")
  | nothing : IsMarkup none ""
  | followed {tag : Tag} {element rest : String}
      (helement : IsMarkup (some tag) element) (hrest : IsMarkup none rest) :
      IsMarkup none (element ++ rest)

/-! ## Escaped text -/

section Escaping

variable {forbidden : List Char} {entities : List String}

theorem IsEscaped.empty : IsEscaped forbidden entities "" := by
  constructor
  · simp
  · simp

/-- An ampersand that stands after a part without ampersands stands in the rest. -/
theorem suffix_of_not_mem
    {first second rest : List Char} (hfirst : '&' ∉ first)
    (hsuffix : '&' :: rest <:+ first ++ second) :
    '&' :: rest <:+ second := by
  induction first with
  | nil => exact hsuffix
  | cons c others ih =>
      rw [List.mem_cons, not_or] at hfirst
      rw [List.cons_append, List.suffix_cons_iff] at hsuffix
      rcases hsuffix with hwhole | hlater
      · exact absurd (List.cons.inj hwhole).1 hfirst.1
      · exact ih hfirst.2 hlater

theorem IsEscaped.plain
    {c : Char} {text : String} (hforbidden : c ∉ forbidden) (hampersand : c ≠ '&')
    (htext : IsEscaped forbidden entities text) :
    IsEscaped forbidden entities (c.toString ++ text) := by
  constructor
  · simpa using ⟨hforbidden, htext.clean⟩
  · intro rest hrest
    rw [String.toList_append] at hrest
    refine htext.begins rest (suffix_of_not_mem ?_ hrest)
    simpa using fun h => hampersand h.symm

/-- An ampersand, and after it neither another one nor a forbidden character. -/
def isEntity (forbidden : List Char) (entity : String) : Bool :=
  entity.toList.head? == some '&' && !entity.toList.tail.contains '&' &&
    entity.toList.all fun c => !forbidden.contains c

theorem IsEscaped.entity
    {entity text : String} (hmem : entity ∈ entities) (hentity : isEntity forbidden entity = true)
    (htext : IsEscaped forbidden entities text) :
    IsEscaped forbidden entities (entity ++ text) := by
  simp only [isEntity, Bool.and_eq_true, beq_iff_eq, Bool.not_eq_true', List.contains_eq_mem,
    decide_eq_false_iff_not, List.all_eq_true] at hentity
  obtain ⟨⟨hhead, htail⟩, hforbidden⟩ := hentity
  obtain ⟨name, hname⟩ := List.head?_eq_some_iff.mp hhead
  rw [hname, List.tail_cons] at htail
  constructor
  · intro c hc
    rw [String.toList_append, List.mem_append] at hc
    rcases hc with hc | hc
    · exact hforbidden c hc
    · exact htext.clean c hc
  · intro rest hrest
    rw [String.toList_append, hname, List.cons_append, List.suffix_cons_iff] at hrest
    rcases hrest with hwhole | hlater
    · refine ⟨entity, hmem, ?_⟩
      rw [hwhole, hname]
      exact ⟨text.toList, rfl⟩
    · exact htext.begins rest (suffix_of_not_mem htail hlater)

/-- A way to write single characters: as themselves if nothing speaks against
it, and otherwise by an entity. -/
def WritesEscaped (forbidden : List Char) (entities : List String) (write : Char → String) :
    Prop :=
  ∀ c, (write c ∈ entities ∧ isEntity forbidden (write c) = true) ∨
    (write c = c.toString ∧ c ∉ forbidden ∧ c ≠ '&')

theorem WritesEscaped.join
    {write : Char → String} (hwrite : WritesEscaped forbidden entities write) (text : List Char) :
    IsEscaped forbidden entities (String.join (text.map write)) := by
  induction text with
  | nil => exact .empty
  | cons c rest ih =>
      rw [List.map_cons, String.join_cons]
      rcases hwrite c with ⟨hmem, hentity⟩ | ⟨hself, hforbidden, hampersand⟩
      · exact ih.entity hmem hentity
      · rw [hself]
        exact ih.plain hforbidden hampersand

end Escaping

theorem isTextContent_escapeText (text : String) : IsTextContent (escapeText text) := by
  have hwrite : WritesEscaped ['<', '>'] ["&amp;", "&lt;", "&gt;"] textEntity := by
    intro c
    unfold textEntity
    split
    · left; decide
    · left; decide
    · left; decide
    · right; simp_all
  rw [escapeText, appendText_eq, String.empty_append]
  exact hwrite.join text.toList

theorem isAttributeValue_escapeValue (value : String) : IsAttributeValue (escapeValue value) := by
  have hwrite : WritesEscaped ['\x22', '\x27', '<', '>']
      ["&amp;", "&quot;", "&#39;", "&lt;", "&gt;"] valueEntity := by
    intro c
    unfold valueEntity
    split
    · left; decide
    · left; decide
    · left; decide
    · left; decide
    · left; decide
    · right; simp_all
  rw [escapeValue, appendValue_eq, String.empty_append]
  exact hwrite.join value.toList

/-! ## Elements -/

theorem isAttributeName_usableName {name : String} (hne : usableName name ≠ "") :
    IsAttributeName (usableName name) := by
  refine ⟨hne, ?_⟩
  intro c hc
  have hcharacter : isNameCharacter c = true := by
    unfold usableName at hc
    rw [String.toList_ofList] at hc
    exact (List.mem_filter.mp hc).2
  simpa [isNameCharacter, or_assoc] using hcharacter

theorem IsAttributeList.attributeText
    {rest : String} (name value : String) (hrest : IsAttributeList rest) :
    IsAttributeList (Written.attributeText name value ++ rest) := by
  unfold Written.attributeText
  by_cases hempty : (usableName name).isEmpty = true
  · simpa [hempty] using hrest
  · have hname : IsAttributeName (usableName name) :=
      isAttributeName_usableName (by simpa using hempty)
    simpa [hempty] using hrest.next hname (isAttributeValue_escapeValue value)

theorem isAttributeList_join (entries : List (String × String)) :
    IsAttributeList
      (String.join (entries.map fun entry => Written.attributeText entry.1 entry.2)) := by
  induction entries with
  | nil => exact .none
  | cons entry rest ih =>
      rw [List.map_cons, String.join_cons]
      exact ih.attributeText entry.1 entry.2

theorem enclose_eq (tag : Tag) (attributes : Attributes) (content : String) :
    Written.enclose tag attributes content =
      "<" ++ tag.name ++
        String.join (attributes.entries.map fun entry => Written.attributeText entry.1 entry.2) ++
        ">" ++ content ++ "</" ++ tag.name ++ ">" := by
  simp only [Written.enclose, Written.startTag, Written.endTag, String.append_assoc]

/-- The tag of an element. -/
def Element.tag : Element → Tag
  | .text tag _ _ => .text tag
  | .layout tag _ _ => .layout tag

mutual

theorem Element.isMarkup_write (element : Element) :
    IsMarkup (some element.tag) element.write := by
  match element with
  | .text tag attributes content =>
      rw [write_text, Written.leaf, enclose_eq]
      exact .text (isAttributeList_join attributes.entries) (isTextContent_escapeText content)
  | .layout tag attributes children =>
      rw [write_layout, enclose_eq]
      exact .layout (isAttributeList_join attributes.entries) (isMarkup_writeElements children)

theorem isMarkup_writeElements (elements : List Element) :
    IsMarkup none (writeElements elements) := by
  match elements with
  | [] =>
      rw [writeElements_nil]
      exact .nothing
  | element :: rest =>
      rw [writeElements_cons]
      exact .followed element.isMarkup_write (isMarkup_writeElements rest)

end

/-- The written layout of a node. -/
def Node.markup (registry : Registry) (node : Node) (context : Context) :
    Except LayoutError String :=
  (node.layout registry context).map writeElements

end FormulaMarkup
