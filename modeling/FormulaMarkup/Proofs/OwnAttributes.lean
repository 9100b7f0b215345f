import FormulaMarkup.Proofs.LaidElements

/-!
# The attributes that elements bring along

Elements have attributes that are given in the context and attributes that they
bring along.  Typefaces are for texts that are shown, that is for identifiers
with a name, numbers and text boxes, and these bring no attributes besides; the
other elements bring attributes from a list that is given here.  The values that
elements bring along are fixed texts or come from the table of commands, so they
have no null characters.
-/

namespace FormulaMarkup

def Element.attributes : Element → Attributes
  | .text _ attributes _ => attributes
  | .layout _ attributes _ => attributes

mutual

/-- An element and all elements in it, in the order of their start tags. -/
def Element.withInner : Element → List Element
  | .text tag attributes content => [.text tag attributes content]
  | .layout tag attributes children => .layout tag attributes children :: allElements children

def allElements : List Element → List Element
  | [] => []
  | element :: rest => element.withInner ++ allElements rest

end

@[simp] theorem allElements_nil : allElements [] = [] := by
  rw [allElements]

@[simp] theorem allElements_cons (element : Element) (rest : List Element) :
    allElements (element :: rest) = element.withInner ++ allElements rest := by
  rw [allElements]

@[simp] theorem withInner_text (tag : TextTag) (attributes : Attributes) (content : String) :
    (Element.text tag attributes content).withInner = [.text tag attributes content] := by
  rw [Element.withInner]

@[simp] theorem withInner_layout (tag : LayoutTag) (attributes : Attributes)
    (children : List Element) :
    (Element.layout tag attributes children).withInner =
      .layout tag attributes children :: allElements children := by
  rw [Element.withInner]

@[simp] theorem allElements_append (first second : List Element) :
    allElements (first ++ second) = allElements first ++ allElements second := by
  induction first with
  | nil => simp
  | cons element rest ih => simp [ih]

/-- Texts that are shown in a typeface. -/
def Element.isLettering : Element → Bool
  | .text .identifier _ content => !content.isEmpty
  | .text .number _ _ => true
  | .text .plainText _ _ => true
  | _ => false

/-- The names of the attributes that elements other than texts bring along. -/
def structuralNames : List String :=
  ["width", "notation", "columnalign", "accent", "stretchy", "fence", "displaystyle",
   "scriptlevel", "linethickness"]

/-- The names of the attributes that elements bring along. -/
def ownAttributeNames : List String := "mathvariant" :: structuralNames

def Element.ownNames (element : Element) : List String :=
  if element.isLettering then ["mathvariant"] else structuralNames

theorem Element.ownNames_subset (element : Element) : element.ownNames ⊆ ownAttributeNames := by
  unfold ownNames
  split <;> simp [ownAttributeNames]

/-! ## Attributes and where they come from -/

/-- A text without null characters. -/
def IsClear (text : String) : Prop := '\x00' ∉ text.toList

instance (text : String) : Decidable (IsClear text) := inferInstanceAs (Decidable (_ ∉ _))

/-- The texts of an entry. -/
def Entry.texts (entry : Entry) : List String :=
  entry.codepoint.toList.map Char.toString ++
    match entry.family with
    | .enclosure kind => [kind]
    | .space width => [width]
    | _ => []

theorem isClear_of_get? {name : String} {entry : Entry}
    (hentry : Registry.builtin.get? name = some entry) : ∀ text ∈ entry.texts, IsClear text := by
  have hall : ∀ command ∈ builtinEntries, ∀ text ∈ command.2.texts, IsClear text := by
    decide +kernel
  obtain ⟨before, after, heq, _⟩ := List.lookup_eq_some_iff.mp hentry
  have hmem : (name, entry) ∈ Registry.builtin.commands := by simp [heq]
  exact hall _ hmem

theorem mem_writeEntry {α : Type} {name : String} {value : α} {entries : List (String × α)}
    {entry : String × α} (hmem : entry ∈ writeEntry name value entries) :
    entry ∈ entries ∨ entry = (name, value) := by
  induction entries with
  | nil => exact .inr (List.mem_singleton.mp hmem)
  | cons first rest ih =>
      obtain ⟨other, current⟩ := first
      simp only [writeEntry] at hmem
      split at hmem
      · next hname =>
        subst hname
        rcases List.mem_cons.mp hmem with hfirst | hlater
        · exact .inr hfirst
        · exact .inl (List.mem_cons_of_mem _ hlater)
      · rcases List.mem_cons.mp hmem with hfirst | hlater
        · exact .inl (hfirst ▸ List.mem_cons_self)
        · exact (ih hlater).imp_left (List.mem_cons_of_mem _)

namespace Dictionary

/-- The attributes are given, or they have one of the names and a clear value. -/
def IsFrom (given : List (String × String)) (names : List String) (attributes : Attributes) :
    Prop :=
  ∀ entry ∈ attributes.entries, entry ∈ given ∨ entry.1 ∈ names ∧ IsClear entry.2

namespace IsFrom

variable {given : List (String × String)} {allowed : List String} {attributes : Attributes}

theorem empty : (∅ : Attributes).IsFrom given allowed := nofun

theorem of_subset (hgiven : attributes.entries ⊆ given) : attributes.IsFrom given allowed :=
  fun _ hmem => .inl (hgiven hmem)

theorem singleton {name value : String} (hname : name ∈ allowed) (hvalue : IsClear value) :
    (Dictionary.singleton name value).IsFrom given allowed := by
  intro entry hmem
  rw [List.mem_singleton.mp hmem]
  exact .inr ⟨hname, hvalue⟩

theorem insertAll (hattributes : attributes.IsFrom given allowed)
    {entries : List (String × String)}
    (hentries : ∀ entry ∈ entries, entry ∈ given ∨ entry.1 ∈ allowed ∧ IsClear entry.2) :
    (attributes.insertAll entries).IsFrom given allowed := by
  induction entries generalizing attributes with
  | nil => exact hattributes
  | cons entry rest ih =>
      rw [List.forall_mem_cons] at hentries
      refine ih ?_ hentries.2
      intro other hmem
      rcases mem_writeEntry hmem with hbefore | rfl
      · exact hattributes other hbefore
      · exact hentries.1

theorem merge {overrides : Attributes} (hattributes : attributes.IsFrom given allowed)
    (hoverrides : overrides.IsFrom given allowed) :
    (attributes.merge overrides).IsFrom given allowed :=
  hattributes.insertAll hoverrides

theorem ofList {entries : List (String × String)}
    (hentries : ∀ entry ∈ entries, entry.1 ∈ allowed ∧ IsClear entry.2) :
    (Dictionary.ofList entries).IsFrom given allowed :=
  insertAll empty fun entry hmem => .inr (hentries entry hmem)

theorem mem_of_mem_names (hattributes : attributes.IsFrom given allowed) {name : String}
    (hmem : name ∈ attributes.names) : name ∈ given.map Prod.fst ∨ name ∈ allowed := by
  obtain ⟨entry, hentry, rfl⟩ := List.mem_map.mp hmem
  exact (hattributes entry hentry).imp List.mem_map_of_mem And.left

theorem names_subset (hattributes : attributes.IsFrom [] allowed) : attributes.names ⊆ allowed :=
  fun _ hmem => (hattributes.mem_of_mem_names hmem).resolve_left nofun

end IsFrom
end Dictionary

theorem eq_of_mem_ite {α : Type} {condition : Prop} [Decidable condition] {only member : α}
    (hmem : member ∈ if condition then [only] else []) : member = only := by
  split at hmem
  · exact List.mem_singleton.mp hmem
  · cases hmem

section Tables

variable {given : List (String × String)} {context : Context}

theorem TableStyle.isFrom_attributes (style : TableStyle)
    (hcontext : context.attributes.entries ⊆ given) :
    (style.attributes context).IsFrom given structuralNames := by
  refine .merge (.ofList ?_) (.of_subset hcontext)
  intro entry hmem
  rcases List.mem_append.mp hmem with hdisplay | hsmall
  · exact eq_of_mem_ite hdisplay ▸ by decide
  · exact eq_of_mem_ite hsmall ▸ by decide

theorem Alignment.isFrom_attributes (alignment : Alignment) {attributes : Attributes}
    (hattributes : attributes.IsFrom given structuralNames) :
    (alignment.attributes attributes).IsFrom given structuralNames := by
  cases alignment with
  | centered => exact hattributes
  | left => exact .merge (.singleton (by decide) (by decide)) hattributes
  | rightLeft => exact .merge (.singleton (by decide) (by decide)) hattributes

end Tables

/-- The names of the attributes that a `math` element brings along. -/
def outerNames : List String := ["xmlns", "display"]

theorem Settings.isFrom_outerAttributes (settings : Settings) (display : Display) :
    (settings.outerAttributes display).IsFrom settings.mathAttributes.entries outerNames := by
  refine .merge (.ofList ?_) (.of_subset (List.Subset.refl _))
  intro entry hmem
  rcases List.mem_append.mp hmem with hspace | hdisplay
  · exact eq_of_mem_ite hspace ▸ by decide +kernel
  · exact eq_of_mem_ite hdisplay ▸ by decide

/-- Around the elements of a formula, markup has only a few attributes. -/
theorem Settings.attributes_of_mem_mathElement {settings : Settings} {display : Display}
    {tree : Node} {elements : List Element} {element : Element}
    (hmem : element ∈ allElements [settings.mathElement display tree elements]) :
    element.attributes = settings.outerAttributes display ∨ element.attributes = ∅ ∨
      element.attributes = .singleton "encoding" texEncoding ∨ element ∈ allElements elements := by
  simp only [mathElement, allElements_cons, allElements_nil, List.append_nil, withInner_layout,
    List.mem_cons] at hmem
  rcases hmem with rfl | hinner
  · exact .inl rfl
  split at hinner
  · simp only [Element.semantics, Element.row, allElements_cons, allElements_nil,
      allElements_append, withInner_layout, withInner_text, List.append_nil, List.mem_cons,
      List.mem_append, List.not_mem_nil, or_false] at hinner
    rcases hinner with rfl | (rfl | hlaid) | rfl
    · exact .inr (.inl rfl)
    · exact .inr (.inl rfl)
    · exact .inr (.inr (.inr hlaid))
    · exact .inr (.inr (.inl rfl))
  · exact .inr (.inr (.inr hinner))

/-- The attributes of all elements are given, or the elements bring them along. -/
def AttributedFrom (given : List (String × String)) (elements : List Element) : Prop :=
  ∀ element ∈ allElements elements, element.attributes.IsFrom given element.ownNames

namespace AttributedFrom

variable {given : List (String × String)} {context : Context}

theorem nil : AttributedFrom given [] := by simp [AttributedFrom]

theorem append {first second : List Element} (hfirst : AttributedFrom given first)
    (hsecond : AttributedFrom given second) : AttributedFrom given (first ++ second) := by
  intro element hmem
  rw [allElements_append, List.mem_append] at hmem
  exact hmem.elim (hfirst element) (hsecond element)

theorem cons {element : Element} {rest : List Element} (helement : AttributedFrom given [element])
    (hrest : AttributedFrom given rest) : AttributedFrom given (element :: rest) :=
  append helement hrest

theorem layout (tag : LayoutTag) {attributes : Attributes} {children : List Element}
    (hattributes : attributes.IsFrom given structuralNames)
    (hchildren : AttributedFrom given children) :
    AttributedFrom given [.layout tag attributes children] := by
  intro element hmem
  simp only [allElements_cons, withInner_layout, allElements_nil, List.append_nil,
    List.mem_cons] at hmem
  rcases hmem with rfl | hmem
  · exact hattributes
  · exact hchildren element hmem

/-- An element that has no attributes. -/
theorem plain (tag : LayoutTag) {children : List Element}
    (hchildren : AttributedFrom given children) :
    AttributedFrom given [.layout tag ∅ children] :=
  layout tag .empty hchildren

theorem text {tag : TextTag} {attributes : Attributes} {content : String}
    (hattributes : attributes.IsFrom given (Element.text tag attributes content).ownNames) :
    AttributedFrom given [.text tag attributes content] := by
  intro element hmem
  rw [allElements_cons, allElements_nil, List.append_nil, withInner_text,
    List.mem_singleton] at hmem
  exact hmem ▸ hattributes

theorem operator {attributes : Attributes} (hattributes : attributes.IsFrom given structuralNames)
    (content : String) : AttributedFrom given [.operator attributes content] :=
  text hattributes

theorem lettering (hcontext : context.attributes.entries ⊆ given)
    (default : Option Variant) {tag : TextTag} {content : String}
    (hlettering : (Element.text tag (context.textAttributes default) content).isLettering) :
    AttributedFrom given [.text tag (context.textAttributes default) content] := by
  apply text
  rw [Element.ownNames, if_pos hlettering, Context.textAttributes]
  cases context.variant.or default with
  | none => exact .merge .empty (.of_subset hcontext)
  | some variant =>
      have hclear : IsClear variant.name := by cases variant <;> decide
      exact .merge (.singleton (by simp) hclear) (.of_subset hcontext)

theorem placeholder : AttributedFrom given [.placeholder] := text .empty

theorem space (hcontext : context.attributes.entries ⊆ given) {width : String}
    (hwidth : IsClear width) : AttributedFrom given [.space width context.attributes] :=
  layout .space (.merge (.singleton (by decide) hwidth) (.of_subset hcontext)) nil

/-- A mark on a base. -/
theorem mark {base : List Element} (hbase : AttributedFrom given base) {stretch : String}
    (hstretch : IsClear stretch) (content : String) :
    AttributedFrom given
      (base ++ [.operator (Dictionary.singleton "stretchy" stretch) content]) :=
  hbase.append (operator (.singleton (by decide) hstretch) content)

/-- An atom is upright wherever it stands. -/
theorem atom {symbol : String} (hne : symbol ≠ "") :
    AttributedFrom given
      [.identifier (Dictionary.singleton "mathvariant" Variant.normal.name) symbol] := by
  refine text (.singleton ?_ (by decide))
  simp [Element.ownNames, Element.isLettering, hne]

theorem isFrom_fenceAttributes : fenceAttributes.IsFrom given structuralNames :=
  .ofList (by decide)

theorem fence (delimiter : Option Char) : AttributedFrom given (fence delimiter) := by
  cases delimiter with
  | none => exact nil
  | some c => exact operator isFrom_fenceAttributes c.toString

theorem tableCell {children : List Element} (hchildren : AttributedFrom given children) :
    AttributedFrom given [.tableCell children] := by
  refine plain .tableCell ?_
  split
  · exact placeholder
  · exact hchildren

theorem table (style : TableStyle) (hcontext : context.attributes.entries ⊆ given)
    {rows : List Element} (hrows : AttributedFrom given rows) :
    AttributedFrom given [.table style.alignment (style.attributes context) rows] :=
  layout .table (style.alignment.isFrom_attributes (style.isFrom_attributes hcontext)) hrows

theorem fractionElement (style : FractionStyle) (hcontext : context.attributes.entries ⊆ given)
    {parts : List Element} (hparts : AttributedFrom given parts) :
    AttributedFrom given [fractionElement style context.attributes parts] := by
  have hgiven : context.attributes.IsFrom given structuralNames := .of_subset hcontext
  cases style with
  | inherited => exact layout .fraction hgiven hparts
  | display => exact layout .fraction (.merge (.singleton (by decide) (by decide)) hgiven) hparts
  | text => exact layout .fraction (.merge (.singleton (by decide) (by decide)) hgiven) hparts
  | binomial =>
      refine layout .row hgiven (cons ?_ (cons ?_ ?_))
      · exact operator .empty "("
      · exact layout .fraction (.singleton (by decide) (by decide)) hparts
      · exact operator .empty ")"

end AttributedFrom

theorem LiteralClass.ne_empty_of_letter {value : String}
    (hclass : LiteralClass.of value = .letter) : value ≠ "" := by
  rintro rfl
  cases hclass

theorem bareName_ne_empty {value : String} (hclass : LiteralClass.of value = .command) :
    bareName value ≠ "" := by
  unfold LiteralClass.of at hclass
  unfold bareName
  split
  · next rest hvalue =>
    rw [hvalue] at hclass
    cases rest with
    | nil => cases hclass
    | cons c rest => simp
  · rintro rfl
    cases hclass

/-- The attributes of an element are those of the context, or the element brings
them along. -/
theorem Laid.attributedFrom {known : String → Prop} {portion : Portion} {context : Context}
    {elements : List Element} (hlaid : Laid known portion context elements)
    {given : List (String × String)} (hcontext : context.attributes.entries ⊆ given) :
    AttributedFrom given elements := by
  have hnothing : ([] : List (String × String)) ⊆ given := List.nil_subset given
  induction hlaid with
  | letter hclass =>
      exact .lettering hcontext _
        (by simpa [Element.isLettering] using LiteralClass.ne_empty_of_letter hclass)
  | number => exact .lettering hcontext _ rfl
  | tie => exact .space hcontext (by decide)
  | symbol => exact .operator (.of_subset hcontext) _
  | identifier => exact .lettering hcontext _ (by simp [Element.isLettering])
  | operator => exact .operator (.of_subset hcontext) _
  | functionName hclass =>
      exact .lettering hcontext _ (by simpa [Element.isLettering] using bareName_ne_empty hclass)
  | space _ hentry => exact .space hcontext (isClear_of_get? hentry _ (by simp [Entry.texts]))
  | noItem | noCell | noRow | noSegment | noDelimiter => exact .nil
  | plainItem _ _ _ ihfirst ihothers => exact (ihfirst hcontext).append (ihothers hcontext)
  | curlyItem _ _ _ ihfirst ihothers => exact (ihfirst hcontext).append (ihothers hcontext)
  | noSequence | singleNothing | noAttached => exact .placeholder
  | sequence _ ih => exact ih hcontext
  | alone _ _ ih => exact ih hcontext
  | singleOnly _ ih => exact ih hcontext
  | singleSeveral _ ih => exact .plain .row (ih hcontext)
  | attached _ _ ih => exact .plain .row (ih hnothing)
  | script _ _ _ ihbase ihattached =>
      exact .plain _ ((ihbase hcontext).append (ihattached hcontext))
  | accent _ _ ih =>
      refine .layout .over (.singleton (by decide) (by decide)) ((ih hcontext).mark ?_ _)
      split <;> decide
  | mark _ _ hbase ih =>
      subst hbase
      refine .plain .row (.plain _ (AttributedFrom.mark ?_ (by decide) _))
      split
      · exact .plain .row (ih hcontext)
      · exact ih hcontext
  | boldSymbol _ _ ih => exact ih hcontext
  | font _ _ ih => exact ih hcontext
  | @enclosure _ _ _ _ kind _ _ hentry _ ih =>
      have hkind : IsClear kind := isClear_of_get? hentry _ (by simp [Entry.texts])
      exact .layout .enclosure (.merge (.singleton (by decide) hkind) (.of_subset hcontext))
        (ih hnothing)
  | root _ _ ih => exact .layout .root (.of_subset hcontext) (ih hnothing)
  | text => exact .lettering hcontext _ rfl
  | operatorName _ _ hne =>
      exact .lettering hcontext _ (by simpa [Element.isLettering] using hne)
  | delimiter =>
      exact .operator (.merge AttributedFrom.isFrom_fenceAttributes (.of_subset hcontext)) _
  | stack _ _ _ ihbase ihmark =>
      exact .layout _ (.of_subset hcontext) ((ihbase hnothing).append (ihmark hnothing))
  | fraction _ _ _ ihupper ihlower =>
      exact .fractionElement _ hcontext ((ihupper hnothing).append (ihlower hnothing))
  | cell _ _ _ ihcell ihcells => exact (ihcell hcontext).tableCell.cons (ihcells hcontext)
  | row _ _ ihcells ihrows => exact .cons (.plain .tableRow (ihcells hcontext)) (ihrows hcontext)
  | table _ _ ih => exact .table _ hcontext (ih hnothing)
  | fencedTable _ ih =>
      exact .plain .row
        (((AttributedFrom.fence _).append (.table _ hcontext (ih hnothing))).append (.fence _))
  | chemistry _ _ _ ih => exact .layout .row (.of_subset hcontext) (ih hnothing)
  | arrow _ ih => exact .cons (.operator .empty _) (ih hcontext)
  | atom hsymbol _ ih => exact .cons (.atom hsymbol) (ih hcontext)
  | countedAtom hsymbol _ ih =>
      have hcount (count : String) : AttributedFrom given [.number ∅ count] := .text .empty
      exact .cons (.plain .subscript ((AttributedFrom.atom hsymbol).cons (hcount _))) (ih hcontext)
  | otherSegment _ _ ihpiece ihothers => exact (ihpiece hcontext).append (ihothers hcontext)

/-- In a context without attributes, elements have only attributes that they
bring along. -/
theorem Laid.haveOwnNames {known : String → Prop} {portion : Portion} {context : Context}
    {elements : List Element} (hlaid : Laid known portion context elements)
    (hcontext : context.attributes = ∅) :
    ∀ element ∈ allElements elements, element.attributes.names ⊆ element.ownNames := by
  intro element hmem
  have hfrom : AttributedFrom [] elements := hlaid.attributedFrom (by rw [hcontext]; exact nofun)
  exact (hfrom element hmem).names_subset

end FormulaMarkup
