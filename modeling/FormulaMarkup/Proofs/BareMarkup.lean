import FormulaMarkup.Proofs.MarkupGrammar

/-!
# Markup without its attributes

Attributes are removed from text by a reader that knows three places: between
tags, in the name of a tag and among attributes.  It does not look at quotes,
and it need not, because no tag ends within a value.  Therefore removing the
attributes from written elements gives what the elements without attributes
are written as.
-/

namespace FormulaMarkup

/-- Where a reader of markup is. -/
inductive MarkupPlace where
  | content
  | tagName
  | attributes

/-- What is left if all attributes are left out, from a place on. -/
def dropAttributes : MarkupPlace → List Char → List Char
  | _, [] => []
  | .content, c :: rest =>
      c :: if c = '<' then dropAttributes .tagName rest else dropAttributes .content rest
  | .tagName, c :: rest =>
      if c = '>' then c :: dropAttributes .content rest
      else if c = ' ' then dropAttributes .attributes rest
      else c :: dropAttributes .tagName rest
  | .attributes, c :: rest =>
      if c = '>' then c :: dropAttributes .content rest else dropAttributes .attributes rest

/-- The markup with all attributes removed from its start tags. -/
def withoutAttributes (markup : String) : String :=
  String.ofList (dropAttributes .content markup.toList)

theorem dropAttributes_content
    {text : List Char} (htext : '<' ∉ text) (rest : List Char) :
    dropAttributes .content (text ++ rest) = text ++ dropAttributes .content rest := by
  induction text with
  | nil => rfl
  | cons c others ih =>
      rw [List.mem_cons, not_or] at htext
      have hopen : c ≠ '<' := fun h => htext.1 h.symm
      simp [dropAttributes, hopen, ih htext.2]

theorem dropAttributes_tagName
    {name : List Char} (hname : '>' ∉ name ∧ ' ' ∉ name) (rest : List Char) :
    dropAttributes .tagName (name ++ rest) = name ++ dropAttributes .tagName rest := by
  induction name with
  | nil => rfl
  | cons c others ih =>
      simp only [List.mem_cons, not_or] at hname
      obtain ⟨⟨hclose, hothers⟩, hblank, hblanks⟩ := hname
      simp [dropAttributes, Ne.symm hclose, Ne.symm hblank, ih ⟨hothers, hblanks⟩]

theorem dropAttributes_attributes
    {text : List Char} (htext : '>' ∉ text) (rest : List Char) :
    dropAttributes .attributes (text ++ rest) = dropAttributes .attributes rest := by
  induction text with
  | nil => rfl
  | cons c others ih =>
      rw [List.mem_cons, not_or] at htext
      have hclose : c ≠ '>' := fun h => htext.1 h.symm
      simp [dropAttributes, hclose, ih htext.2]

theorem IsAttributeList.not_mem {attributes : String} (hattributes : IsAttributeList attributes) :
    '>' ∉ attributes.toList := by
  induction hattributes with
  | none => simp
  | @next name value rest hname hvalue _ ih =>
      have hnameClean : '>' ∉ name.toList := by
        intro hmem
        exact absurd (hname.2 _ hmem) (by decide)
      have hvalueClean : '>' ∉ value.toList := by
        intro hmem
        exact hvalue.clean _ hmem (by decide)
      simp [hnameClean, hvalueClean, ih]

/-- After the name of a tag, attributes are dropped up to the end of the tag. -/
theorem IsAttributeList.dropAttributes
    {attributes : String} (hattributes : IsAttributeList attributes) (rest : List Char) :
    FormulaMarkup.dropAttributes .tagName (attributes.toList ++ '>' :: rest) =
      '>' :: FormulaMarkup.dropAttributes .content rest := by
  have hclean := hattributes.not_mem
  cases hattributes with
  | none => simp [FormulaMarkup.dropAttributes]
  | @next name value others hname hvalue hothers =>
      have hblank : (" " ++ name ++ "=\"" ++ value ++ "\"" ++ others).toList =
          ' ' :: (name ++ "=\"" ++ value ++ "\"" ++ others).toList := by
        simp
      rw [hblank, List.mem_cons, not_or] at hclean
      rw [hblank, List.cons_append, FormulaMarkup.dropAttributes]
      simp only [Char.reduceEq, if_false, if_true]
      rw [dropAttributes_attributes hclean.2]
      simp [FormulaMarkup.dropAttributes]

mutual

/-- The element without any attributes, and the same for all that it holds. -/
def Element.bare : Element → Element
  | .text tag _ content => .text tag ∅ content
  | .layout tag _ children => .layout tag ∅ (bareElements children)

def bareElements : List Element → List Element
  | [] => []
  | element :: rest => element.bare :: bareElements rest

end

@[simp] theorem Element.bare_text (tag : TextTag) (attributes : Attributes) (content : String) :
    (Element.text tag attributes content).bare = .text tag ∅ content := by
  rw [Element.bare]

@[simp] theorem Element.bare_layout
    (tag : LayoutTag) (attributes : Attributes) (children : List Element) :
    (Element.layout tag attributes children).bare = .layout tag ∅ (children.map Element.bare) := by
  have hchildren : bareElements children = children.map Element.bare := by
    induction children with
    | nil => rfl
    | cons element rest ih => rw [bareElements, ih, List.map_cons]
  rw [Element.bare, hchildren]

theorem Tag.name_clean (tag : Tag) : '>' ∉ tag.name.toList ∧ ' ' ∉ tag.name.toList := by
  cases tag with
  | text tag => cases tag <;> decide
  | layout tag => cases tag <;> decide

theorem dropAttributes_startTag (tag : Tag) (attributes : Attributes) (rest : List Char) :
    dropAttributes .content ((Written.startTag tag attributes).toList ++ rest) =
      (Written.startTag tag ∅).toList ++ dropAttributes .content rest := by
  have hattributes := isAttributeList_join attributes.entries
  simp only [Written.startTag, String.toList_append, List.append_assoc]
  change '<' :: dropAttributes .tagName (tag.name.toList ++ (_ ++ '>' :: rest)) = _
  rw [dropAttributes_tagName tag.name_clean, hattributes.dropAttributes]
  simp

theorem dropAttributes_endTag (tag : Tag) (rest : List Char) :
    dropAttributes .content ((Written.endTag tag).toList ++ rest) =
      (Written.endTag tag).toList ++ dropAttributes .content rest := by
  have hname : '>' ∉ '/' :: tag.name.toList ∧ ' ' ∉ '/' :: tag.name.toList := by
    simpa using tag.name_clean
  simp only [Written.endTag, String.toList_append, List.append_assoc]
  change '<' :: dropAttributes .tagName (('/' :: tag.name.toList) ++ '>' :: rest) = _
  rw [dropAttributes_tagName hname]
  simp [dropAttributes]

mutual

theorem Element.dropAttributes_write (element : Element) (rest : List Char) :
    dropAttributes .content (element.write.toList ++ rest) =
      element.bare.write.toList ++ dropAttributes .content rest := by
  match element with
  | .text tag attributes content =>
      have hcontent : '<' ∉ (escapeText content).toList := fun hmem =>
        (isTextContent_escapeText content).clean _ hmem (by decide)
      simp only [Element.bare_text, write_text, Written.leaf, Written.enclose,
        String.toList_append, List.append_assoc]
      rw [dropAttributes_startTag, dropAttributes_content hcontent, dropAttributes_endTag]
  | .layout tag attributes children =>
      have hchildren := dropAttributes_writeElements children
      simp only [Element.bare_layout, write_layout, Written.enclose, String.toList_append,
        List.append_assoc]
      rw [dropAttributes_startTag, hchildren, dropAttributes_endTag]

theorem dropAttributes_writeElements (elements : List Element) (rest : List Char) :
    dropAttributes .content ((writeElements elements).toList ++ rest) =
      (writeElements (elements.map Element.bare)).toList ++ dropAttributes .content rest := by
  match elements with
  | [] => simp
  | element :: others =>
      simp only [writeElements_cons, List.map_cons, String.toList_append, List.append_assoc]
      rw [element.dropAttributes_write, dropAttributes_writeElements others]

end

theorem withoutAttributes_writeElements (elements : List Element) :
    withoutAttributes (writeElements elements) = writeElements (elements.map Element.bare) := by
  have hdrop := dropAttributes_writeElements elements []
  simp only [List.append_nil] at hdrop
  unfold withoutAttributes
  rw [hdrop]
  simp [dropAttributes]

end FormulaMarkup
