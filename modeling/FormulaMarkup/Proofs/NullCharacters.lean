import FormulaMarkup.Proofs.AttributeTargets
import FormulaMarkup.Proofs.ClearElements
import FormulaMarkup.Proofs.FilledPlaces

/-!
# Null characters

A null character makes a formula malformed, with two exceptions: in a comment it
is passed over, and in a text box a backslash hides it.  What is hidden comes out
again.  So the canonical text and the markup of a formula are clear of null
characters exactly if its text boxes are; nothing else that a formula can hold
brings one in.
-/

namespace FormulaMarkup

/-! ## Written elements -/

theorem isClear_join_map_iff {write : Char → String}
    (hwrite : ∀ c, IsClear (write c) ↔ c ≠ '\x00') (text : String) :
    IsClear (String.join (text.toList.map write)) ↔ IsClear text := by
  rw [isClear_join, List.forall_mem_map]
  simp only [hwrite]
  exact List.forall_mem_ne'

theorem isClear_escapeText_iff (text : String) : IsClear (escapeText text) ↔ IsClear text := by
  rw [escapeText, appendText_eq, String.empty_append]
  apply isClear_join_map_iff
  intro c
  unfold textEntity
  split
  case h_4 => simp [IsClear, eq_comm]
  all_goals decide

theorem isClear_escapeValue_iff (value : String) :
    IsClear (escapeValue value) ↔ IsClear value := by
  rw [escapeValue, appendValue_eq, String.empty_append]
  apply isClear_join_map_iff
  intro c
  unfold valueEntity
  split
  case h_6 => simp [IsClear, eq_comm]
  all_goals decide

theorem isClear_usableName (name : String) : IsClear (usableName name) := by
  rw [IsClear, usableName, String.toList_ofList, List.mem_filter]
  rintro ⟨_, hname⟩
  exact absurd hname (by decide)

theorem isClear_attributeText (name : String) {value : String} (hvalue : IsClear value) :
    IsClear (Written.attributeText name value) := by
  unfold Written.attributeText
  simp only
  split
  · exact isClear_empty
  · simp only [isClear_append, isClear_escapeValue_iff]
    exact ⟨⟨⟨⟨by decide, isClear_usableName name⟩, by decide⟩, hvalue⟩, by decide⟩

theorem Tag.isClear_name (tag : Tag) : IsClear tag.name := by
  cases tag with
  | text tag => cases tag <;> decide
  | layout tag => cases tag <;> decide

def Dictionary.ValuesClear (attributes : Attributes) : Prop :=
  ∀ entry ∈ attributes.entries, IsClear entry.2

theorem Dictionary.IsFrom.valuesClear {given : Attributes} {allowed : List String}
    {attributes : Attributes} (hfrom : attributes.IsFrom given.entries allowed)
    (hgiven : given.ValuesClear) : attributes.ValuesClear := by
  intro entry hmem
  rcases hfrom entry hmem with hgivenEntry | ⟨_, hclear⟩
  · exact hgiven entry hgivenEntry
  · exact hclear

theorem isClear_startTag (tag : Tag) {attributes : Attributes}
    (hvalues : attributes.ValuesClear) : IsClear (Written.startTag tag attributes) := by
  simp only [Written.startTag, isClear_append, isClear_join, List.forall_mem_map]
  refine ⟨⟨⟨by decide, tag.isClear_name⟩, ?_⟩, by decide⟩
  exact fun entry hmem => isClear_attributeText entry.1 (hvalues entry hmem)

theorem isClear_endTag (tag : Tag) : IsClear (Written.endTag tag) := by
  simp only [Written.endTag, isClear_append]
  exact ⟨⟨by decide, tag.isClear_name⟩, by decide⟩

theorem isClear_enclose_iff (tag : Tag) {attributes : Attributes}
    (hvalues : attributes.ValuesClear) {content : String} :
    IsClear (Written.enclose tag attributes content) ↔ IsClear content := by
  rw [Written.enclose, isClear_append, isClear_append, and_iff_left (isClear_endTag tag),
    and_iff_right (isClear_startTag tag hvalues)]

mutual

theorem Element.isClear_write_iff (element : Element)
    (hvalues : ∀ inner ∈ element.withInner, inner.attributes.ValuesClear) :
    IsClear element.write ↔ ContentsClear [element] := by
  match element with
  | .text tag attributes content =>
      rw [withInner_text, List.forall_mem_singleton, Element.attributes] at hvalues
      rw [write_text, Written.leaf, isClear_enclose_iff _ hvalues, isClear_escapeText_iff,
        contentsClear_text_iff]
  | .layout tag attributes children =>
      rw [withInner_layout, List.forall_mem_cons, Element.attributes] at hvalues
      rw [write_layout, isClear_enclose_iff _ hvalues.1, contentsClear_layout_iff]
      exact isClear_writeElements_iff children hvalues.2

/-- Elements with clear values of attributes are written without null characters
exactly if their contents are clear. -/
theorem isClear_writeElements_iff (elements : List Element)
    (hvalues : ∀ inner ∈ allElements elements, inner.attributes.ValuesClear) :
    IsClear (writeElements elements) ↔ ContentsClear elements := by
  match elements with
  | [] => exact iff_of_true isClear_empty contentsClear_nil
  | element :: others =>
      rw [allElements_cons, List.forall_mem_append] at hvalues
      rw [writeElements_cons, isClear_append, contentsClear_cons_iff,
        element.isClear_write_iff hvalues.1, isClear_writeElements_iff others hvalues.2]

end

/-- An annotation brings in the canonical text. -/
theorem Settings.contentsClear_mathElement_iff (settings : Settings) (display : Display)
    (tree : Node) (elements : List Element) :
    ContentsClear [settings.mathElement display tree elements] ↔
      ContentsClear elements ∧ (settings.annotated = true → IsClear tree.canonicalText) := by
  rw [mathElement, contentsClear_layout_iff]
  split
  · next hannotated =>
    rw [Element.semantics, contentsClear_layout_iff, contentsClear_append_iff, Element.row,
      contentsClear_layout_iff, contentsClear_text_iff, hannotated]
    simp
  · next hannotated => simp [hannotated]

theorem Settings.valuesClear_mathElement {settings : Settings} {attributes : Attributes}
    (hmath : settings.mathAttributes.ValuesClear) (hattributes : attributes.ValuesClear)
    {elements : List Element} (hfrom : AttributedFrom attributes.entries elements)
    (display : Display) (tree : Node) :
    ∀ element ∈ allElements [settings.mathElement display tree elements],
      element.attributes.ValuesClear := by
  intro element hmem
  rcases Settings.attributes_of_mem_mathElement hmem with houter | hnone | hnote | hlaid
  · rw [houter]
    exact (settings.isFrom_outerAttributes display).valuesClear hmath
  · rw [hnone]
    exact nofun
  · rw [hnote]
    exact List.forall_mem_singleton.mpr (by decide)
  · exact (hfrom element hlaid).valuesClear hattributes

/-! ## Null characters in a formula -/

/-- In a text box, only a backslash lets a null character pass. -/
theorem exists_backslash_of_splitTextBox {depth : Nat} {cs front back : List Char}
    (hcontent : (splitTextBox depth cs).1 = front ++ '\x00' :: back) :
    ∃ lead, front = lead ++ ['\\'] := by
  fun_induction splitTextBox depth cs generalizing front with
  | case1 | case4 | case5 => simp at hcontent
  | case2 => cases front <;> simp at hcontent
  | case3 depth hidden rest inner outcome after hinner ih =>
      rw [hinner] at ih
      cases front with
      | nil => simp at hcontent
      | cons c front =>
          obtain ⟨hslash, hlater⟩ := List.cons.inj hcontent
          cases front with
          | nil => exact ⟨[], congrArg (· :: []) hslash.symm⟩
          | cons d front =>
              obtain ⟨lead, rfl⟩ := ih (List.cons.inj hlater).2
              exact ⟨c :: d :: lead, rfl⟩
  | case6 depth c rest _ _ hnul _ _ _ outcome after hinner =>
      rename_i ih
      rw [hinner] at ih
      cases front with
      | nil => exact absurd (List.cons.inj hcontent).1 hnul
      | cons d front =>
          obtain ⟨lead, rfl⟩ := ih (List.cons.inj hcontent).2
          exact ⟨d :: lead, rfl⟩

/-- After these characters, a backslash hides a null character in a text box. -/
def HidesNull (formula : String) (before : List Char) : Prop :=
  ∃ lead front back span, before = lead ++ '{' :: (front ++ ['\\']) ∧
    ⟨.rawText (String.ofList (front ++ '\\' :: '\x00' :: back)), span⟩ ∈ tokenize formula ∧
    span.start = byteLength lead

theorem Token.exists_hidden_of_isSpelled {token : Token} (hlegible : token.IsLegible)
    {front back rest : List Char} (htext : token.IsSpelled (front ++ '\x00' :: back) rest)
    (hmark : token.isMark = true → front = []) :
    ∃ lead tail, front = '{' :: (lead ++ ['\\']) ∧
      token = .rawText (String.ofList (lead ++ '\\' :: '\x00' :: tail)) := by
  have honly {c : Char} (hc : c ≠ '\x00') : front ++ '\x00' :: back ≠ [c] := by
    intro hsingle
    have hmem : '\x00' ∈ [c] := hsingle ▸ List.mem_append_right _ List.mem_cons_self
    exact hc (List.mem_singleton.mp hmem).symm
  have hplain {c : Char} (hc : IsPlain c) : c ≠ '\x00' := by
    rintro rfl
    exact hc.special (by simp)
  cases token with
  | endOfInput | malformed => cases htext
  | beginning name | ending name =>
      obtain ⟨gap, _, hspelled⟩ := htext
      rw [hmark rfl] at hspelled
      exact absurd (List.cons.inj hspelled).1 (by decide)
  | openBrace | closeBrace | nextCell => exact absurd htext (honly (by decide))
  | script side => cases side <;> exact absurd htext (honly (by decide))
  | nextRow =>
      have hmem : '\x00' ∈ ['\\', '\\'] :=
        htext ▸ List.mem_append_right _ List.mem_cons_self
      simp at hmem
  | command name =>
      have hmem : '\x00' ∈ name.toList := htext.1 ▸ List.mem_append_right _ List.mem_cons_self
      exact absurd hmem hlegible.isClear
  | digit c | letter c | symbol c => exact absurd htext (honly (hplain hlegible.1))
  | rawText content =>
      cases front with
      | nil => exact absurd (List.cons.inj htext).1 (by decide)
      | cons c front =>
          obtain ⟨rfl, hinner⟩ := List.cons.inj htext
          rcases exists_of_append_eq_append_cons hinner.symm with
            ⟨tail, hcontent, _⟩ | ⟨lead, _, hlast⟩
          · have hsplit := congrArg Prod.fst (hlegible [])
            obtain ⟨lead, rfl⟩ := exists_backslash_of_splitTextBox (hsplit.trans hcontent)
            refine ⟨lead, tail, rfl, ?_⟩
            rw [← String.ofList_toList (s := content), hcontent]
            simp
          · cases lead <;> simp at hlast

theorem inComment_or_hidesNull {formula : String} (hformed : WellFormed (tokenize formula))
    {before after : List Char} (hformula : formula.toList = before ++ '\x00' :: after) :
    InComment 0 (tokenize formula) before ∨ HidesNull formula before := by
  rcases inComment_or_inSpelling hformed isSolid_nul hformula with hcomment | hspelling
  · exact .inl hcomment
  · obtain ⟨⟨token, span⟩, hmem, lead, front, back, rest, hbefore, _, htext, hspan, hmark⟩ :=
      hspelling
    have hlegible := Lexer.isLegible_of_mem_lexemes hmem
    obtain ⟨inner, tail, rfl, htoken⟩ :=
      Token.exists_hidden_of_isSpelled hlegible htext hmark
    refine .inr ⟨lead, inner, tail, span, hbefore, htoken ▸ hmem, ?_⟩
    exact (congrArg Span.start hspan).trans (Nat.zero_add _)

section Reading

variable {chemistry : Bool} {formula : String} {tree : Node}

theorem isClear_canonicalText_iff (hparse : parseFormula chemistry formula = .ok tree) :
    IsClear tree.canonicalText ↔ ∀ box ∈ boxesOfLexemes (tokenize formula), IsClear box := by
  obtain ⟨hwords, hboxes⟩ := boxes_of_parseFormula hparse
  rw [← hboxes]
  exact hwords.isClear_text_iff

theorem contentsClear_iff_of_parseFormula (hparse : parseFormula chemistry formula = .ok tree)
    {context : Context} {elements : List Element}
    (hlayout : tree.layout .builtin context = .ok elements) :
    ContentsClear elements ↔ ∀ box ∈ boxesOfLexemes (tokenize formula), IsClear box := by
  obtain ⟨hwords, hboxes⟩ := boxes_of_parseFormula hparse
  rw [← hboxes]
  exact (laid_of_parseFormula hparse hlayout).contentsClear_iff hwords

end Reading

/-- A formula that is read has null characters only in comments and behind
backslashes in text boxes.  If no attribute value has one, its canonical text and
its markup are without null characters exactly if its text boxes are. -/
theorem isClear_conversion_iff (settings : Settings) (formula : String) (display : Display)
    (attributes : Attributes) (hmath : settings.mathAttributes.ValuesClear)
    (hattributes : attributes.ValuesClear) :
    (∀ text, settings.canonicalText formula = .ok text →
      (IsClear text ↔ ∀ box ∈ boxesOfLexemes (tokenize formula), IsClear box)) ∧
    (∀ output, settings.markup formula display attributes = .ok output →
      (IsClear output ↔ ∀ box ∈ boxesOfLexemes (tokenize formula), IsClear box)) ∧
    ∀ tree, settings.parse formula = .ok tree →
      ∀ before after, formula.toList = before ++ '\x00' :: after →
        InComment 0 (tokenize formula) before ∨ HidesNull formula before := by
  refine ⟨?_, ?_, ?_⟩
  · intro text hconverted
    unfold Settings.canonicalText at hconverted
    split at hconverted
    · cases hconverted
    · next tree hparse =>
      cases hconverted
      exact isClear_canonicalText_iff hparse
  · intro output hmarkup
    obtain ⟨tree, elements, hparse, hlayout, rfl⟩ := Settings.markup_eq_ok_iff.mp hmarkup
    have hfrom := (laid_of_parseFormula hparse hlayout).attributedFrom (List.Subset.refl _)
    rw [← writeElements_singleton,
      isClear_writeElements_iff _ (settings.valuesClear_mathElement hmath hattributes hfrom _ _),
      Settings.contentsClear_mathElement_iff, contentsClear_iff_of_parseFormula hparse hlayout,
      isClear_canonicalText_iff hparse]
    exact and_iff_left_of_imp fun hclear _ => hclear
  · intro tree hparse before after hformula
    exact inComment_or_hidesNull (wellFormed_of_parseFormula hparse) hformula

/-- A null character in a comment does not come out, and neither does one in the
name of an attribute. -/
theorem isClear_conversion_iff_comment :
    Dictionary.ValuesClear (.singleton "i\x00d" "f") ∧
      ({ annotated := true, mathAttributes := .singleton "class" "x" } : Settings).markup
        "%\x00\n\\text\x7ba\x7d" .inline (.singleton "i\x00d" "f") =
        .ok ("<math class=\"x\"><semantics><mrow><mtext id=\"f\">a</mtext></mrow>" ++
          "<annotation encoding=\"application/x-tex\">\\text\x7ba\x7d</annotation>" ++
          "</semantics></math>") ∧
      IsClear ("<math class=\"x\"><semantics><mrow><mtext id=\"f\">a</mtext></mrow>" ++
        "<annotation encoding=\"application/x-tex\">\\text\x7ba\x7d</annotation>" ++
        "</semantics></math>") := by
  have hmath : Dictionary.ValuesClear (.singleton "class" "x") :=
    List.forall_mem_singleton.mpr (by decide)
  have hattributes : Dictionary.ValuesClear (.singleton "i\x00d" "f") :=
    List.forall_mem_singleton.mpr (by decide)
  have hmarkup :
      ({ annotated := true, mathAttributes := .singleton "class" "x" } : Settings).markup
        "%\x00\n\\text\x7ba\x7d" .inline (.singleton "i\x00d" "f") =
        .ok ("<math class=\"x\"><semantics><mrow><mtext id=\"f\">a</mtext></mrow>" ++
          "<annotation encoding=\"application/x-tex\">\\text\x7ba\x7d</annotation>" ++
          "</semantics></math>") := by
    decide +kernel
  obtain ⟨_, hclear, _⟩ := isClear_conversion_iff
    { annotated := true, mathAttributes := .singleton "class" "x" }
    "%\x00\n\\text\x7ba\x7d" .inline _ hmath hattributes
  exact ⟨hattributes, hmarkup, (hclear _ hmarkup).mpr (by decide +kernel)⟩

/-- A null character that a text box hides comes out in the canonical text and in
the markup. -/
theorem conversion_of_hidden_null :
    ({} : Settings).canonicalText "\\text\x7b\\\x00\x7d" = .ok "\\text\x7b\\\x00\x7d" ∧
      ({} : Settings).markup "\\text\x7b\\\x00\x7d" .inline ∅ =
        .ok "<math><mtext>\\\x00</mtext></math>" := by
  constructor
  · decide +kernel
  · decide +kernel

end FormulaMarkup
