import FormulaMarkup.Proofs.AttributeTargets
import FormulaMarkup.Proofs.FilledPlaces
import Mathlib.Data.List.Nodup

/-!
# The names of written attributes

The attributes of an element have distinct names, but this is not enough for
the names in a start tag to be distinct: of a name only the usable characters
are written, and two names may have the same ones.  The names in the start tags
of a text are read off the text here.  They are distinct exactly if no two names
of an element come out the same; for a formula it is enough that no name of the
caller's choosing comes out as another one, or as one that elements bring along.
-/

namespace FormulaMarkup

/-- The attribute names of a start tag. -/
def Dictionary.writtenNames (attributes : Attributes) : List String :=
  (attributes.names.map usableName).filter (· ≠ "")

/-- Different names, if anything of them can be used, come out as different names. -/
def NamesApart (names : List String) : Prop :=
  ∀ first ∈ names, ∀ second ∈ names,
    usableName first = usableName second → usableName first ≠ "" → first = second

instance (names : List String) : Decidable (NamesApart names) :=
  inferInstanceAs (Decidable (∀ _ ∈ _, ∀ _ ∈ _, _ → _ → _))

theorem NamesApart.mono {names others : List String} (hapart : NamesApart names)
    (hsubset : others ⊆ names) : NamesApart others :=
  fun first hfirst second hsecond => hapart first (hsubset hfirst) second (hsubset hsecond)

theorem namesApart_singleton (name : String) : NamesApart [name] := by
  intro first hfirst second hsecond _ _
  rw [List.mem_singleton.mp hfirst, List.mem_singleton.mp hsecond]

theorem Dictionary.nodup_writtenNames_iff (attributes : Attributes) :
    attributes.writtenNames.Nodup ↔ NamesApart attributes.names := by
  have hdistinct : attributes.names.Nodup := attributes.distinct
  rw [writtenNames, List.Nodup, List.pairwise_filter, List.pairwise_map]
  simp only [decide_eq_true_eq]
  constructor
  · intro hpairwise first hfirst second hsecond hsame hne
    by_contra hdiffer
    have hsymmetric : Std.Symm fun first second =>
        usableName first ≠ "" → usableName second ≠ "" → usableName first ≠ usableName second :=
      ⟨fun _ _ h hsecond hfirst hsame => h hfirst hsecond hsame.symm⟩
    exact hpairwise.forall hfirst hsecond hdiffer hne (hsame ▸ hne) hsame
  · intro hapart
    refine hdistinct.pairwise_of_forall_ne ?_
    intro first hfirst second hsecond hdiffer hne _ hsame
    exact hdiffer (hapart first hfirst second hsecond hsame hne)

/-! ## Reading names -/

/-- Where a reader of start tags is, and what it has read of the tag. -/
inductive TagPlace where
  | content
  /-- After an angle bracket. -/
  | opened
  | endTag
  | startTag (names : List String)
  /-- In the name of an attribute. -/
  | name (names : List String) (read : List Char)
  /-- In the value of an attribute, before or after the first quote. -/
  | value (names : List String) (quoted : Bool)

/-- For each start tag, from a place on, the names of its attributes. -/
def startTagNames : TagPlace → List Char → List (List String)
  | _, [] => []
  | .content, c :: rest => startTagNames (if c = '<' then .opened else .content) rest
  | .opened, c :: rest => startTagNames (if c = '/' then .endTag else .startTag []) rest
  | .endTag, c :: rest => startTagNames (if c = '>' then .content else .endTag) rest
  | .startTag names, c :: rest =>
      if c = '>' then names :: startTagNames .content rest
      else startTagNames (if c = ' ' then .name names [] else .startTag names) rest
  | .name names read, c :: rest =>
      startTagNames
        (if c = '=' then .value (names ++ [String.ofList read]) false
          else .name names (read ++ [c])) rest
  | .value names quoted, c :: rest =>
      startTagNames
        (if c = '\x22' then (if quoted then .startTag names else .value names true)
          else .value names quoted) rest

/-- Characters that do not change the place of the reader are passed over. -/
theorem startTagNames_append_of_stay {place : TagPlace} {text : List Char}
    (hstay : ∀ c ∈ text, ∀ rest, startTagNames place (c :: rest) = startTagNames place rest)
    (rest : List Char) : startTagNames place (text ++ rest) = startTagNames place rest := by
  induction text with
  | nil => rfl
  | cons c others ih =>
      rw [List.forall_mem_cons] at hstay
      rw [List.cons_append, hstay.1, ih hstay.2]

theorem startTagNames_name {names : List String} {text read : List Char} (htext : '=' ∉ text)
    (rest : List Char) :
    startTagNames (.name names read) (text ++ rest) =
      startTagNames (.name names (read ++ text)) rest := by
  induction text generalizing read with
  | nil => simp
  | cons c others ih =>
      rw [List.mem_cons, not_or] at htext
      rw [List.cons_append, startTagNames, if_neg (Ne.symm htext.1), ih htext.2,
        List.append_assoc, List.singleton_append]

theorem startTagNames_attributeText (names : List String) (name value : String)
    (rest : List Char) :
    startTagNames (.startTag names) ((Written.attributeText name value).toList ++ rest) =
      startTagNames (.startTag (names ++ [usableName name].filter (· ≠ ""))) rest := by
  by_cases hempty : usableName name = ""
  · simp [Written.attributeText, hempty]
  · have hname : '=' ∉ (usableName name).toList := by
      intro hmem
      exact absurd ((isAttributeName_usableName hempty).2 _ hmem) (by decide)
    have hvalue : ∀ c ∈ (escapeValue value).toList, ∀ rest,
        startTagNames (.value (names ++ [usableName name]) true) (c :: rest) =
          startTagNames (.value (names ++ [usableName name]) true) rest := by
      intro c hmem rest
      have hquote : c ≠ '\x22' := by
        rintro rfl
        exact (isAttributeValue_escapeValue value).clean _ hmem (by simp)
      rw [startTagNames, if_neg hquote]
    have htext : (Written.attributeText name value).toList ++ rest =
        ' ' :: ((usableName name).toList ++
          '=' :: '\x22' :: ((escapeValue value).toList ++ '\x22' :: rest)) := by
      simp [Written.attributeText, hempty]
    rw [htext, startTagNames, if_neg (by decide), if_pos rfl, startTagNames_name hname,
      startTagNames, if_pos rfl, startTagNames, if_pos rfl, List.nil_append, String.ofList_toList]
    simp only [Bool.false_eq_true, if_false]
    rw [startTagNames_append_of_stay hvalue, startTagNames, if_pos rfl, if_pos rfl]
    simp [hempty]

theorem startTagNames_attributes (names : List String) (entries : List (String × String))
    (rest : List Char) :
    startTagNames (.startTag names)
        ((String.join (entries.map fun entry => Written.attributeText entry.1 entry.2)).toList ++
          rest) =
      startTagNames
        (.startTag (names ++ ((entries.map Prod.fst).map usableName).filter (· ≠ ""))) rest := by
  induction entries generalizing names with
  | nil => simp
  | cons entry others ih =>
      rw [List.map_cons, String.join_cons, String.toList_append, List.append_assoc,
        startTagNames_attributeText, ih, List.append_assoc, ← List.filter_append]
      rfl

theorem Tag.exists_name_cons (tag : Tag) :
    ∃ c others, tag.name.toList = c :: others ∧ c ≠ '/' := by
  cases tag with
  | text tag => cases tag <;> exact ⟨_, _, rfl, by decide⟩
  | layout tag => cases tag <;> exact ⟨_, _, rfl, by decide⟩

theorem startTagNames_startTag (tag : Tag) (attributes : Attributes) (rest : List Char) :
    startTagNames .content ((Written.startTag tag attributes).toList ++ rest) =
      attributes.writtenNames :: startTagNames .content rest := by
  obtain ⟨c, others, hname, hslash⟩ := tag.exists_name_cons
  obtain ⟨hclose, hblank⟩ := tag.name_clean
  rw [hname] at hclose hblank
  have hstay : ∀ d ∈ others, ∀ rest,
      startTagNames (.startTag []) (d :: rest) = startTagNames (.startTag []) rest := by
    intro d hmem rest
    have hd : d ≠ '>' ∧ d ≠ ' ' := by
      constructor
      all_goals
        rintro rfl
        simp_all
    rw [startTagNames, if_neg hd.1, if_neg hd.2]
  have htext : (Written.startTag tag attributes).toList ++ rest =
      '<' :: c :: (others ++
        ((String.join
          (attributes.entries.map fun entry => Written.attributeText entry.1 entry.2)).toList ++
            '>' :: rest)) := by
    simp [Written.startTag, hname]
  rw [htext, startTagNames, if_pos rfl, startTagNames, if_neg hslash,
    startTagNames_append_of_stay hstay, startTagNames_attributes, startTagNames, if_pos rfl]
  rfl

theorem startTagNames_endTag (tag : Tag) (rest : List Char) :
    startTagNames .content ((Written.endTag tag).toList ++ rest) = startTagNames .content rest := by
  have hstay : ∀ c ∈ tag.name.toList, ∀ rest,
      startTagNames .endTag (c :: rest) = startTagNames .endTag rest := by
    intro c hmem rest
    have hclose : c ≠ '>' := by
      rintro rfl
      exact tag.name_clean.1 hmem
    rw [startTagNames, if_neg hclose]
  have htext : (Written.endTag tag).toList ++ rest =
      '<' :: '/' :: (tag.name.toList ++ '>' :: rest) := by
    simp [Written.endTag]
  rw [htext, startTagNames, if_pos rfl, startTagNames, if_pos rfl,
    startTagNames_append_of_stay hstay, startTagNames, if_pos rfl]

theorem startTagNames_escapeText (text : String) (rest : List Char) :
    startTagNames .content ((escapeText text).toList ++ rest) = startTagNames .content rest := by
  apply startTagNames_append_of_stay
  intro c hmem rest
  have hopen : c ≠ '<' := by
    rintro rfl
    exact (isTextContent_escapeText text).clean _ hmem (by simp)
  rw [startTagNames, if_neg hopen]

mutual

theorem Element.startTagNames_write (element : Element) (rest : List Char) :
    startTagNames .content (element.write.toList ++ rest) =
      element.withInner.map (·.attributes.writtenNames) ++ startTagNames .content rest := by
  match element with
  | .text tag attributes content =>
      rw [write_text, Written.leaf, Written.enclose, withInner_text]
      simp only [String.toList_append, List.append_assoc]
      rw [startTagNames_startTag, startTagNames_escapeText, startTagNames_endTag]
      rfl
  | .layout tag attributes children =>
      rw [write_layout, Written.enclose, withInner_layout]
      simp only [String.toList_append, List.append_assoc]
      rw [startTagNames_startTag, startTagNames_writeElements, startTagNames_endTag]
      rfl

/-- The start tags of written elements have the names of the attributes of the
elements, one element after the other. -/
theorem startTagNames_writeElements (elements : List Element) (rest : List Char) :
    startTagNames .content ((writeElements elements).toList ++ rest) =
      (allElements elements).map (·.attributes.writtenNames) ++ startTagNames .content rest := by
  match elements with
  | [] => simp
  | element :: others =>
      rw [writeElements_cons, String.toList_append, List.append_assoc,
        element.startTagNames_write, startTagNames_writeElements others]
      simp

end

/-! ## Markup -/

theorem Dictionary.IsFrom.namesApart {given : Attributes} {allowed : List String}
    {attributes : Attributes} (hfrom : attributes.IsFrom given.entries allowed)
    (hapart : NamesApart (allowed ++ given.names)) : NamesApart attributes.names := by
  apply hapart.mono
  intro name hmem
  exact List.mem_append.mpr (hfrom.mem_of_mem_names hmem).symm

/-- The names in a start tag are distinct exactly if no two names of its attributes
come out the same, and so it is for all start tags of written elements.  In the
markup of a formula this holds of all of them if it holds of the names that are
given for the `math` element and of those that are given for its content, each
together with the names that elements bring along. -/
theorem nodup_startTagNames (tag : Tag) (attributes : Attributes) (elements : List Element)
    (settings : Settings) (formula : String) (display : Display) :
    (startTagNames .content (Written.startTag tag attributes).toList =
        [attributes.writtenNames] ∧
      (attributes.writtenNames.Nodup ↔ NamesApart attributes.names)) ∧
    ((∀ names ∈ startTagNames .content (writeElements elements).toList, names.Nodup) ↔
      ∀ element ∈ allElements elements, NamesApart element.attributes.names) ∧
    ∀ output, settings.markup formula display attributes = .ok output →
      NamesApart (outerNames ++ settings.mathAttributes.names) →
      NamesApart (ownAttributeNames ++ attributes.names) →
      ∀ names ∈ startTagNames .content output.toList, names.Nodup := by
  have hwritten (elements : List Element) :
      (∀ names ∈ startTagNames .content (writeElements elements).toList, names.Nodup) ↔
        ∀ element ∈ allElements elements, NamesApart element.attributes.names := by
    have hread := startTagNames_writeElements elements []
    rw [List.append_nil] at hread
    simp [hread, startTagNames, Dictionary.nodup_writtenNames_iff]
  refine ⟨⟨?_, attributes.nodup_writtenNames_iff⟩, hwritten elements, ?_⟩
  · have hread := startTagNames_startTag tag attributes []
    simpa [startTagNames] using hread
  · intro output hmarkup houter hinner
    obtain ⟨tree, laid, hparse, hlayout, rfl⟩ := Settings.markup_eq_ok_iff.mp hmarkup
    have hfrom := (laid_of_parseFormula hparse hlayout).attributedFrom (List.Subset.refl _)
    rw [← writeElements_singleton]
    refine (hwritten _).mpr ?_
    intro element hmem
    rcases Settings.attributes_of_mem_mathElement hmem with hmath | hnone | hnote | hlaid
    · rw [hmath]
      exact (settings.isFrom_outerAttributes display).namesApart houter
    · rw [hnone]
      exact nofun
    · rw [hnote]
      exact namesApart_singleton "encoding"
    · apply (hfrom element hlaid).namesApart
      apply hinner.mono
      exact List.append_subset.mpr
        ⟨fun _ hown => List.mem_append_left _ (element.ownNames_subset hown),
          List.subset_append_right _ _⟩

/-- A name that an element brings along may be given, and a name may have unusable
characters. -/
theorem nodup_startTagNames_capital :
    ({} : Settings).markup "\\Gamma" .inline
        (.ofList [("mathvariant", "bold"), ("data x", "1"), ("?", "2")]) =
        .ok "<math><mi mathvariant=\"bold\" datax=\"1\">Γ</mi></math>" ∧
      ∀ names ∈ startTagNames .content
          "<math><mi mathvariant=\"bold\" datax=\"1\">Γ</mi></math>".toList, names.Nodup := by
  have hmarkup : ({} : Settings).markup "\\Gamma" .inline
      (.ofList [("mathvariant", "bold"), ("data x", "1"), ("?", "2")]) =
      .ok "<math><mi mathvariant=\"bold\" datax=\"1\">Γ</mi></math>" := by
    decide +kernel
  obtain ⟨_, _, hnames⟩ := nodup_startTagNames (.layout .math)
    (.ofList [("mathvariant", "bold"), ("data x", "1"), ("?", "2")]) [] {} "\\Gamma" .inline
  exact ⟨hmarkup, hnames _ hmarkup (by decide +kernel) (by decide +kernel)⟩

/-- Two names that differ in a blank are written as the same name. -/
theorem startTag_repeated_name :
    Written.startTag (.text .identifier) (.ofList [("k", "1"), ("k ", "2")]) =
        "<mi k=\"1\" k=\"2\">" ∧
      startTagNames .content "<mi k=\"1\" k=\"2\">".toList = [["k", "k"]] := by
  constructor
  · decide +kernel
  · decide +kernel

end FormulaMarkup
