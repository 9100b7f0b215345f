import FormulaMarkup.Proofs.MarkupGrammar

/-!
# Entities read back

A reader of markup takes entities from left to right and puts the characters in
their places that they stand for.  What was escaped comes back in this way,
whatever it was: an ampersand is always escaped itself, so that a text which
looks like an entity is not taken for one.
-/

namespace FormulaMarkup

/-- The characters that entities stand for.  An ampersand that begins none of
these entities is left alone. -/
def decodeEntities : List Char → List Char
  | '&' :: 'a' :: 'm' :: 'p' :: ';' :: rest => '&' :: decodeEntities rest
  | '&' :: 'l' :: 't' :: ';' :: rest => '<' :: decodeEntities rest
  | '&' :: 'g' :: 't' :: ';' :: rest => '>' :: decodeEntities rest
  | '&' :: 'q' :: 'u' :: 'o' :: 't' :: ';' :: rest => '\x22' :: decodeEntities rest
  | '&' :: '#' :: '3' :: '9' :: ';' :: rest => '\x27' :: decodeEntities rest
  | c :: rest => c :: decodeEntities rest
  | [] => []

theorem decodeEntities_cons {c : Char} (hplain : c ≠ '&') (rest : List Char) :
    decodeEntities (c :: rest) = c :: decodeEntities rest := by
  rw [decodeEntities]
  all_goals exact fun _ hentity => absurd hentity hplain

/-- A way to write single characters from which they are read back, whatever
comes after them. -/
def ReadsBack (write : Char → String) : Prop :=
  ∀ c rest, decodeEntities ((write c).toList ++ rest) = c :: decodeEntities rest

theorem ReadsBack.decodeEntities_join {write : Char → String} (hwrite : ReadsBack write)
    (text : List Char) : decodeEntities (String.join (text.map write)).toList = text := by
  induction text with
  | nil => rfl
  | cons c rest ih => rw [List.map_cons, String.join_cons, String.toList_append, hwrite, ih]

theorem readsBack_textEntity : ReadsBack textEntity := by
  intro c rest
  unfold textEntity
  split
  · rfl
  · rfl
  · rfl
  · next hampersand _ _ =>
      rw [Char.toString_eq_singleton, String.toList_singleton]
      exact decodeEntities_cons hampersand rest

theorem readsBack_valueEntity : ReadsBack valueEntity := by
  intro c rest
  unfold valueEntity
  split
  · rfl
  · rfl
  · rfl
  · rfl
  · rfl
  · next hampersand _ _ _ _ =>
      rw [Char.toString_eq_singleton, String.toList_singleton]
      exact decodeEntities_cons hampersand rest

theorem decodeEntities_escapeText (text : String) :
    decodeEntities (escapeText text).toList = text.toList := by
  rw [escapeText, appendText_eq, String.empty_append]
  exact readsBack_textEntity.decodeEntities_join text.toList

theorem decodeEntities_escapeValue (value : String) :
    decodeEntities (escapeValue value).toList = value.toList := by
  rw [escapeValue, appendValue_eq, String.empty_append]
  exact readsBack_valueEntity.decodeEntities_join value.toList

/-- What can be decoded has not been confused with anything else. -/
theorem injective_of_decodeEntities {escape : String → String}
    (hescape : ∀ text, decodeEntities (escape text).toList = text.toList) :
    Function.Injective escape := by
  intro first second hsame
  rw [← String.toList_inj, ← hescape first, ← hescape second, hsame]

/-- A text and an attribute value are escaped character by character, behind
whatever has been written.  The search for the characters of a text among its
bytes always finds places where it can be cut.  None of the characters that are
escaped is left but the ampersands of entities, and the entities can be read
back. -/
theorem escaping_is_faithful (output text : String) :
    appendText output text = output ++ String.join (text.toList.map textEntity) ∧
      appendValue output text = output ++ String.join (text.toList.map valueEntity) ∧
      (∀ rest, markOffset? rest = (rest.flatMap String.utf8EncodeChar).findIdx? isMarkByte ∧
        (markOffset? rest = none ∨ ∃ offset before mark tail,
          markOffset? rest = some offset ∧ cutAt? offset rest = some (before, mark :: tail) ∧
          cutAt? 1 (mark :: tail) = some ([mark], tail))) ∧
      (∀ c ∈ (escapeText text).toList, c ∉ ['<', '>']) ∧
      (∀ c ∈ (escapeValue text).toList, c ∉ ['\x22', '\x27', '<', '>']) ∧
      decodeEntities (escapeText text).toList = text.toList ∧
      decodeEntities (escapeValue text).toList = text.toList ∧
      Function.Injective escapeText ∧ Function.Injective escapeValue := by
  refine ⟨appendText_eq output text, appendValue_eq output text, ?_,
    (isTextContent_escapeText text).clean, (isAttributeValue_escapeValue text).clean,
    decodeEntities_escapeText text, decodeEntities_escapeValue text,
    injective_of_decodeEntities decodeEntities_escapeText,
    injective_of_decodeEntities decodeEntities_escapeValue⟩
  intro rest
  refine ⟨markOffset?_eq_findIdx? rest, ?_⟩
  cases hoffset : markOffset? rest with
  | none => exact .inl rfl
  | some offset =>
      obtain ⟨before, mark, tail, hcut, hsingle, _⟩ := cutAt?_of_markOffset? hoffset
      exact .inr ⟨offset, before, mark, tail, rfl, hcut, hsingle⟩

end FormulaMarkup
