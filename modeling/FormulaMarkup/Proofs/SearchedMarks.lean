import FormulaMarkup.MarkupEscaping

/-!
# Characters found by their bytes

The characters of markup are searched for among bytes, and the text is cut at
the offsets that are found.  This is safe since none of the three bytes occurs
in the UTF-8 form of another character: an offset that is found lies where a
character of markup begins, so that the text can be cut before and behind it.
What is written is therefore the same as if every character had been looked at.
-/

namespace FormulaMarkup

/-- What is written for a character of a text. -/
def textEntity : Char → String
  | '&' => "&amp;"
  | '<' => "&lt;"
  | '>' => "&gt;"
  | c => c.toString

def isMark (c : Char) : Bool := c == '&' || c == '<' || c == '>'

/-! ## Bytes of characters -/

theorem isMarkByte_ofNat_iff {code : Nat} (hcode : code < 256) :
    isMarkByte (UInt8.ofNat code) = true ↔ code = 38 ∨ code = 60 ∨ code = 62 := by
  have hbyte (byte : Nat) (hsmall : byte < 256) :
      UInt8.ofNat code = UInt8.ofNat byte ↔ code = byte := by
    rw [← UInt8.toNat_inj, UInt8.toNat_ofNat_of_lt' hcode, UInt8.toNat_ofNat_of_lt' hsmall]
  simp only [isMarkByte, Bool.or_eq_true, beq_iff_eq, or_assoc]
  exact or_congr (hbyte 38 (by omega)) (or_congr (hbyte 60 (by omega)) (hbyte 62 (by omega)))

theorem isMark_iff_toNat (c : Char) :
    isMark c = true ↔ c.toNat = 38 ∨ c.toNat = 60 ∨ c.toNat = 62 := by
  simp only [isMark, Bool.or_eq_true, beq_iff_eq, or_assoc, ← Char.toNat_inj]
  rfl

theorem isMarkByte_ofNat_eq_false {code : Nat} (hlarge : 128 ≤ code) (hcode : code < 256) :
    isMarkByte (UInt8.ofNat code) = false := by
  rw [← Bool.not_eq_true, isMarkByte_ofNat_iff hcode]
  omega

/-- A character of more than one byte has no byte of ASCII. -/
theorem isMarkByte_of_mem_utf8EncodeChar {c : Char} (hlarge : 128 ≤ c.toNat) :
    ∀ byte ∈ String.utf8EncodeChar c, isMarkByte byte = false := by
  fun_cases String.utf8EncodeChar c with
  | case1 v hascii =>
      have hvalue : v = c.toNat := rfl
      omega
  | case2 v =>
      simp only [List.forall_mem_cons, List.not_mem_nil, false_imp_iff, implies_true, and_true]
      exact ⟨isMarkByte_ofNat_eq_false (by omega) (by omega),
        isMarkByte_ofNat_eq_false (by omega) (by omega)⟩
  | case3 v =>
      simp only [List.forall_mem_cons, List.not_mem_nil, false_imp_iff, implies_true, and_true]
      exact ⟨isMarkByte_ofNat_eq_false (by omega) (by omega),
        isMarkByte_ofNat_eq_false (by omega) (by omega),
        isMarkByte_ofNat_eq_false (by omega) (by omega)⟩
  | case4 v =>
      simp only [List.forall_mem_cons, List.not_mem_nil, false_imp_iff, implies_true, and_true]
      exact ⟨isMarkByte_ofNat_eq_false (by omega) (by omega),
        isMarkByte_ofNat_eq_false (by omega) (by omega),
        isMarkByte_ofNat_eq_false (by omega) (by omega),
        isMarkByte_ofNat_eq_false (by omega) (by omega)⟩

theorem findIdx?_utf8EncodeChar (c : Char) :
    (String.utf8EncodeChar c).findIdx? isMarkByte = if isMark c then some 0 else none := by
  have hmark := isMark_iff_toNat c
  by_cases hlarge : 128 ≤ c.toNat
  · have hother : isMark c = false := by
      rw [← Bool.not_eq_true, hmark]
      omega
    rw [hother, List.findIdx?_eq_none_iff.mpr (isMarkByte_of_mem_utf8EncodeChar hlarge)]
    rfl
  · have hsmall : c.val.toNat ≤ 127 := Nat.le_of_lt_succ (Nat.lt_of_not_le hlarge)
    have hbyte : isMarkByte (UInt8.ofNat c.val.toNat) = isMark c := by
      rw [Bool.eq_iff_iff, hmark, isMarkByte_ofNat_iff (by omega)]
      rfl
    simp only [String.utf8EncodeChar, hsmall, if_true, List.findIdx?_cons, hbyte, List.findIdx?_nil,
      Option.map_none]

theorem markOffset?_cons (c : Char) (rest : List Char) :
    markOffset? (c :: rest) =
      if isMark c then some 0 else (markOffset? rest).map (· + c.utf8Size) := by
  rw [markOffset?, findIdx?_utf8EncodeChar]
  cases isMark c <;> rfl

/-- The characters are searched in the same way as the bytes of the whole text. -/
theorem markOffset?_eq_findIdx? (text : List Char) :
    markOffset? text = (text.flatMap String.utf8EncodeChar).findIdx? isMarkByte := by
  induction text with
  | nil => rfl
  | cons c rest ih =>
      rw [markOffset?_cons, List.flatMap_cons, List.findIdx?_append, findIdx?_utf8EncodeChar, ih,
        String.length_utf8EncodeChar]
      split <;> rfl

/-! ## Offsets of marks -/

theorem isMark_eq_false_of_markOffset? {text : List Char} (hnone : markOffset? text = none) :
    ∀ c ∈ text, isMark c = false := by
  induction text with
  | nil => simp
  | cons c rest ih =>
      rw [markOffset?_cons] at hnone
      split at hnone
      · cases hnone
      · next hmark =>
          rw [Option.map_eq_none_iff] at hnone
          exact List.forall_mem_cons.mpr ⟨Bool.not_eq_true _ ▸ hmark, ih hnone⟩

/-- The offset that is found is the place of the first mark. -/
theorem exists_mark_of_markOffset? {text : List Char} {offset : Nat}
    (hoffset : markOffset? text = some offset) :
    ∃ before mark tail, text = before ++ mark :: tail ∧ byteLength before = offset ∧
      isMark mark = true ∧ ∀ c ∈ before, isMark c = false := by
  induction text generalizing offset with
  | nil => cases hoffset
  | cons c rest ih =>
      rw [markOffset?_cons] at hoffset
      split at hoffset
      · next hmark =>
          cases hoffset
          exact ⟨[], c, rest, rfl, rfl, hmark, by simp⟩
      · next hmark =>
          obtain ⟨later, hlater, rfl⟩ := Option.map_eq_some_iff.mp hoffset
          obtain ⟨before, mark, tail, rfl, rfl, hfound, hbefore⟩ := ih hlater
          refine ⟨c :: before, mark, tail, rfl, Nat.add_comm _ _, hfound, ?_⟩
          exact List.forall_mem_cons.mpr ⟨Bool.not_eq_true _ ▸ hmark, hbefore⟩

theorem utf8Size_of_isMark {mark : Char} (hmark : isMark mark = true) : mark.utf8Size = 1 := by
  simp only [isMark, Bool.or_eq_true, beq_iff_eq, or_assoc] at hmark
  rcases hmark with rfl | rfl | rfl <;> decide

/-- Wherever a byte is found, the text can be cut before and behind it. -/
theorem cutAt?_of_markOffset? {text : List Char} {offset : Nat}
    (hoffset : markOffset? text = some offset) :
    ∃ before mark tail, cutAt? offset text = some (before, mark :: tail) ∧
      cutAt? 1 (mark :: tail) = some ([mark], tail) ∧
      isMark mark = true ∧ ∀ c ∈ before, isMark c = false := by
  obtain ⟨before, mark, tail, rfl, rfl, hmark, hbefore⟩ := exists_mark_of_markOffset? hoffset
  have hsize : byteLength [mark] = 1 := by
    rw [byteLength_cons, utf8Size_of_isMark hmark, byteLength_nil]
  exact ⟨before, mark, tail, cutAt?_append before _, hsize ▸ cutAt?_append [mark] tail, hmark,
    hbefore⟩

/-! ## The written text -/

theorem markEntity_of_isMark {mark : Char} (hmark : isMark mark = true) :
    markEntity [mark] = textEntity mark := by
  simp only [isMark, Bool.or_eq_true, beq_iff_eq, or_assoc] at hmark
  rcases hmark with rfl | rfl | rfl <;> rfl

theorem textEntity_of_not_isMark {c : Char} (hplain : isMark c = false) :
    textEntity c = c.toString := by
  unfold textEntity
  split
  · exact absurd hplain (by decide)
  · exact absurd hplain (by decide)
  · exact absurd hplain (by decide)
  · rfl

theorem join_textEntity_of_plain {text : List Char} (hplain : ∀ c ∈ text, isMark c = false) :
    String.join (text.map textEntity) = String.ofList text := by
  induction text with
  | nil => rfl
  | cons c rest ih =>
      obtain ⟨hc, hrest⟩ := List.forall_mem_cons.mp hplain
      rw [List.map_cons, String.join_cons, ih hrest, textEntity_of_not_isMark hc,
        String.ofList_cons]
      rfl

/-- The search writes what each character stands for.  Its two ways out are never
taken: where a mark is found, the text can be cut. -/
theorem appendRest_eq (output : String) (rest : List Char) :
    appendRest output rest = output ++ String.join (rest.map textEntity) := by
  fun_induction appendRest output rest with
  | case1 output rest hnone =>
      rw [join_textEntity_of_plain (isMark_eq_false_of_markOffset? hnone)]
  | case2 output rest offset hoffset hcut =>
      obtain ⟨before, mark, tail, hfound, _⟩ := cutAt?_of_markOffset? hoffset
      rw [hfound] at hcut
      cases hcut
  | case3 output rest offset hoffset before after hcut hmark =>
      obtain ⟨_, mark, tail, hfound, hsingle, _⟩ := cutAt?_of_markOffset? hoffset
      rw [hfound] at hcut
      cases hcut
      rw [hsingle] at hmark
      cases hmark
  | case4 output rest offset hoffset before after hcut mark tail hmark ih =>
      obtain ⟨_, sign, _, hfound, hsingle, hsign, hbefore⟩ := cutAt?_of_markOffset? hoffset
      rw [hfound] at hcut
      cases hcut
      rw [hsingle] at hmark
      cases hmark
      rw [ih, (eq_append_of_cutAt? hfound).1, List.map_append, List.map_cons, String.join_append,
        String.join_cons, join_textEntity_of_plain hbefore, markEntity_of_isMark hsign]
      simp only [String.append_assoc]

theorem appendText_eq (output text : String) :
    appendText output text = output ++ String.join (text.toList.map textEntity) :=
  appendRest_eq output text.toList

theorem foldl_append_eq_join (write : Char → String) (text : List Char) (output : String) :
    text.foldl (fun written c => written ++ write c) output =
      output ++ String.join (text.map write) := by
  induction text generalizing output with
  | nil => simp
  | cons c rest ih => rw [List.foldl_cons, ih, List.map_cons, String.join_cons, String.append_assoc]

theorem appendValue_eq (output value : String) :
    appendValue output value = output ++ String.join (value.toList.map valueEntity) :=
  foldl_append_eq_join valueEntity value.toList output

end FormulaMarkup
