/-!
# Byte spans

Places in a formula are given by byte offsets into its UTF-8 form, while the
formula itself is read character by character.  The offset of a place is the
byte length of the characters before it, so a span is computed from lengths
and never by indexing into bytes.  The other way round, a text can be cut at a
byte offset only where a character ends.
-/

namespace FormulaMarkup

structure Span where
  start : Nat
  stop : Nat
deriving Repr, DecidableEq, Inhabited

namespace Span

/-- The empty span at a position. -/
def zeroWidth (position : Nat) : Span := ⟨position, position⟩

/-- The span with the same start and the given length. -/
def withLength (span : Span) (length : Nat) : Span := ⟨span.start, span.start + length⟩

@[simp] theorem start_withLength (span : Span) (length : Nat) :
    (span.withLength length).start = span.start := rfl

@[simp] theorem stop_withLength (span : Span) (length : Nat) :
    (span.withLength length).stop = span.start + length := rfl

end Span

/-- The number of bytes of the UTF-8 form. -/
def byteLength : List Char → Nat
  | [] => 0
  | c :: rest => c.utf8Size + byteLength rest

@[simp] theorem byteLength_nil : byteLength [] = 0 := rfl

@[simp] theorem byteLength_cons (c : Char) (rest : List Char) :
    byteLength (c :: rest) = c.utf8Size + byteLength rest := rfl

@[simp] theorem byteLength_append (first second : List Char) :
    byteLength (first ++ second) = byteLength first + byteLength second := by
  induction first with
  | nil => simp
  | cons c rest ih => simp [ih, Nat.add_assoc]

theorem byteLength_pos {cs : List Char} (hne : cs ≠ []) : 0 < byteLength cs := by
  cases cs with
  | nil => exact absurd rfl hne
  | cons c rest => simpa using Nat.lt_of_lt_of_le c.utf8Size_pos (Nat.le_add_right _ _)

theorem length_le_byteLength (cs : List Char) : cs.length ≤ byteLength cs := by
  induction cs with
  | nil => simp
  | cons c rest ih =>
      have hpos := c.utf8Size_pos
      simp only [List.length_cons, byteLength_cons]
      omega

/-- A suffix of a character list determines the list before it by its byte
length: two ways to cut one list at the same byte offset are the same cut. -/
theorem append_inj_of_byteLength {before before' after after' : List Char}
    (htext : before ++ after = before' ++ after')
    (hlength : byteLength before = byteLength before') :
    before = before' ∧ after = after' := by
  induction before generalizing before' with
  | nil =>
      cases before' with
      | nil => exact ⟨rfl, htext⟩
      | cons c rest =>
          have hpos := byteLength_pos (List.cons_ne_nil c rest)
          rw [byteLength_nil] at hlength
          omega
  | cons c rest ih =>
      cases before' with
      | nil =>
          have hpos := byteLength_pos (List.cons_ne_nil c rest)
          rw [byteLength_nil] at hlength
          omega
      | cons d rest' =>
          simp only [List.cons_append, List.cons.injEq] at htext
          obtain ⟨rfl, htail⟩ := htext
          simp only [byteLength_cons, Nat.add_left_cancel_iff] at hlength
          obtain ⟨rfl, hafter⟩ := ih htail hlength
          exact ⟨rfl, hafter⟩

/-- Cuts a text at a byte offset, which may lie neither inside a character nor
behind the end. -/
def cutAt? : Nat → List Char → Option (List Char × List Char)
  | 0, cs => some ([], cs)
  | _ + 1, [] => none
  | offset + 1, c :: rest =>
      if c.utf8Size ≤ offset + 1 then
        (cutAt? (offset + 1 - c.utf8Size) rest).map fun parts => (c :: parts.1, parts.2)
      else none

theorem cutAt?_append (before after : List Char) :
    cutAt? (byteLength before) (before ++ after) = some (before, after) := by
  induction before with
  | nil =>
      rw [byteLength_nil, cutAt?]
      rfl
  | cons c rest ih =>
      have hpos := c.utf8Size_pos
      obtain ⟨offset, hoffset⟩ : ∃ offset, byteLength (c :: rest) = offset + 1 :=
        Nat.exists_eq_add_one.mpr (byteLength_pos (List.cons_ne_nil c rest))
      have hrest : offset + 1 - c.utf8Size = byteLength rest := by
        rw [← hoffset, byteLength_cons]
        omega
      have hfits : c.utf8Size ≤ offset + 1 := by
        rw [← hoffset, byteLength_cons]
        omega
      rw [hoffset, List.cons_append, cutAt?, if_pos hfits, hrest, ih]
      rfl

theorem eq_append_of_cutAt? {offset : Nat} {cs before after : List Char}
    (hcut : cutAt? offset cs = some (before, after)) :
    cs = before ++ after ∧ byteLength before = offset := by
  fun_induction cutAt? offset cs generalizing before with
  | case1 cs =>
      cases hcut
      exact ⟨rfl, rfl⟩
  | case2 offset => cases hcut
  | case3 offset c rest hfits ih =>
      obtain ⟨parts, hparts, hwhole⟩ := Option.map_eq_some_iff.mp hcut
      cases hwhole
      obtain ⟨hrest, hlength⟩ := ih hparts
      refine ⟨by rw [List.cons_append, ← hrest], ?_⟩
      rw [byteLength_cons, hlength]
      omega
  | case4 offset c rest hlarge => cases hcut

end FormulaMarkup
