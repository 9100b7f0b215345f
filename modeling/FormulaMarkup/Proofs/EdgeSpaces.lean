import FormulaMarkup.TextArguments

/-!
# Spaces at the edges of a text

A text is either made of spaces alone, or it has a core that neither begins nor
ends with a space, with spaces on both sides of it.  In the first case the
spaces at its front are also those at its end, and they are replaced only once.
In both cases the characters stay in their places: those with nothing but spaces
before them, or nothing but spaces after them, become no-break spaces, and all
others are kept.
-/

namespace FormulaMarkup

/-- Whether a place belongs to the spaces at the front, so that there are only
spaces up to it, or to those at the end, so that there are only spaces from it. -/
def AtEdge (cs : List Char) (index : Nat) : Prop :=
  (∀ c ∈ cs.take (index + 1), c = ' ') ∨ ∀ c ∈ cs.drop index, c = ' '

instance (cs : List Char) (index : Nat) : Decidable (AtEdge cs index) :=
  inferInstanceAs (Decidable (_ ∨ _))

/-- A text with a character that is no space at either end. -/
structure IsCore (core : List Char) : Prop where
  first : ∃ c ∈ core.head?, c ≠ ' '
  last : ∃ c ∈ core.getLast?, c ≠ ' '

def spaces (count : Nat) : List Char := List.replicate count ' '

@[simp] theorem length_spaces (count : Nat) : (spaces count).length = count :=
  List.length_replicate

theorem eq_of_mem_spaces {c : Char} {count : Nat} (hc : c ∈ spaces count) : c = ' ' :=
  List.eq_of_mem_replicate hc

theorem byteLength_spaces (count : Nat) : byteLength (spaces count) = count := by
  induction count with
  | zero => rfl
  | succ count ih =>
      have hspace : ' '.utf8Size = 1 := by decide
      rw [spaces, List.replicate_succ, byteLength_cons, hspace]
      rw [spaces] at ih
      omega

/-! ## Dropping spaces -/

theorem dropWhile_spaces_append (count : Nat) (cs : List Char) :
    (spaces count ++ cs).dropWhile isSpace = cs.dropWhile isSpace := by
  apply List.dropWhile_append_of_pos
  intro c hc
  rw [eq_of_mem_spaces hc]
  rfl

theorem dropWhile_spaces (count : Nat) : (spaces count).dropWhile isSpace = [] := by
  simpa using dropWhile_spaces_append count []

theorem dropWhile_of_head {cs : List Char} (hfirst : ∃ c ∈ cs.head?, c ≠ ' ') :
    cs.dropWhile isSpace = cs := by
  obtain ⟨c, hc, hspace⟩ := hfirst
  obtain ⟨rest, rfl⟩ := List.head?_eq_some_iff.mp hc
  have hkept : isSpace c = false := by simpa [isSpace] using hspace
  rw [List.dropWhile_cons, hkept]
  rfl

theorem reverse_spaces (count : Nat) : (spaces count).reverse = spaces count :=
  List.reverse_replicate

/-- What is dropped at the end does not matter to what stands before it. -/
theorem dropTrailingSpaces_append_spaces {cs : List Char} (hlast : ∃ c ∈ cs.getLast?, c ≠ ' ')
    (count : Nat) : dropTrailingSpaces (cs ++ spaces count) = cs := by
  rw [← List.head?_reverse] at hlast
  rw [dropTrailingSpaces, List.reverse_append, reverse_spaces, dropWhile_spaces_append,
    dropWhile_of_head hlast, List.reverse_reverse]

theorem exists_spaces_dropWhile (cs : List Char) :
    ∃ count, cs = spaces count ++ cs.dropWhile isSpace := by
  refine ⟨(cs.takeWhile isSpace).length, ?_⟩
  have hspaces : cs.takeWhile isSpace = spaces (cs.takeWhile isSpace).length := by
    refine List.eq_replicate_of_mem fun c hc => ?_
    simpa [isSpace] using List.all_eq_true.mp List.all_takeWhile c hc
  rw [← hspaces]
  exact List.takeWhile_append_dropWhile.symm

theorem exists_dropTrailingSpaces (cs : List Char) :
    ∃ count, cs = dropTrailingSpaces cs ++ spaces count := by
  obtain ⟨count, hreverse⟩ := exists_spaces_dropWhile cs.reverse
  refine ⟨count, ?_⟩
  rw [← List.reverse_inj, List.reverse_append, dropTrailingSpaces, List.reverse_reverse,
    reverse_spaces]
  exact hreverse

theorem head_dropWhile_isSpace {cs : List Char} (hne : cs.dropWhile isSpace ≠ []) :
    ∃ c ∈ (cs.dropWhile isSpace).head?, c ≠ ' ' := by
  cases hrest : cs.dropWhile isSpace with
  | nil => exact absurd hrest hne
  | cons c rest =>
      have hkept := List.head_dropWhile_not isSpace hne
      simp only [hrest, List.head_cons] at hkept
      exact ⟨c, rfl, by simpa [isSpace] using hkept⟩

/-- Either there is nothing but spaces, or a core stands between them. -/
theorem eq_spaces_or_exists_core (cs : List Char) :
    (∃ count, cs = spaces count) ∨
      ∃ leading core trailing, IsCore core ∧ cs = spaces leading ++ (core ++ spaces trailing) := by
  obtain ⟨leading, hleading⟩ := exists_spaces_dropWhile cs
  by_cases hempty : cs.dropWhile isSpace = []
  · left
    exact ⟨leading, by rw [hleading, hempty, List.append_nil]⟩
  · right
    obtain ⟨c, hc, hspace⟩ := head_dropWhile_isSpace hempty
    generalize cs.dropWhile isSpace = body at hleading hc
    obtain ⟨trailing, htrailing⟩ := exists_dropTrailingSpaces body
    have hcore : body.reverse.dropWhile isSpace ≠ [] := by
      intro hnone
      have hspaces : body = spaces trailing := by
        rw [htrailing, dropTrailingSpaces, hnone]
        rfl
      rw [hspaces] at hc
      exact hspace (eq_of_mem_spaces (List.mem_of_mem_head? hc))
    obtain ⟨d, hd, hlast⟩ := head_dropWhile_isSpace hcore
    refine ⟨leading, dropTrailingSpaces body, trailing, ⟨⟨c, ?_, hspace⟩, ⟨d, ?_, hlast⟩⟩, ?_⟩
    · rw [htrailing, List.head?_append] at hc
      cases hhead : (dropTrailingSpaces body).head? with
      | none => simp [dropTrailingSpaces, hcore] at hhead
      | some first => rwa [hhead, Option.some_or] at hc
    · rw [dropTrailingSpaces, List.getLast?_reverse]
      exact hd
    · rw [← htrailing]
      exact hleading

/-! ## What is replaced -/

theorem protectEdgeSpaces_spaces (count : Nat) :
    protectEdgeSpaces (spaces count) = List.replicate count noBreakSpace := by
  simp [protectEdgeSpaces, dropWhile_spaces, dropTrailingSpaces, byteLength_spaces]

theorem protectEdgeSpaces_core {core : List Char} (hcore : IsCore core) (leading trailing : Nat) :
    protectEdgeSpaces (spaces leading ++ (core ++ spaces trailing)) =
      List.replicate leading noBreakSpace ++
        (core ++ List.replicate trailing noBreakSpace) := by
  have hne : core ≠ [] := by
    rintro rfl
    simpa using hcore.first
  have hfirst : ∃ c ∈ (core ++ spaces trailing).head?, c ≠ ' ' := by
    obtain ⟨c, hc, hspace⟩ := hcore.first
    exact ⟨c, by rw [List.head?_append, hc, Option.some_or]; rfl, hspace⟩
  have hlast : ∃ c ∈ (spaces leading ++ core).getLast?, c ≠ ' ' := by
    obtain ⟨c, hc, hspace⟩ := hcore.last
    exact ⟨c, by rw [List.getLast?_append, hc, Option.some_or]; rfl, hspace⟩
  have hfront : (spaces leading ++ (core ++ spaces trailing)).dropWhile isSpace =
      core ++ spaces trailing := by
    rw [dropWhile_spaces_append, dropWhile_of_head hfirst]
  have hend : dropTrailingSpaces (spaces leading ++ (core ++ spaces trailing)) =
      spaces leading ++ core := by
    rw [← List.append_assoc, dropTrailingSpaces_append_spaces hlast]
  have hleading : byteLength (spaces leading ++ (core ++ spaces trailing)) -
      byteLength (core ++ spaces trailing) = leading := by
    rw [byteLength_append, byteLength_spaces]
    omega
  have htrailing : byteLength (spaces leading ++ (core ++ spaces trailing)) -
      byteLength (spaces leading ++ core) = trailing := by
    simp only [byteLength_append, byteLength_spaces]
    omega
  simp only [protectEdgeSpaces, hfront, hend, dropTrailingSpaces_append_spaces hcore.last,
    hleading, htrailing, List.isEmpty_iff, hne, if_false, List.append_assoc]

theorem atEdge_spaces (count index : Nat) : AtEdge (spaces count) index :=
  .inl fun _ hc => eq_of_mem_spaces (List.mem_of_mem_take hc)

section Core

variable {core : List Char} {leading trailing index : Nat}

theorem atEdge_of_lt (hindex : index < leading) :
    AtEdge (spaces leading ++ (core ++ spaces trailing)) index := by
  left
  intro c hc
  rw [List.take_append_of_le_length (by rw [length_spaces]; omega)] at hc
  exact eq_of_mem_spaces (List.mem_of_mem_take hc)

theorem atEdge_of_le (hindex : leading + core.length ≤ index) :
    AtEdge (spaces leading ++ (core ++ spaces trailing)) index := by
  right
  intro c hc
  rw [← List.append_assoc, List.drop_append, List.drop_eq_nil_of_le (by simpa using hindex),
    List.nil_append] at hc
  exact eq_of_mem_spaces (List.mem_of_mem_drop hc)

/-- The first and the last character of the core stand on either side of each
place in it. -/
theorem not_atEdge_of_core (hcore : IsCore core) (hfront : leading ≤ index)
    (hend : index < leading + core.length) :
    ¬ AtEdge (spaces leading ++ (core ++ spaces trailing)) index := by
  rintro (hbefore | hafter)
  · obtain ⟨c, hc, hspace⟩ := hcore.first
    obtain ⟨rest, rfl⟩ := List.head?_eq_some_iff.mp hc
    refine hspace (hbefore c ?_)
    have hcount : index + 1 - leading = (index - leading) + 1 := by omega
    simp [List.take_append, hcount]
  · obtain ⟨c, hc, hspace⟩ := hcore.last
    refine hspace (hafter c ?_)
    have hlast : (core.drop (index - leading)).getLast? = core.getLast? := by
      rw [List.getLast?_drop, if_neg (by omega)]
    have hmem : c ∈ core.drop (index - leading) := List.mem_of_getLast? (hlast.trans hc)
    simp [List.drop_append, hmem]

end Core

/-- What is put at a place. -/
def protectedAt (cs : List Char) (index : Nat) (c : Char) : Char :=
  if AtEdge cs index then noBreakSpace else c

theorem protectedAt_of_atEdge {cs : List Char} {index : Nat} (hedge : AtEdge cs index) :
    protectedAt cs index = fun _ => noBreakSpace :=
  funext fun _ => if_pos hedge

theorem protectedAt_of_not_atEdge {cs : List Char} {index : Nat} (hinside : ¬ AtEdge cs index) :
    protectedAt cs index = id :=
  funext fun _ => if_neg hinside

theorem getElem?_protectEdgeSpaces (cs : List Char) (index : Nat) :
    (protectEdgeSpaces cs)[index]? = cs[index]?.map (protectedAt cs index) := by
  rcases eq_spaces_or_exists_core cs with ⟨count, rfl⟩ | ⟨leading, core, trailing, hcore, rfl⟩
  · rw [protectEdgeSpaces_spaces, protectedAt_of_atEdge (atEdge_spaces count index), spaces,
      List.getElem?_replicate, List.getElem?_replicate]
    split <;> rfl
  · rw [protectEdgeSpaces_core hcore]
    by_cases hfront : index < leading
    · rw [protectedAt_of_atEdge (atEdge_of_lt hfront)]
      simp [spaces, List.getElem?_append, hfront]
    · by_cases hend : index < leading + core.length
      · have hinside : index - leading < core.length := by omega
        rw [protectedAt_of_not_atEdge
          (not_atEdge_of_core hcore (Nat.le_of_not_lt hfront) hend)]
        simp [spaces, List.getElem?_append, hfront, hinside]
      · have hbehind : ¬ index - leading < core.length := by omega
        rw [protectedAt_of_atEdge (atEdge_of_le (Nat.le_of_not_lt hend))]
        simp only [spaces, List.getElem?_append, List.length_replicate, hfront, hbehind, if_false,
          List.getElem?_replicate]
        split <;> rfl

theorem length_protectEdgeSpaces (cs : List Char) : (protectEdgeSpaces cs).length = cs.length := by
  rcases eq_spaces_or_exists_core cs with ⟨count, rfl⟩ | ⟨leading, core, trailing, hcore, rfl⟩
  · rw [protectEdgeSpaces_spaces, List.length_replicate, length_spaces]
  · rw [protectEdgeSpaces_core hcore]
    simp

/-! ## The edges of the result -/

/-- A space in the result would be at an edge of the text, where it is replaced. -/
theorem not_atEdge_of_space {cs : List Char} {index : Nat}
    (hspace : (protectEdgeSpaces cs)[index]? = some ' ') :
    cs[index]? = some ' ' ∧ ¬ AtEdge cs index := by
  rw [getElem?_protectEdgeSpaces, Option.map_eq_some_iff] at hspace
  obtain ⟨c, hc, hkept⟩ := hspace
  by_cases hedge : AtEdge cs index
  · have hprotected : noBreakSpace ≠ ' ' := by decide
    rw [protectedAt_of_atEdge hedge] at hkept
    exact absurd hkept hprotected
  · rw [protectedAt_of_not_atEdge hedge] at hkept
    exact ⟨hkept ▸ hc, hedge⟩

theorem head?_protectEdgeSpaces (cs : List Char) : (protectEdgeSpaces cs).head? ≠ some ' ' := by
  intro hspace
  rw [List.head?_eq_getElem?] at hspace
  obtain ⟨hfirst, hinside⟩ := not_atEdge_of_space hspace
  refine hinside (.inl fun c hc => ?_)
  rw [← List.head?_eq_getElem?] at hfirst
  obtain ⟨rest, rfl⟩ := List.head?_eq_some_iff.mp hfirst
  simpa using hc

theorem getLast?_protectEdgeSpaces (cs : List Char) :
    (protectEdgeSpaces cs).getLast? ≠ some ' ' := by
  intro hspace
  rw [List.getLast?_eq_getElem?, length_protectEdgeSpaces] at hspace
  obtain ⟨hlast, hinside⟩ := not_atEdge_of_space hspace
  refine hinside (.inr fun c hc => ?_)
  rw [← List.getLast?_eq_getElem?] at hlast
  obtain ⟨lead, rfl⟩ := List.getLast?_eq_some_iff.mp hlast
  simpa using hc

theorem protectEdgeSpaces_eq_self {cs : List Char} (hfirst : cs.head? ≠ some ' ')
    (hlast : cs.getLast? ≠ some ' ') : protectEdgeSpaces cs = cs := by
  by_cases hempty : cs = []
  · subst hempty
    rfl
  · have hcore : IsCore cs := by
      constructor
      · exact ⟨cs.head hempty, List.head?_eq_some_head hempty, fun hspace =>
          hfirst (hspace ▸ List.head?_eq_some_head hempty)⟩
      · exact ⟨cs.getLast hempty, List.getLast?_eq_some_getLast hempty, fun hspace =>
          hlast (hspace ▸ List.getLast?_eq_some_getLast hempty)⟩
    simpa [spaces] using protectEdgeSpaces_core hcore 0 0

/-- Each character of a text stays in its place, the spaces at the edges as
no-break spaces and all others as they are.  Then no space is left at an edge,
and nothing is left to replace. -/
theorem protectEdgeSpaces_keeps_places (cs : List Char) :
    (protectEdgeSpaces cs).length = cs.length ∧
      (∀ index, (protectEdgeSpaces cs)[index]? =
        cs[index]?.map fun c => if AtEdge cs index then noBreakSpace else c) ∧
      (protectEdgeSpaces cs).head? ≠ some ' ' ∧ (protectEdgeSpaces cs).getLast? ≠ some ' ' ∧
      protectEdgeSpaces (protectEdgeSpaces cs) = protectEdgeSpaces cs :=
  ⟨length_protectEdgeSpaces cs, getElem?_protectEdgeSpaces cs, head?_protectEdgeSpaces cs,
    getLast?_protectEdgeSpaces cs,
    protectEdgeSpaces_eq_self (head?_protectEdgeSpaces cs) (getLast?_protectEdgeSpaces cs)⟩

end FormulaMarkup
