import FormulaMarkup.Dictionaries

/-!
# Merged dictionaries

A dictionary is determined by its names, in their order, and by the value of
each name.  Merging is given by what it does to these two: the names of the
first dictionary come first, then those that only the second one has, and the
second one decides on the values.  The laws of merging follow from this, among
them that three dictionaries can be merged from either side.
-/

namespace FormulaMarkup

variable {α : Type}

/-! ## Lists of entries -/

/-- Writes entries into a list of entries, one after the other. -/
def writeEntries (written entries : List (String × α)) : List (String × α) :=
  written.foldl (fun current entry => writeEntry entry.1 entry.2 current) entries

/-- The lists of entries that come about by writing: from nothing, from any
pairs, by one more entry, and by merging.  Nothing is said about their names. -/
inductive AttainedEntries : List (String × α) → Prop
  | empty : AttainedEntries []
  | ofPairs (pairs : List (String × α)) : AttainedEntries (writeEntries pairs [])
  | insert {entries : List (String × α)} (name : String) (value : α)
      (hentries : AttainedEntries entries) : AttainedEntries (writeEntry name value entries)
  | merge {entries overrides : List (String × α)} (hentries : AttainedEntries entries)
      (hoverrides : AttainedEntries overrides) : AttainedEntries (writeEntries overrides entries)

theorem nodup_writeEntries (written : List (String × α)) {entries : List (String × α)}
    (hdistinct : (entries.map Prod.fst).Nodup) :
    ((writeEntries written entries).map Prod.fst).Nodup := by
  induction written generalizing entries with
  | nil => exact hdistinct
  | cons entry rest ih => exact ih (nodup_writeEntry hdistinct)

theorem AttainedEntries.nodup {entries : List (String × α)} (hentries : AttainedEntries entries) :
    (entries.map Prod.fst).Nodup := by
  induction hentries with
  | empty => exact List.nodup_nil
  | ofPairs pairs => exact nodup_writeEntries pairs List.nodup_nil
  | insert name value _ ih => exact nodup_writeEntry ih
  | merge _ _ ih _ => exact nodup_writeEntries _ ih

theorem lookup_writeEntry (name other : String) (value : α) (entries : List (String × α)) :
    (writeEntry name value entries).lookup other =
      if other = name then some value else entries.lookup other := by
  induction entries with
  | nil => rw [writeEntry, lookup_cons_eq]
  | cons entry rest ih =>
      obtain ⟨first, current⟩ := entry
      rw [writeEntry, lookup_cons_eq]
      by_cases hfirst : first = name
      · subst hfirst
        rw [if_pos rfl, lookup_cons_eq]
        split <;> rfl
      · rw [if_neg hfirst, lookup_cons_eq, ih]
        by_cases hother : other = first
        · subst hother
          rw [if_pos rfl, if_pos rfl, if_neg hfirst]
        · rw [if_neg hother, if_neg hother]

/-- Names that are distinct and the value of each of them make up the list. -/
theorem eq_of_names_of_lookup {first second : List (String × α)}
    (hnames : first.map Prod.fst = second.map Prod.fst) (hdistinct : (first.map Prod.fst).Nodup)
    (hlookup : ∀ name, first.lookup name = second.lookup name) : first = second := by
  induction first generalizing second with
  | nil => simpa using hnames
  | cons entry rest ih =>
      obtain ⟨name, value⟩ := entry
      cases second with
      | nil => simp at hnames
      | cons other others =>
          obtain ⟨same, changed⟩ := other
          simp only [List.map_cons, List.cons.injEq] at hnames
          obtain ⟨rfl, hothers⟩ := hnames
          simp only [List.map_cons, List.nodup_cons] at hdistinct
          obtain ⟨hnew, hrest⟩ := hdistinct
          simp only [lookup_cons_eq] at hlookup
          have hvalue : value = changed := by simpa using hlookup name
          have htail : rest = others := by
            refine ih hothers hrest fun key => ?_
            by_cases hkey : key = name
            · subst hkey
              rw [lookup_eq_none_of_not_mem hnew, lookup_eq_none_of_not_mem (hothers ▸ hnew)]
            · simpa [hkey] using hlookup key
          rw [hvalue, htail]

namespace Dictionary

/-! ## Names and values -/

theorem ext_of_names_of_get? {first second : Dictionary α} (hnames : first.names = second.names)
    (hvalues : ∀ name, first.get? name = second.get? name) : first = second :=
  ext (eq_of_names_of_lookup hnames first.distinct hvalues)

theorem names_insert (dictionary : Dictionary α) (name : String) (value : α) :
    (dictionary.insert name value).names =
      if name ∈ dictionary.names then dictionary.names else dictionary.names ++ [name] :=
  map_fst_writeEntry name value dictionary.entries

theorem get?_insert (dictionary : Dictionary α) (name other : String) (value : α) :
    (dictionary.insert name value).get? other =
      if other = name then some value else dictionary.get? other :=
  lookup_writeEntry name other value dictionary.entries

theorem entries_insertAll (dictionary : Dictionary α) (written : List (String × α)) :
    (dictionary.insertAll written).entries = writeEntries written dictionary.entries := by
  induction written generalizing dictionary with
  | nil => rfl
  | cons entry rest ih => exact ih (dictionary.insert entry.1 entry.2)

/-- Distinct names go to the end in their order, as far as they are new. -/
theorem names_insertAll (dictionary : Dictionary α) {written : List (String × α)}
    (hdistinct : (written.map Prod.fst).Nodup) :
    (dictionary.insertAll written).names =
      dictionary.names ++ (written.map Prod.fst).filter (· ∉ dictionary.names) := by
  induction written generalizing dictionary with
  | nil => simp
  | cons entry rest ih =>
      obtain ⟨name, value⟩ := entry
      simp only [List.map_cons, List.nodup_cons] at hdistinct
      obtain ⟨hnew, hrest⟩ := hdistinct
      rw [insertAll_cons, ih _ hrest, names_insert, List.map_cons, List.filter_cons]
      by_cases hmem : name ∈ dictionary.names
      · simp [hmem]
      · rw [if_neg hmem]
        -- The name itself does not come again among the later ones.
        have hlater : (rest.map Prod.fst).filter (· ∉ dictionary.names ++ [name]) =
            (rest.map Prod.fst).filter (· ∉ dictionary.names) := by
          refine List.filter_congr fun other hother => ?_
          have hne : other ≠ name := fun hsame => hnew (hsame ▸ hother)
          simp [hne]
        rw [hlater]
        simp [hmem]

theorem get?_insertAll (dictionary : Dictionary α) {written : List (String × α)}
    (hdistinct : (written.map Prod.fst).Nodup) (name : String) :
    (dictionary.insertAll written).get? name =
      (written.lookup name).or (dictionary.get? name) := by
  induction written generalizing dictionary with
  | nil => simp
  | cons entry rest ih =>
      obtain ⟨first, value⟩ := entry
      simp only [List.map_cons, List.nodup_cons] at hdistinct
      obtain ⟨hnew, hrest⟩ := hdistinct
      rw [insertAll_cons, ih _ hrest, get?_insert, lookup_cons_eq]
      by_cases hname : name = first
      · subst hname
        simp [lookup_eq_none_of_not_mem hnew]
      · simp [hname]

/-! ## Merging -/

theorem names_merge (first second : Dictionary α) :
    (first.merge second).names = first.names ++ second.names.filter (· ∉ first.names) :=
  first.names_insertAll second.distinct

theorem get?_merge (first second : Dictionary α) (name : String) :
    (first.merge second).get? name = (second.get? name).or (first.get? name) :=
  first.get?_insertAll second.distinct name

theorem merge_empty (dictionary : Dictionary α) : dictionary.merge ∅ = dictionary := rfl

theorem empty_merge (dictionary : Dictionary α) :
    (∅ : Dictionary α).merge dictionary = dictionary := by
  apply ext_of_names_of_get?
  · simp [names_merge]
  · simp [get?_merge]

theorem merge_self (dictionary : Dictionary α) : dictionary.merge dictionary = dictionary := by
  apply ext_of_names_of_get?
  · simp [names_merge]
  · simp [get?_merge]

/-- The places agree since a name is new to the first two dictionaries exactly
if it is new to the first and to the second one. -/
theorem merge_assoc (first second third : Dictionary α) :
    (first.merge second).merge third = first.merge (second.merge third) := by
  apply ext_of_names_of_get?
  · have hnew : third.names.filter (· ∉ first.names ++ second.names.filter (· ∉ first.names)) =
        (third.names.filter (· ∉ second.names)).filter (· ∉ first.names) := by
      rw [List.filter_filter]
      refine List.filter_congr fun name _ => ?_
      by_cases hfirst : name ∈ first.names <;> simp [hfirst]
    simp only [names_merge, hnew, List.filter_append, List.append_assoc]
  · intro name
    simp only [get?_merge, Option.or_assoc]

/-- A list of entries without a repeated name is written as it stands. -/
theorem writeEntries_nil_of_nodup {entries : List (String × α)}
    (hdistinct : (entries.map Prod.fst).Nodup) : writeEntries entries [] = entries := by
  have hmerge := congrArg Dictionary.entries (empty_merge ⟨entries, hdistinct⟩)
  rwa [merge, entries_insertAll] at hmerge

end Dictionary

theorem attainedEntries_iff {entries : List (String × α)} :
    AttainedEntries entries ↔ (entries.map Prod.fst).Nodup := by
  refine ⟨AttainedEntries.nodup, fun hdistinct => ?_⟩
  rw [← Dictionary.writeEntries_nil_of_nodup hdistinct]
  exact .ofPairs entries

/-- Whatever is written, in whatever order, no name occurs twice, so that the
lists of entries that can come about are those of the dictionaries.  Merging is
associative, has the empty dictionary as its unit on either side and changes
nothing if a dictionary is merged with itself: the first dictionary decides on
the places and the second one on the values. -/
theorem dictionary_merge_laws :
    (∀ entries : List (String × α), AttainedEntries entries ↔ (entries.map Prod.fst).Nodup) ∧
      (∀ pairs : List (String × α), (Dictionary.ofList pairs).entries = writeEntries pairs []) ∧
      ∀ first second third : Dictionary α,
        (first.merge second).entries = writeEntries second.entries first.entries ∧
          (∀ name,
            (first.merge second).get? name = (second.get? name).or (first.get? name)) ∧
          (first.merge second).names = first.names ++ second.names.filter (· ∉ first.names) ∧
          first.merge ∅ = first ∧ (∅ : Dictionary α).merge first = first ∧
          first.merge first = first ∧
          (first.merge second).merge third = first.merge (second.merge third) := by
  refine ⟨fun _ => attainedEntries_iff, Dictionary.empty.entries_insertAll, ?_⟩
  intro first second third
  exact ⟨first.entries_insertAll second.entries, first.get?_merge second,
    first.names_merge second, first.merge_empty, first.empty_merge, first.merge_self,
    first.merge_assoc second third⟩

end FormulaMarkup
