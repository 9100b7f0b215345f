/-!
# Dictionaries in insertion order

A dictionary maps names to values and remembers the order in which the names
came in.  Writing to a name that is present replaces its value in place;
writing to a new name puts it at the end.  No name occurs twice, and the type
carries the proof: every operation here keeps it.

Merging writes the entries of the second dictionary into the first, one after
the other, so that the second one decides on the values and the first one on
the order of what they share.
-/

namespace FormulaMarkup

/-- Writes one entry into a list of entries. -/
def writeEntry {α : Type} (name : String) (value : α) :
    List (String × α) → List (String × α)
  | [] => [(name, value)]
  | (other, current) :: rest =>
      if other = name then (other, value) :: rest
      else (other, current) :: writeEntry name value rest

theorem map_fst_writeEntry {α : Type} (name : String) (value : α)
    (entries : List (String × α)) :
    (writeEntry name value entries).map Prod.fst =
      if name ∈ entries.map Prod.fst then entries.map Prod.fst
      else entries.map Prod.fst ++ [name] := by
  induction entries with
  | nil => simp [writeEntry]
  | cons entry rest ih =>
      obtain ⟨other, current⟩ := entry
      by_cases hname : other = name
      · simp [writeEntry, hname]
      · have hne : name ≠ other := fun h => hname h.symm
        simp only [writeEntry, hname, if_false, List.map_cons, ih, List.mem_cons, hne, false_or]
        split <;> simp

theorem nodup_writeEntry {α : Type} {name : String} {value : α}
    {entries : List (String × α)} (hdistinct : (entries.map Prod.fst).Nodup) :
    ((writeEntry name value entries).map Prod.fst).Nodup := by
  rw [map_fst_writeEntry]
  split
  · exact hdistinct
  · next hnew =>
      rw [List.nodup_append]
      refine ⟨hdistinct, by simp, ?_⟩
      intro other hother last hlast
      rw [List.mem_singleton] at hlast
      subst hlast
      exact fun h => hnew (h ▸ hother)

theorem lookup_cons_eq {α : Type} (name other : String) (value : α)
    (entries : List (String × α)) :
    ((name, value) :: entries).lookup other =
      if other = name then some value else entries.lookup other := by
  by_cases hname : other = name
  · simp [hname]
  · have hdiffers : (other == name) = false := by simpa using hname
    rw [List.lookup_cons, hdiffers, if_neg hname]

theorem lookup_eq_none_of_not_mem {α : Type} {name : String} {entries : List (String × α)}
    (hnew : name ∉ entries.map Prod.fst) : entries.lookup name = none := by
  rw [List.lookup_eq_none_iff]
  intro entry hentry
  rw [bne_iff_ne]
  rintro rfl
  exact hnew (List.mem_map_of_mem hentry)

structure Dictionary (α : Type) where
  entries : List (String × α)
  distinct : (entries.map Prod.fst).Nodup

namespace Dictionary

variable {α : Type}

theorem ext {first second : Dictionary α} (h : first.entries = second.entries) :
    first = second := by
  cases first
  cases second
  cases h
  rfl

instance [DecidableEq α] : DecidableEq (Dictionary α) := fun first second =>
  decidable_of_iff (first.entries = second.entries) ⟨ext, fun h => h ▸ rfl⟩

def empty : Dictionary α := ⟨[], List.nodup_nil⟩

instance : EmptyCollection (Dictionary α) := ⟨empty⟩

instance : Inhabited (Dictionary α) := ⟨empty⟩

def names (dictionary : Dictionary α) : List String := dictionary.entries.map Prod.fst

def size (dictionary : Dictionary α) : Nat := dictionary.entries.length

def isEmpty (dictionary : Dictionary α) : Bool := dictionary.entries.isEmpty

def get? (dictionary : Dictionary α) (name : String) : Option α :=
  dictionary.entries.lookup name

def insert (dictionary : Dictionary α) (name : String) (value : α) : Dictionary α :=
  ⟨writeEntry name value dictionary.entries, nodup_writeEntry dictionary.distinct⟩

/-- Writes the entries in order. -/
def insertAll (dictionary : Dictionary α) (entries : List (String × α)) : Dictionary α :=
  entries.foldl (fun current entry => current.insert entry.1 entry.2) dictionary

/-- A repeated name keeps its first place and its last value. -/
def ofList (entries : List (String × α)) : Dictionary α := empty.insertAll entries

/-- The second dictionary overrides the values of the first. -/
def merge (dictionary overrides : Dictionary α) : Dictionary α :=
  dictionary.insertAll overrides.entries

def singleton (name : String) (value : α) : Dictionary α := ⟨[(name, value)], by simp⟩

@[simp] theorem entries_empty : (∅ : Dictionary α).entries = [] := rfl

@[simp] theorem entries_insert (dictionary : Dictionary α) (name : String) (value : α) :
    (dictionary.insert name value).entries = writeEntry name value dictionary.entries := rfl

@[simp] theorem insertAll_nil (dictionary : Dictionary α) :
    dictionary.insertAll [] = dictionary := rfl

@[simp] theorem insertAll_cons (dictionary : Dictionary α) (entry : String × α)
    (rest : List (String × α)) :
    dictionary.insertAll (entry :: rest) =
      (dictionary.insert entry.1 entry.2).insertAll rest := rfl

@[simp] theorem names_empty : (∅ : Dictionary α).names = [] := rfl

@[simp] theorem get?_empty (name : String) : (∅ : Dictionary α).get? name = none := rfl

theorem get?_eq_none_of_not_mem {dictionary : Dictionary α} {name : String}
    (hname : name ∉ dictionary.names) : dictionary.get? name = none :=
  lookup_eq_none_of_not_mem hname

end Dictionary

/-- The attributes of an element: names and values, in the order in which they are written. -/
abbrev Attributes := Dictionary String

end FormulaMarkup
