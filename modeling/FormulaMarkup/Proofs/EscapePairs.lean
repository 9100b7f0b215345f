import FormulaMarkup.Proofs.LegibleTokens
import FormulaMarkup.TextArguments
import Mathlib.Data.List.Chain

/-!
# What a backslash escapes in a text box

Where a text box is read, a backslash and the character after it are one pair,
whatever that character is, and the second backslash of a pair begins no other
pair.  So the content of a text box is a list of pairs and single characters.

Where the text box is shown, a backslash is looked at together with the
character after it, and the two are taken together only if the character is
escapable.  After two backslashes the readings differ: the second one belongs
to a pair, and yet it is dropped if the next character is escapable.  This is
the only difference.
-/

namespace FormulaMarkup

/-- What the content of a text box is made of. -/
inductive TextUnit where
  /-- A backslash and the character that it hides. -/
  | pair (hidden : Char)
  | single (c : Char)

/-- The units of a text, from left to right.  A backslash at the end is single. -/
def textUnits : List Char → List TextUnit
  | [] => []
  | ['\\'] => [.single '\\']
  | '\\' :: hidden :: rest => .pair hidden :: textUnits rest
  | c :: rest => .single c :: textUnits rest

namespace TextUnit

/-- How a unit is written. -/
def written : TextUnit → List Char
  | .pair hidden => ['\\', hidden]
  | .single c => [c]

/-- What a unit stands for: a pair is its escapable character, anything else
is itself. -/
def meant : TextUnit → List Char
  | .pair hidden => if isEscapable hidden then [hidden] else ['\\', hidden]
  | .single c => [c]

/-- Two backslashes and an escapable character, which no backslash hides. -/
inductive Misleads : TextUnit → TextUnit → Prop
  | escapable {c : Char} (hc : isEscapable c = true) : Misleads (.pair '\\') (.single c)

/-- What is shown for a unit, given the units after it. -/
def shown : TextUnit → List TextUnit → List Char
  | .pair '\\', .single c :: _ => if isEscapable c then ['\\'] else ['\\', '\\']
  | unit, _ => unit.meant

end TextUnit

def shownUnits : List TextUnit → List Char
  | [] => []
  | unit :: rest => unit.shown rest ++ shownUnits rest

/-- Nothing is lost between the units. -/
theorem flatMap_written_textUnits (cs : List Char) :
    (textUnits cs).flatMap TextUnit.written = cs := by
  fun_induction textUnits cs with
  | case1 => rfl
  | case2 => rfl
  | case3 hidden rest ih => simp [TextUnit.written, ih]
  | case4 c rest hlast hhidden ih => simp [TextUnit.written, ih]

/-! ## Reading a text box -/

/-- The braces among the single characters match, where the given number of them
is open at the beginning.  No single character is a null character or a backslash. -/
def UnitsClose : Nat → List TextUnit → Prop
  | depth, [] => depth = 0
  | depth, .pair _ :: rest => UnitsClose depth rest
  | depth, .single c :: rest =>
      c ≠ '\x00' ∧ c ≠ '\\' ∧ (c = '}' → 0 < depth) ∧
        UnitsClose (if c = '{' then depth + 1 else if c = '}' then depth - 1 else depth) rest

/-- A text box is read by its units: a brace ends it if the braces among its single
characters match. -/
theorem splitTextBox_eq_closed_iff (depth : Nat) (content suffix : List Char) :
    splitTextBox depth (content ++ '}' :: suffix) = (content, .closed, suffix) ↔
      UnitsClose depth (textUnits content) := by
  fun_induction textUnits content generalizing depth with
  | case1 =>
      by_cases hdepth : depth = 0
      · simp [splitTextBox_cons, UnitsClose, hdepth]
      · simp [splitTextBox_cons, UnitsClose, hdepth]
  | case2 => simp [splitTextBox, UnitsClose]
  | case3 hidden rest ih => simp [splitTextBox, UnitsClose, ← ih depth, Prod.ext_iff]
  | case4 c rest hlast hhidden ih =>
      have hslash := ne_backslash_of_cases hlast hhidden
      rw [List.cons_append, splitTextBox_cons hslash, UnitsClose, ← ih]
      by_cases hnul : c = '\x00'
      · simp [hnul]
      by_cases hclose : c = '}' ∧ depth = 0
      · simp [hclose.1, hclose.2]
      · have hopen : c = '}' → 0 < depth := by
          intro hc
          exact Nat.pos_of_ne_zero fun hdepth => hclose ⟨hc, hdepth⟩
        rw [if_neg hnul, if_neg hclose, and_iff_right hnul, and_iff_right hslash,
          and_iff_right hopen]
        simp [Prod.ext_iff]

/-! ## Showing a text box -/

theorem isEscapable_backslash : isEscapable '\\' = false := by decide

theorem ne_backslash_of_isEscapable {c : Char} (hc : isEscapable c = true) : c ≠ '\\' := by
  rintro rfl
  exact absurd hc (by simp [isEscapable_backslash])

theorem unescapeText_of_ne {c : Char} (hslash : c ≠ '\\') (rest : List Char) :
    unescapeText (c :: rest) = c :: unescapeText rest := by
  rw [unescapeText]
  exact fun _ _ h => absurd h hslash

/-- A backslash is dropped before an escapable character and stays otherwise. -/
theorem unescapeText_backslash (cs : List Char) :
    unescapeText ('\\' :: cs) =
      (if cs.head?.any isEscapable then [] else ['\\']) ++ unescapeText cs := by
  cases cs with
  | nil => rfl
  | cons c rest =>
      by_cases hc : isEscapable c = true
      · simp [unescapeText, hc, unescapeText_of_ne (ne_backslash_of_isEscapable hc)]
      · simp [unescapeText, hc]

theorem shown_pair_backslash (cs : List Char) :
    (TextUnit.pair '\\').shown (textUnits cs) =
      '\\' :: if cs.head?.any isEscapable then [] else ['\\'] := by
  fun_cases textUnits cs with
  | case1 => rfl
  | case2 => rfl
  | case3 hidden rest => rfl
  | case4 c rest hlast hhidden =>
      by_cases hc : isEscapable c = true
      · simp [TextUnit.shown, hc]
      · simp [TextUnit.shown, hc]

/-- The text box is shown by its units, where two backslashes before a single
escapable character are shown as one. -/
theorem unescapeText_eq_shownUnits (cs : List Char) :
    unescapeText cs = shownUnits (textUnits cs) := by
  fun_induction textUnits cs with
  | case1 => rfl
  | case2 => rfl
  | case3 hidden rest ih =>
      rw [unescapeText_backslash, shownUnits, ← ih]
      by_cases hslash : hidden = '\\'
      · subst hslash
        rw [unescapeText_backslash, shown_pair_backslash]
        rfl
      · have hmeant : (TextUnit.pair hidden).shown (textUnits rest) =
            (TextUnit.pair hidden).meant := by
          simp [TextUnit.shown, hslash]
        rw [hmeant, unescapeText_of_ne hslash, TextUnit.meant]
        by_cases hescapable : isEscapable hidden = true
        · simp [hescapable]
        · simp [hescapable]
  | case4 c rest hlast hhidden ih =>
      rw [unescapeText_of_ne (ne_backslash_of_cases hlast hhidden), ih]
      rfl

theorem TextUnit.shown_of_misleads {unit next : TextUnit} (hmisleads : unit.Misleads next)
    (rest : List TextUnit) :
    (unit.shown (next :: rest)).length < unit.meant.length := by
  cases hmisleads with
  | escapable hc => simp [shown, meant, hc, isEscapable_backslash]

theorem TextUnit.shown_eq_meant {unit : TextUnit} {units : List TextUnit}
    (hnext : ∀ next ∈ units.head?, ¬ unit.Misleads next) : unit.shown units = unit.meant := by
  fun_cases TextUnit.shown unit units with
  | case1 c rest hc => exact absurd (.escapable hc) (hnext _ rfl)
  | case2 c rest hc => rfl
  | case3 unit units hother => rfl

theorem length_shownUnits_le (units : List TextUnit) :
    (shownUnits units).length ≤ (units.flatMap TextUnit.meant).length := by
  induction units with
  | nil => exact Nat.le_refl _
  | cons unit rest ih =>
      have hunit : (unit.shown rest).length ≤ unit.meant.length := by
        by_cases hnext : ∀ next ∈ rest.head?, ¬ unit.Misleads next
        · exact (congrArg List.length (TextUnit.shown_eq_meant hnext)).le
        · simp only [not_forall, not_not] at hnext
          obtain ⟨next, hhead, hmisleads⟩ := hnext
          obtain ⟨others, rfl⟩ := List.head?_eq_some_iff.mp hhead
          exact (TextUnit.shown_of_misleads hmisleads others).le
      simp only [shownUnits, List.flatMap_cons, List.length_append]
      omega

/-- What is shown is what is meant if nothing misleads. -/
theorem shownUnits_eq_flatMap_meant_iff (units : List TextUnit) :
    shownUnits units = units.flatMap TextUnit.meant ↔
      units.IsChain fun unit next => ¬ unit.Misleads next := by
  induction units with
  | nil => simp [shownUnits]
  | cons unit rest ih =>
      rw [shownUnits, List.flatMap_cons, List.isChain_cons, ← ih]
      by_cases hnext : ∀ next ∈ rest.head?, ¬ unit.Misleads next
      · rw [TextUnit.shown_eq_meant hnext, List.append_cancel_left_eq, and_iff_right hnext]
      · -- A backslash is missing, and nothing after it makes up for that.
        refine iff_of_false ?_ fun hchain => hnext hchain.1
        simp only [not_forall, not_not] at hnext
        obtain ⟨next, hhead, hmisleads⟩ := hnext
        obtain ⟨others, rfl⟩ := List.head?_eq_some_iff.mp hhead
        have hshorter := TextUnit.shown_of_misleads hmisleads others
        have hrest := length_shownUnits_le (next :: others)
        intro hsame
        have hlength := congrArg List.length hsame
        simp only [List.length_append] at hlength
        omega

/-- The content of a text box is read by its units, and is shown as its units are
meant exactly if no two backslashes that are a pair stand before a single escapable
character.  Such a pair is shown as one backslash. -/
theorem unescapeText_eq_flatMap_meant_iff {formula content : String} {span : Span}
    (hbox : ⟨.rawText content, span⟩ ∈ tokenize formula) :
    (textUnits content.toList).flatMap TextUnit.written = content.toList ∧
      UnitsClose 0 (textUnits content.toList) ∧
      (unescapeText content.toList = (textUnits content.toList).flatMap TextUnit.meant ↔
        (textUnits content.toList).IsChain fun unit next => ¬ unit.Misleads next) ∧
      unescapeText content.toList = shownUnits (textUnits content.toList) := by
  have hread : Lexer.IsBoxContent content.toList := Lexer.isLegible_of_mem_lexemes hbox
  refine ⟨flatMap_written_textUnits _, ?_, ?_, unescapeText_eq_shownUnits _⟩
  · exact (splitTextBox_eq_closed_iff 0 content.toList []).mp (hread [])
  · rw [unescapeText_eq_shownUnits]
    exact shownUnits_eq_flatMap_meant_iff _

/-- Of three backslashes the last one escapes the space. -/
theorem unescapeText_eq_flatMap_meant_iff_three :
    ⟨.rawText "\\\\\\ x", ⟨5, 12⟩⟩ ∈ tokenize "\\text\x7b\\\\\\ x\x7d" ∧
      textUnits "\\\\\\ x".toList = [.pair '\\', .pair ' ', .single 'x'] ∧
      unescapeText "\\\\\\ x".toList = "\\\\ x".toList := by
  have hbox : ⟨.rawText "\\\\\\ x", ⟨5, 12⟩⟩ ∈ tokenize "\\text\x7b\\\\\\ x\x7d" := by
    decide +kernel
  obtain ⟨_, _, hmeant, _⟩ := unescapeText_eq_flatMap_meant_iff hbox
  have hunits : textUnits "\\\\\\ x".toList = [.pair '\\', .pair ' ', .single 'x'] := rfl
  have hchain : (textUnits "\\\\\\ x".toList).IsChain fun unit next => ¬ unit.Misleads next := by
    rw [hunits]
    refine .cons_cons ?_ (.cons_cons ?_ (.singleton _))
    · intro hmisleads
      cases hmisleads
    · intro hmisleads
      cases hmisleads
  refine ⟨hbox, hunits, (hmeant.mpr hchain).trans ?_⟩
  decide +kernel

/-- Two backslashes before a space: they are a pair, so the space is not escaped, and
yet one of them is not shown. -/
theorem unescapeText_of_two_backslashes :
    ⟨.rawText "a\\\\ b", ⟨5, 12⟩⟩ ∈ tokenize "\\text\x7ba\\\\ b\x7d" ∧
      unescapeText "a\\\\ b".toList = "a\\ b".toList ∧
      (textUnits "a\\\\ b".toList).flatMap TextUnit.meant = "a\\\\ b".toList := by
  refine ⟨?_, ?_, ?_⟩
  · decide +kernel
  · decide +kernel
  · decide +kernel

end FormulaMarkup
