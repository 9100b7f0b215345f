/-!
# Sets of characters given by ranges

Some classes of characters are too irregular for a rule and are given as data:
a list of ranges of code points, both ends included, in increasing order.
Because the list is ordered, the search for a code point may stop at the first
range that begins after it.
-/

namespace FormulaMarkup

abbrev CharacterRanges := List (Nat × Nat)

namespace CharacterRanges

def covers : CharacterRanges → Nat → Bool
  | [], _ => false
  | (first, last) :: rest, point =>
      if point < first then false
      else if point ≤ last then true
      else covers rest point

/-- Each range is non-empty and ends before the next one begins. -/
def increasing : CharacterRanges → Bool
  | [] => true
  | [(first, last)] => decide (first ≤ last)
  | (first, last) :: (next, finish) :: rest =>
      decide (first ≤ last) && decide (last < next) &&
        increasing ((next, finish) :: rest)

@[simp] theorem covers_nil (point : Nat) : covers [] point = false := rfl

theorem covers_cons (first last point : Nat) (rest : CharacterRanges) :
    covers ((first, last) :: rest) point =
      if point < first then false
      else if point ≤ last then true
      else covers rest point := rfl

theorem covers_cons_of_lt {first last point : Nat} {rest : CharacterRanges}
    (hbefore : point < first) : covers ((first, last) :: rest) point = false := by
  simp [covers_cons, hbefore]

theorem covers_cons_of_mem {first last point : Nat} {rest : CharacterRanges}
    (hfirst : first ≤ point) (hlast : point ≤ last) :
    covers ((first, last) :: rest) point = true := by
  simp [covers_cons, Nat.not_lt.mpr hfirst, hlast]

end CharacterRanges
end FormulaMarkup
