import FormulaMarkup.Proofs.ErrorPlaces

/-!
# Two readings compared

Two runs of the parser are compared step by step.  They go over lists of
lexemes that agree from the front up to a place from which on the first list
has only loose lexemes, and they may be given different depths; chemical
notation may be allowed to the second one only.  The second run then follows
the first one: it has the same value or the same error, unless the first run is
past the place where the lists agree, or its error is excused.

A comparison says which lexemes are loose and which errors are excused.  An
error about a loose lexeme must be, so a run over loose lexemes can only
succeed or end in an excused error.
-/

namespace FormulaMarkup

/-- What counts as a difference between two readings. -/
structure Comparison where
  first : ReadingRules
  second : ReadingRules
  /-- Lexemes that the second list need not have. -/
  Loose : Lexeme → Prop
  /-- Errors that the second reading need not have. -/
  Excused : FormulaError → Prop
  excused_of_raises : ∀ {lexeme error}, Loose lexeme → lexeme.Raises error → Excused error
  chemistry : second.chemistry = first.chemistry ∨
    first.chemistry = false ∧ ∀ span, Excused ⟨span, .chemistryDisabled⟩

namespace Comparison

variable {c : Comparison} {input other : List Lexeme} {α : Type}

/-- Nothing but loose lexemes are left, and the end is loose as well. -/
def Beyond (c : Comparison) (input : List Lexeme) : Prop :=
  ∀ lexeme, c.first.Meets input lexeme → c.Loose lexeme

theorem Beyond.of_suffix {rest : List Lexeme} (hbeyond : c.Beyond input) (hrest : rest <:+ input) :
    c.Beyond rest :=
  fun lexeme hmeets => hbeyond lexeme (hmeets.of_suffix hrest)

/-- The lists agree up to a place that is beyond. -/
inductive Alike (c : Comparison) : List Lexeme → List Lexeme → Prop
  | beyond {input other : List Lexeme} (hbeyond : c.Beyond input) : Alike c input other
  | finish (hend : c.second.finish = c.first.finish) : Alike c [] []
  | next (lexeme : Lexeme) {input other : List Lexeme} (hrest : Alike c input other) :
      Alike c (lexeme :: input) (lexeme :: other)

/-- The second reading has what the first one has. -/
inductive Follows (c : Comparison) {α : Type} : Reading α → Reading α → Prop
  | excused {error : FormulaError} {reading : Reading α} (herror : c.Excused error) :
      Follows c (.error error) reading
  | beyond {value : α} {rest : List Lexeme} {reading : Reading α} (hrest : c.Beyond rest) :
      Follows c (.ok (value, rest)) reading
  | failure (error : FormulaError) : Follows c (.error error) (.error error)
  | success {value : α} {rest after : List Lexeme} (hrest : c.Alike rest after) :
      Follows c (.ok (value, rest)) (.ok (value, after))

theorem follows_of_beyond {reading follower : Reading α}
    (hreading : ReadFrom c.first input reading) (hbeyond : c.Beyond input) :
    c.Follows reading follower := by
  cases hreading with
  | success hrest => exact .beyond (hbeyond.of_suffix hrest.suffix)
  | failure hrest hraises => exact .excused (c.excused_of_raises (hbeyond _ hrest.meets) hraises)

/-- The end of the formula is at the same place for both. -/
theorem follows_end (hend : c.second.finish = c.first.finish) (cause : Cause) :
    c.Follows (.error ⟨.zeroWidth c.first.finish, cause⟩ : Reading α)
      (.error ⟨.zeroWidth c.second.finish, cause⟩) := by
  rw [hend]
  exact .failure _

theorem Follows.andThen {β : Type} {reading following : Reading α}
    {next nextFollowing : α → List Lexeme → Reading β} (hfollows : c.Follows reading following)
    (hlocal : ∀ value rest, ReadFrom c.first rest (next value rest))
    (hnext : ∀ {value rest after}, reading = .ok (value, rest) → c.Alike rest after →
      c.Follows (next value rest) (nextFollowing value after)) :
    c.Follows (reading.andThen next) (following.andThen nextFollowing) := by
  cases hfollows with
  | excused herror => exact .excused herror
  | beyond hrest => exact follows_of_beyond (hlocal _ _) hrest
  | failure error => exact .failure error
  | success hrest => exact hnext rfl hrest

theorem Follows.map {β : Type} {reading following : Reading α} (f : α → β)
    (hfollows : c.Follows reading following) :
    c.Follows (reading.andThen fun value rest => .ok (f value, rest))
      (following.andThen fun value rest => .ok (f value, rest)) := by
  apply hfollows.andThen
  · intro value rest
    exact .stay
  · intro value rest after _ hafter
    exact .success hafter

/-! ## Readings on one level -/

/-- The second parser follows the first one. -/
structure Parsers (c : Comparison) (parser follower : NodeParser) : Prop where
  isLocal : parser.IsLocal c.first
  follows : ∀ {input other}, c.Alike input other → c.Follows (parser.run input) (follower.run other)

section Level

variable {primary follower : NodeParser} (hprimary : c.Parsers primary follower)

include hprimary

theorem follows_readArgument (halike : c.Alike input other) :
    c.Follows (readArgument c.first primary input) (readArgument c.second follower other) := by
  cases halike with
  | beyond hbeyond => exact follows_of_beyond (readFrom_readArgument hprimary.isLocal input) hbeyond
  | finish hend => exact follows_end hend _
  | next lexeme hrest =>
      obtain ⟨token, span⟩ := lexeme
      cases token with
      | script | endOfInput | closeBrace | ending | nextCell | nextRow => exact .failure _
      | _ => exact hprimary.follows (.next _ hrest)

theorem follows_readScripts (allowed : Nat) (base : Node) (halike : c.Alike input other) :
    c.Follows (readScripts c.first primary allowed base input)
      (readScripts c.second follower allowed base other) := by
  induction allowed generalizing base input other with
  | zero =>
      cases halike with
      | beyond hbeyond =>
          exact follows_of_beyond (readFrom_readScripts hprimary.isLocal 0 base input) hbeyond
      | finish hend => exact .success (.finish hend)
      | next lexeme hrest =>
          obtain ⟨token, span⟩ := lexeme
          cases token with
          | script side => exact .failure _
          | _ => exact .success (.next _ hrest)
  | succ fewer ih =>
      cases halike with
      | beyond hbeyond =>
          exact follows_of_beyond (readFrom_readScripts hprimary.isLocal _ base input) hbeyond
      | finish hend => exact .success (.finish hend)
      | next lexeme hrest =>
          obtain ⟨token, span⟩ := lexeme
          cases token with
          | script side =>
              rw [readScripts_cons_script, readScripts_cons_script]
              apply (follows_readArgument hprimary hrest).andThen
              · intro attached after
                exact readFrom_readScripts hprimary.isLocal _ _ _
              · intro attached after _ _ hafter
                exact ih _ hafter
          | _ => exact .success (.next _ hrest)

theorem follows_base (halike : c.Alike input other) :
    c.Follows ((primary.run input).andThen (readScripts c.first primary nestingLimit))
      ((follower.run other).andThen (readScripts c.second follower nestingLimit)) := by
  apply (hprimary.follows halike).andThen
  · exact readFrom_readScripts hprimary.isLocal nestingLimit
  · intro base rest after _ hafter
    exact follows_readScripts hprimary _ _ hafter

theorem follows_readItem (halike : c.Alike input other) :
    c.Follows (readItem c.first primary input) (readItem c.second follower other) := by
  cases halike with
  | beyond hbeyond => exact follows_of_beyond (readFrom_readItem hprimary.isLocal input) hbeyond
  | finish hend =>
      rw [readItem_of_not_script c.first primary [] (by simp [ReadingRules.peek]),
        readItem_of_not_script c.second follower [] (by simp [ReadingRules.peek])]
      exact follows_base hprimary (.finish hend)
  | next lexeme hrest =>
      by_cases hscript : ∃ side, lexeme.token = .script side
      · obtain ⟨side, hside⟩ := hscript
        simp only [readItem, ReadingRules.peek, hside]
        exact follows_readScripts hprimary _ _ (.next _ hrest)
      · rw [readItem_of_not_script c.first primary (lexeme :: _) (not_exists.mp hscript),
          readItem_of_not_script c.second follower (lexeme :: _) (not_exists.mp hscript)]
        exact follows_base hprimary (.next _ hrest)

theorem follows_readSequence (halike : c.Alike input other) :
    c.Follows (readSequence c.first primary input) (readSequence c.second follower other) := by
  induction hlength : input.length using Nat.strongRecOn generalizing input other with
  | ind size ih =>
      subst hlength
      cases halike with
      | beyond hbeyond =>
          exact follows_of_beyond (readFrom_readSequence hprimary.isLocal input) hbeyond
      | finish hend =>
          rw [readSequence_eq, readSequence_eq]
          exact .success (.finish hend)
      | next lexeme hrest =>
          by_cases hends : lexeme.token.endsSequence = true
          · rw [readSequence_eq, readSequence_eq, ReadingRules.peek, ReadingRules.peek,
              if_pos hends, if_pos hends]
            exact .success (.next lexeme hrest)
          · rw [readSequence_of_not_endsSequence c.first primary (lexeme :: _) hends,
              readSequence_of_not_endsSequence c.second follower (lexeme :: _) hends]
            apply (follows_readItem hprimary (.next lexeme hrest)).andThen
            · intro node rest
              exact (readFrom_readSequence hprimary.isLocal rest).map _
            · intro node rest after hread hafter
              exact (ih _ (readItem_shrinks hread) hafter rfl).map _

theorem follows_rowsAfterCell
    {environment : Environment} (nodes : List Node)
    (hrows : ∀ {rest after}, rest.length < input.length → c.Alike rest after →
      c.Follows (readRows c.first primary environment rest)
        (readRows c.second follower environment after))
    (halike : c.Alike input other) :
    c.Follows (rowsAfterCell c.first primary environment nodes input)
      (rowsAfterCell c.second follower environment nodes other) := by
  cases halike with
  | beyond hbeyond =>
      have hlocal := readFrom_rowsAfterCell hprimary.isLocal environment nodes input
      exact follows_of_beyond hlocal hbeyond
  | finish hend => exact follows_end hend _
  | next lexeme hrest =>
      obtain ⟨token, span⟩ := lexeme
      cases token with
      | nextCell | nextRow => exact (hrows (by simp) hrest).map _
      | ending name =>
          simp only [rowsAfterCell]
          cases Environment.ofName? name with
          | none => exact .failure _
          | some found =>
              by_cases hfound : found = environment
              · simp only [hfound, if_true]
                exact .success hrest
              · simp only [hfound, if_false]
                exact .failure _
      | _ => exact .failure _

theorem follows_readRows (environment : Environment) (halike : c.Alike input other) :
    c.Follows (readRows c.first primary environment input)
      (readRows c.second follower environment other) := by
  induction hlength : input.length using Nat.strongRecOn generalizing input other with
  | ind size ih =>
      subst hlength
      rw [readRows_eq_andThen, readRows_eq_andThen]
      apply (follows_readSequence hprimary halike).andThen
      · exact readFrom_rowsAfterCell hprimary.isLocal environment
      · intro nodes rest after hread hafter
        apply follows_rowsAfterCell hprimary nodes _ hafter
        intro later _ hlater halike
        exact ih _ (Nat.lt_of_lt_of_le hlater (length_readSequence_le hread)) halike rfl

end Level

theorem follows_closeGroup (nodes : List Node) (halike : c.Alike input other) :
    c.Follows (closeGroup c.first nodes input) (closeGroup c.second nodes other) := by
  cases halike with
  | beyond hbeyond => exact follows_of_beyond (readFrom_closeGroup c.first nodes input) hbeyond
  | finish hend => exact follows_end hend _
  | next lexeme hrest =>
      obtain ⟨token, span⟩ := lexeme
      cases token with
      | closeBrace => exact .success hrest
      | _ => exact .failure _

theorem splitNumber_alike (stop : Nat) (halike : c.Alike input other) :
    c.Beyond (splitNumber stop input).2 ∨
      (splitNumber stop input).1 = (splitNumber stop other).1 ∧
        c.Alike (splitNumber stop input).2 (splitNumber stop other).2 := by
  induction halike generalizing stop with
  | beyond hbeyond => exact .inl (hbeyond.of_suffix (passes_splitNumber c.first stop _).suffix)
  | finish hend => exact .inr ⟨rfl, .finish hend⟩
  | next lexeme hrest ih =>
      simp only [splitNumber]
      cases lexeme.token.numeral? with
      | none => exact .inr ⟨rfl, .next lexeme hrest⟩
      | some numeral =>
          by_cases hstart : lexeme.span.start = stop
          · simp only [hstart, if_true, List.cons.injEq, true_and]
            exact ih lexeme.span.stop
          · simp only [hstart, if_false]
            exact .inr ⟨trivial, .next lexeme hrest⟩

/-! ## Levels -/

/-- The parsers of the second level follow those of the first one. -/
structure Levels (c : Comparison) (level follower : Level) : Prop where
  isLocal : level.IsLocal c.first
  primary : c.Parsers level.primary follower.primary
  group : ∀ brace {input other}, c.Alike input other →
    c.Follows ((level.group brace).run input) ((follower.group brace).run other)

/-- The levels below, of which only the second one may be there if it is
excused to reach the limit. -/
inductive Below (c : Comparison) : Option Level → Option Level → Prop
  | limit : Below c none none
  | deeper {follower : Level} (hlimit : ∀ span, c.Excused ⟨span, .limitExceeded⟩) :
      Below c none (some follower)
  | levels {level follower : Level} (hlevels : c.Levels level follower) :
      Below c (some level) (some follower)

theorem Below.isLocal {below follower : Option Level} (hbelow : c.Below below follower) :
    ∀ level ∈ below, level.IsLocal c.first := by
  cases hbelow with
  | limit | deeper => simp
  | levels hlevels => simpa using hlevels.isLocal

theorem follows_groupParser {below follower : Option Level} (hbelow : c.Below below follower)
    (brace : Span) (halike : c.Alike input other) :
    c.Follows ((groupParser c.first below brace).run input)
      ((groupParser c.second follower brace).run other) := by
  cases hbelow with
  | limit => exact .failure _
  | deeper hlimit => exact .excused (hlimit brace)
  | levels hlevels =>
      rw [run_groupParser_some, run_groupParser_some]
      apply (follows_readSequence hlevels.primary halike).andThen
      · exact readFrom_closeGroup c.first
      · intro nodes rest after _ hafter
        exact follows_closeGroup nodes hafter

section Shaped

variable {level follower : Level} (hlevels : c.Levels level follower)

include hlevels

theorem follows_readBraced (command : String) (halike : c.Alike input other) :
    c.Follows (readBraced c.first level command input)
      (readBraced c.second follower command other) := by
  cases halike with
  | beyond hbeyond =>
      exact follows_of_beyond (readFrom_readBraced hlevels.isLocal command input) hbeyond
  | finish hend => exact follows_end hend _
  | next lexeme hrest =>
      obtain ⟨token, span⟩ := lexeme
      cases token with
      | openBrace => exact hlevels.group span hrest
      | _ => exact .failure _

theorem follows_readShaped
    (span : Span) (name : String) (shape : ArgumentShape) (halike : c.Alike input other) :
    c.Follows (readShaped c.first level span name shape input)
      (readShaped c.second follower span name shape other) := by
  have hbraced {input other} (halike : c.Alike input other) :
      c.Follows (readShaped c.first level span name .braced input)
        (readShaped c.second follower span name .braced other) := by
    rw [readShaped_braced, readShaped_braced]
    exact (follows_readBraced hlevels name halike).map _
  cases shape with
  | braced => exact hbraced halike
  | bare =>
      rw [readShaped_bare, readShaped_bare]
      exact (follows_readArgument hlevels.primary halike).map _
  | twoBraced =>
      rw [readShaped_twoBraced, readShaped_twoBraced]
      apply (follows_readBraced hlevels name halike).andThen
      · intro first rest
        exact (readFrom_readBraced hlevels.isLocal name rest).map _
      · intro first rest after _ hafter
        exact (follows_readBraced hlevels name hafter).map _
  | chemistry =>
      rw [readShaped_chemistry, readShaped_chemistry]
      rcases c.chemistry with hsame | ⟨hfirst, hexcused⟩
      · rw [hsame]
        by_cases hallowed : c.first.chemistry = true
        · simp only [hallowed, if_true]
          exact hbraced halike
        · simp only [hallowed, Bool.false_eq_true, if_false]
          exact .failure _
      · simp only [hfirst, Bool.false_eq_true, if_false]
        exact .excused (hexcused span)
  | rawText =>
      cases halike with
      | beyond hbeyond =>
          exact follows_of_beyond (readFrom_readShaped hlevels.isLocal (by simp) _ _ _) hbeyond
      | finish hend => exact follows_end hend _
      | next lexeme hrest =>
          obtain ⟨token, place⟩ := lexeme
          cases token with
          | rawText content => exact .success hrest
          | _ => exact .failure _
  | delimiter =>
      cases halike with
      | beyond hbeyond =>
          exact follows_of_beyond (readFrom_readShaped hlevels.isLocal (by simp) _ _ _) hbeyond
      | finish hend => exact follows_end hend _
      | next lexeme hrest =>
          simp only [readShaped, ReadingRules.peek]
          cases lexeme.token.delimiter? with
          | none => exact .failure _
          | some delimiter => exact .success hrest

end Shaped

section Primary

variable {below follower : Option Level} (hbelow : c.Below below follower)

include hbelow

theorem follows_readCommand (span : Span) (name : String) (halike : c.Alike input other) :
    c.Follows (readCommand c.first below span name input)
      (readCommand c.second follower span name other) := by
  cases hshape : shape? name with
  | none =>
      simp only [readCommand, hshape]
      exact .success halike
  | some shape =>
      simp only [readCommand, hshape]
      cases hbelow with
      | limit => exact .failure _
      | deeper hlimit => exact .excused (hlimit span)
      | levels hlevels => exact follows_readShaped hlevels span name shape halike

theorem follows_readEnvironment (span : Span) (name : String) (halike : c.Alike input other) :
    c.Follows (readEnvironment c.first below span name input)
      (readEnvironment c.second follower span name other) := by
  cases hname : Environment.ofName? name with
  | none =>
      simp only [readEnvironment, hname]
      exact .failure _
  | some environment =>
      cases hbelow with
      | limit =>
          simp only [readEnvironment, hname]
          exact .failure _
      | deeper hlimit =>
          simp only [readEnvironment, hname]
          exact .excused (hlimit span)
      | levels hlevels =>
          rw [readEnvironment_some _ _ _ _ hname, readEnvironment_some _ _ _ _ hname]
          exact (follows_readRows hlevels.primary environment halike).map _

theorem follows_readPrimary (halike : c.Alike input other) :
    c.Follows (readPrimary c.first below input) (readPrimary c.second follower other) := by
  cases halike with
  | beyond hbeyond => exact follows_of_beyond (readFrom_readPrimary hbelow.isLocal input) hbeyond
  | finish hend => exact follows_end hend _
  | next lexeme hrest =>
      obtain ⟨token, span⟩ := lexeme
      cases token with
      | letter | symbol => exact .success hrest
      | digit numeral =>
          rw [readPrimary_digit, readPrimary_digit]
          rcases splitNumber_alike span.stop hrest with hbeyond | ⟨hsame, hafter⟩
          · exact .beyond hbeyond
          · rw [hsame]
            exact .success hafter
      | openBrace => exact follows_groupParser hbelow span hrest
      | command name => exact follows_readCommand hbelow span name hrest
      | beginning name => exact follows_readEnvironment hbelow span name hrest
      | _ => exact .failure _

theorem levels_above : c.Levels (.above c.first below) (.above c.second follower) where
  isLocal := isLocal_above hbelow.isLocal
  primary := ⟨readFrom_readPrimary hbelow.isLocal, follows_readPrimary hbelow⟩
  group brace _ _ halike := follows_groupParser hbelow brace halike

end Primary

theorem levels_levelWithin (depth : Nat) :
    c.Levels (levelWithin c.first depth) (levelWithin c.second depth) := by
  induction depth with
  | zero => exact levels_above .limit
  | succ deeper ih => exact levels_above (.levels ih)

/-- A greater depth for the second reading matters only where the first one
reaches the limit. -/
theorem levels_levelWithin_of_le (hlimit : ∀ span, c.Excused ⟨span, .limitExceeded⟩)
    {depth greater : Nat} (hle : depth ≤ greater) :
    c.Levels (levelWithin c.first depth) (levelWithin c.second greater) := by
  induction depth generalizing greater with
  | zero =>
      cases greater with
      | zero => exact levels_above .limit
      | succ deeper => exact levels_above (.deeper hlimit)
  | succ deeper ih =>
      obtain ⟨greater, rfl⟩ : ∃ smaller, greater = smaller + 1 := ⟨greater - 1, by omega⟩
      exact levels_above (.levels (ih (by omega)))

theorem readTokens_eq_error {error : FormulaError} (halike : c.Alike input other)
    (hread : readTokens c.first input = .error error) (hexcused : ¬ c.Excused error) :
    readTokens c.second other = .error error := by
  have hlevels := levels_levelWithin (c := c) nestingLimit
  have hfollows := follows_readSequence hlevels.primary halike
  have hbeyond {lexeme : Lexeme} {rest : List Lexeme} (hrest : c.Beyond (lexeme :: rest)) :
      c.Excused lexeme.unexpected :=
    c.excused_of_raises (hrest lexeme (.inl List.mem_cons_self)) lexeme.raises_unexpected
  rw [readTokens_eq_error_iff] at hread ⊢
  generalize readSequence c.second _ other = following at hfollows ⊢
  rcases hread with hread | ⟨nodes, lexeme, rest, hread, rfl⟩
  · rw [hread] at hfollows
    cases hfollows with
    | excused herror => exact absurd herror hexcused
    | failure => exact .inl rfl
  · rw [hread] at hfollows
    cases hfollows with
    | beyond hrest => exact absurd (hbeyond hrest) hexcused
    | success hrest =>
        cases hrest with
        | beyond hrest => exact absurd (hbeyond hrest) hexcused
        | next _ hrest => exact .inr ⟨nodes, lexeme, _, rfl, rfl⟩

/-! ## The same lexemes -/

section Strict

variable (hend : c.second.finish = c.first.finish) (hstrict : ∀ lexeme, ¬ c.Loose lexeme)

include hend hstrict

theorem alike_iff_eq : c.Alike input other ↔ input = other := by
  constructor
  · intro halike
    induction halike with
    | beyond hbeyond => exact absurd (hbeyond _ (c.first.meets_peek _)) (hstrict _)
    | finish => rfl
    | next lexeme hrest ih => rw [ih]
  · rintro rfl
    induction input with
    | nil => exact .finish hend
    | cons lexeme rest ih => exact .next lexeme ih

/-- Over the same lexemes the second reading has the same result, unless the
error of the first one is excused. -/
theorem readSequence_eq_or_excused
    {primary follower : NodeParser} (hprimary : c.Parsers primary follower)
    (input : List Lexeme) :
    (∃ error, c.Excused error ∧ readSequence c.first primary input = .error error) ∨
      readSequence c.first primary input = readSequence c.second follower input := by
  have hfollows := follows_readSequence hprimary ((alike_iff_eq hend hstrict).mpr (Eq.refl input))
  generalize readSequence c.first primary input = reading at hfollows ⊢
  generalize readSequence c.second follower input = following at hfollows ⊢
  cases hfollows with
  | excused herror => exact .inl ⟨_, herror, rfl⟩
  | beyond hrest => exact absurd (hrest _ (c.first.meets_peek _)) (hstrict _)
  | failure error => exact .inr rfl
  | success hrest => exact .inr (by rw [(alike_iff_eq hend hstrict).mp hrest])

end Strict

end Comparison

end FormulaMarkup
