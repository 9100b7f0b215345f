import FormulaMarkup.Proofs.BoundedTrees
import FormulaMarkup.Proofs.ErrorPlaces

/-!
# A counter for the depth

The levels of the reader can also be counted while it reads.  Such a reader has
a counter besides its lexemes: the counter goes up by one where a group, a
command with a shape or an environment is entered, and down by one where it is
left.  To enter is refused above the limit, and to leave is a fault of the
reader where the counter is zero.

The reader with the counter gives the same answers as the levels do, the
counter is back where it was whenever something has been read, and the reader is
without fault.
-/

namespace FormulaMarkup

/-- Why a reading with a counter ends without a result. -/
inductive CountingFault where
  | formula (error : FormulaError)
  /-- The counter is zero and has to go down. -/
  | underflow
  /-- The reader would go on without end. -/
  | endless
deriving Repr, DecidableEq

def Counting (α : Type) : Type :=
  Nat → List Lexeme → Except CountingFault (α × Nat × List Lexeme)

namespace Counting

variable {α β : Type}

instance : Monad Counting where
  pure value := fun depth input => .ok (value, depth, input)
  bind first next := fun depth input =>
    match first depth input with
    | .error fault => .error fault
    | .ok (value, after, rest) => next value after rest

theorem bind_apply (first : Counting α) (next : α → Counting β) (depth : Nat)
    (input : List Lexeme) :
    (first >>= next) depth input =
      match first depth input with
      | .error fault => .error fault
      | .ok (value, after, rest) => next value after rest :=
  rfl

def fail (error : FormulaError) : Counting α := fun _ _ => .error (.formula error)

/-- A reading that leaves the counter alone. -/
def ofReading (read : List Lexeme → Reading α) : Counting α := fun depth input =>
  match read input with
  | .error error => .error (.formula error)
  | .ok (value, rest) => .ok (value, depth, rest)

def enter (span : Span) : Counting Unit := fun depth input =>
  if nestingLimit < depth + 1 then .error (.formula ⟨span, .limitExceeded⟩)
  else .ok ((), depth + 1, input)

def leave : Counting Unit := fun depth input =>
  match depth with
  | 0 => .error .underflow
  | outer + 1 => .ok ((), outer, input)

def within (span : Span) (inner : Counting α) : Counting α := do
  enter span
  let value ← inner
  leave
  return value

end Counting

/-! ## Readers -/

section Readers

variable (rules : ReadingRules) (primary : Counting Node)

def countedArgument : Counting Node := fun depth input =>
  match (rules.peek input).token with
  | .script _ => .error (.formula ⟨(rules.peek input).span, .doubledScript⟩)
  | .endOfInput => .error (.formula ⟨(rules.peek input).span, .argumentAtEnd⟩)
  | .closeBrace => .error (.formula ⟨(rules.peek input).span, .argumentBeforeClose⟩)
  | .ending _ => .error (.formula ⟨(rules.peek input).span, .argumentBeforeClose⟩)
  | .nextCell => .error (.formula ⟨(rules.peek input).span, .argumentBeforeClose⟩)
  | .nextRow => .error (.formula ⟨(rules.peek input).span, .argumentBeforeClose⟩)
  | _ => primary depth input

def countedScripts : Nat → Node → Counting Node
  | allowed, base, depth, ⟨.script side, span⟩ :: rest =>
      match allowed with
      | 0 => .error (.formula ⟨span, .limitExceeded⟩)
      | fewer + 1 =>
          (countedArgument rules primary >>= fun attached =>
            countedScripts fewer (.script side base attached)) depth rest
  | _, base, depth, input => .ok (base, depth, input)

def countedItem : Counting Node := fun depth input =>
  match (rules.peek input).token with
  | .script _ => countedScripts rules primary nestingLimit (.sequence false []) depth input
  | _ => (primary >>= countedScripts rules primary nestingLimit) depth input

/-- Items that take no lexeme would follow one another without end. -/
def countedSequence (depth : Nat) (input : List Lexeme) :
    Except CountingFault (List Node × Nat × List Lexeme) :=
  if (rules.peek input).token.endsSequence then .ok ([], depth, input)
  else
    match countedItem rules primary depth input with
    | .error fault => .error fault
    | .ok (node, after, rest) =>
        if rest.length < input.length then
          match countedSequence after rest with
          | .error fault => .error fault
          | .ok (nodes, last, remaining) => .ok (node :: nodes, last, remaining)
        else .error .endless
termination_by input.length

def countedGroup (brace : Span) : Counting Node :=
  .within brace do
    let nodes ← countedSequence rules primary
    .ofReading (closeGroup rules nodes)

def countedBraced (command : String) : Counting Node := fun depth input =>
  match input with
  | ⟨.openBrace, span⟩ :: rest => countedGroup rules primary span depth rest
  | _ => .error (.formula ((rules.peek input).missing (.bracedArgumentMissing command)))

/-- The arguments of a command, which is entered already. -/
def countedShaped (span : Span) (name : String) : ArgumentShape → Counting Node
  | .braced => do
      let argument ← countedBraced rules primary name
      return .unary .braced name argument
  | .bare => do
      let argument ← countedArgument rules primary
      return .unary .bare name argument
  | .twoBraced => do
      let first ← countedBraced rules primary name
      let second ← countedBraced rules primary name
      return .binary name first second
  | .rawText => fun depth input =>
      match input with
      | ⟨.rawText content, _⟩ :: rest =>
          let items := if content.isEmpty then [] else [.literal content]
          .ok (.unary .braced name (.sequence true items), depth, rest)
      | _ => .error (.formula ((rules.peek input).missing (.bracedArgumentMissing name)))
  | .chemistry =>
      if rules.chemistry then do
        let argument ← countedBraced rules primary name
        return .unary .braced name argument
      else .fail ⟨span, .chemistryDisabled⟩
  | .delimiter => fun depth input =>
      match (rules.peek input).token.delimiter? with
      | some delimiter => .ok (.unary .bare name delimiter, depth, input.tail)
      | none => .error (.formula ((rules.peek input).missing (.delimiterMissing name)))

def countedCommand (span : Span) (name : String) : Counting Node :=
  match shape? name with
  | none => return .literal name
  | some shape => .within span (countedShaped rules primary span name shape)

def countedRows (environment : Environment) (depth : Nat) (input : List Lexeme) :
    Except CountingFault ((List Node × List (List Node)) × Nat × List Lexeme) :=
  match countedSequence rules primary depth input with
  | .error fault => .error fault
  | .ok (nodes, after, ⟨.nextCell, _⟩ :: rest) =>
      if rest.length < input.length then
        match countedRows environment after rest with
        | .error fault => .error fault
        | .ok ((row, rows), last, remaining) =>
            .ok ((.sequence false nodes :: row, rows), last, remaining)
      else .error .endless
  | .ok (nodes, after, ⟨.nextRow, _⟩ :: rest) =>
      if rest.length < input.length then
        match countedRows environment after rest with
        | .error fault => .error fault
        | .ok ((row, rows), last, remaining) =>
            .ok (([.sequence false nodes], row :: rows), last, remaining)
      else .error .endless
  | .ok (nodes, after, ⟨.ending name, span⟩ :: rest) =>
      match Environment.ofName? name with
      | none => .error (.formula ⟨span, .unknownEnvironment name⟩)
      | some found =>
          if found = environment then .ok (([.sequence false nodes], []), after, rest)
          else .error (.formula ⟨span, .mismatchedEnvironment environment found⟩)
  | .ok (_, _, rest) => .error (.formula (rules.peek rest).unexpected)
termination_by input.length

def countedEnvironment (span : Span) (name : String) : Counting Node :=
  match Environment.ofName? name with
  | none => .fail ⟨span, .unknownEnvironment name⟩
  | some environment =>
      .within span do
        let rows ← countedRows rules primary environment
        return .table environment (dropEmptyLastRow (rows.1 :: rows.2))

end Readers

/-- A node without scripts, with a bound on how often the reader calls itself. -/
def countedPrimary (rules : ReadingRules) : Nat → Counting Node
  | 0, _, _ => .error .endless
  | _ + 1, _, [] => .error (.formula (rules.peek []).unexpected)
  | calls + 1, depth, ⟨token, span⟩ :: rest =>
      match token with
      | .letter c => .ok (.ofChar c, depth, rest)
      | .symbol c => .ok (.ofChar c, depth, rest)
      | .digit c =>
          .ok (.literal (String.ofList (c :: (splitNumber span.stop rest).1)), depth,
            (splitNumber span.stop rest).2)
      | .openBrace => countedGroup rules (countedPrimary rules calls) span depth rest
      | .command name => countedCommand rules (countedPrimary rules calls) span name depth rest
      | .beginning name =>
          countedEnvironment rules (countedPrimary rules calls) span name depth rest
      | token => .error (.formula (Lexeme.unexpected ⟨token, span⟩))

/-- Reads a formula from the counter zero on.  The result is the tree and the
counter at the end. -/
def countedFormula (chemistry : Bool) (calls : Nat) (formula : String) :
    Except CountingFault (Node × Nat) :=
  let rules : ReadingRules := ⟨chemistry, byteLength formula.toList⟩
  match countedSequence rules (countedPrimary rules calls) 0 (tokenize formula) with
  | .error fault => .error fault
  | .ok (nodes, depth, []) => .ok (.sequence false nodes, depth)
  | .ok (_, _, rest) => .error (.formula (rules.peek rest).unexpected)

/-! ## Agreement -/

namespace Counting

variable {α β : Type} {depth : Nat}

/-- At this depth, the readings have the same results, and the one with a
counter leaves the counter where it was. -/
def Agrees (depth : Nat) (counted : Counting α) (read : List Lexeme → Reading α) : Prop :=
  ∀ input, counted depth input = ofReading read depth input

theorem agrees_ofReading (read : List Lexeme → Reading α) : (ofReading read).Agrees depth read :=
  fun _ => rfl

theorem Agrees.congr {counted : Counting α} {read other : List Lexeme → Reading α}
    (hagrees : counted.Agrees depth read) (hread : ∀ input, other input = read input) :
    counted.Agrees depth other := by
  intro input
  rw [hagrees input, ofReading, ofReading, hread]

theorem Agrees.bind {counted : Counting α} {read : List Lexeme → Reading α} {next : α → Counting β}
    {readNext : α → List Lexeme → Reading β} (hfirst : counted.Agrees depth read)
    (hnext : ∀ value, (next value).Agrees depth (readNext value)) :
    (counted >>= next).Agrees depth fun input => (read input).andThen readNext := by
  intro input
  rw [bind_apply, hfirst input, ofReading, ofReading]
  cases read input with
  | error error => rfl
  | ok result => exact hnext result.1 result.2

theorem Agrees.map {counted : Counting α} {read : List Lexeme → Reading α} (f : α → β)
    (hfirst : counted.Agrees depth read) :
    (counted >>= fun value => return f value).Agrees depth
      fun input => (read input).andThen fun value rest => .ok (f value, rest) :=
  hfirst.bind fun _ _ => rfl

/-- What is left again has changed the counter by nothing. -/
theorem agrees_within {inner : Counting α} {read : List Lexeme → Reading α}
    (hdepth : depth < nestingLimit) (hinner : inner.Agrees (depth + 1) read) (span : Span) :
    (within span inner).Agrees depth read := by
  intro input
  have henter : enter span depth input = .ok ((), depth + 1, input) := by
    rw [enter, if_neg (by omega)]
  simp only [within, bind_apply, henter, hinner input, ofReading]
  cases read input with
  | error error => rfl
  | ok result => rfl

theorem within_nestingLimit (span : Span) (inner : Counting α) (input : List Lexeme) :
    within span inner nestingLimit input = .error (.formula ⟨span, .limitExceeded⟩) :=
  rfl

end Counting

section Agreement

variable {rules : ReadingRules} {primary : Counting Node} {parser : NodeParser} {depth : Nat}

section Primary

variable (rules) (hprimary : primary.Agrees depth parser.run)

include hprimary

theorem agrees_countedArgument :
    (countedArgument rules primary).Agrees depth (readArgument rules parser) := by
  intro input
  unfold countedArgument Counting.ofReading readArgument
  cases htoken : (rules.peek input).token with
  | script | endOfInput | closeBrace | ending | nextCell | nextRow => rfl
  | _ => exact hprimary input

theorem agrees_countedScripts (allowed : Nat) (base : Node) :
    (countedScripts rules primary allowed base).Agrees depth
      (readScripts rules parser allowed base) := by
  have hargument := agrees_countedArgument rules hprimary
  induction allowed generalizing base with
  | zero =>
      intro input
      rcases input with _ | ⟨⟨token, span⟩, rest⟩
      · rfl
      · cases token <;> rfl
  | succ fewer ih =>
      intro input
      rcases input with _ | ⟨⟨token, span⟩, rest⟩
      · rfl
      · cases token with
        | script side =>
            rw [Counting.ofReading, readScripts_cons_script]
            exact (hargument.bind fun attached => ih (.script side base attached)) rest
        | _ => rfl

theorem agrees_countedItem :
    (countedItem rules primary).Agrees depth (readItem rules parser) := by
  have hscripts := agrees_countedScripts rules hprimary nestingLimit
  intro input
  cases htoken : (rules.peek input).token with
  | script side =>
      simp only [countedItem, Counting.ofReading, readItem, htoken]
      exact hscripts (.sequence false []) input
  | _ =>
      rw [Counting.ofReading, readItem_of_not_script rules parser input (by simp [htoken])]
      simp only [countedItem, htoken]
      exact (hprimary.bind hscripts) input

theorem agrees_countedSequence :
    Counting.Agrees depth (countedSequence rules primary) (readSequence rules parser) := by
  intro input
  induction hlength : input.length using Nat.strongRecOn generalizing input with
  | ind size ih =>
      rw [countedSequence, agrees_countedItem rules hprimary input]
      by_cases hends : (rules.peek input).token.endsSequence = true
      · rw [if_pos hends, Counting.ofReading, readSequence_eq, if_pos hends]
      · rw [if_neg hends]
        simp only [Counting.ofReading]
        rw [readSequence_eq, if_neg hends]
        cases hitem : readItem rules parser input with
        | error error => rfl
        | ok result =>
            have hshrinks := readItem_shrinks hitem
            simp only [if_pos hshrinks, ih _ (hlength ▸ hshrinks) result.2 rfl,
              Counting.ofReading]
            cases readSequence rules parser result.2 <;> rfl

theorem agrees_countedRows (environment : Environment) :
    Counting.Agrees depth (countedRows rules primary environment)
      (readRows rules parser environment) := by
  intro input
  induction hlength : input.length using Nat.strongRecOn generalizing input with
  | ind size ih =>
      rw [countedRows, agrees_countedSequence rules hprimary input, Counting.ofReading,
        Counting.ofReading, readRows_eq]
      cases hcell : readSequence rules parser input with
      | error error => rfl
      | ok result =>
          obtain ⟨nodes, rest⟩ := result
          have hle := length_readSequence_le hcell
          rcases rest with _ | ⟨⟨token, span⟩, rest⟩
          · rfl
          · have hshrinks : rest.length < input.length := Nat.lt_of_succ_le hle
            cases token with
            | nextCell | nextRow =>
                simp only [if_pos hshrinks, ih _ (hlength ▸ hshrinks) rest rfl,
                  Counting.ofReading]
                cases readRows rules parser environment rest <;> rfl
            | ending name =>
                cases hname : Environment.ofName? name with
                | none => simp only [hname]
                | some found => by_cases hfound : found = environment <;> simp [hname, hfound]
            | _ => rfl

end Primary

/-- The parser agrees with the levels that so many calls can reach. -/
def Counting.FollowsLevels (rules : ReadingRules) (calls : Nat) (primary : Counting Node) : Prop :=
  ∀ {level depth : Nat}, depth + level = nestingLimit → level < calls →
    primary.Agrees depth (levelWithin rules level).primary.run

/-- The level that is entered from the level with so many below it. -/
def levelBelow (rules : ReadingRules) : Nat → Option Level
  | 0 => none
  | below + 1 => some (levelWithin rules below)

theorem levelWithin_eq_above (rules : ReadingRules) (level : Nat) :
    levelWithin rules level = .above rules (levelBelow rules level) := by
  cases level <;> rfl

variable {calls level : Nat} (hfollows : primary.FollowsLevels rules calls)
  (hdepth : depth + level = nestingLimit)

include hfollows hdepth

theorem agrees_countedGroup (hlevel : level ≤ calls) (brace : Span) :
    (countedGroup rules primary brace).Agrees depth
      (groupParser rules (levelBelow rules level) brace).run := by
  cases level with
  | zero =>
      -- The counter is at its limit exactly where there is no level below.
      intro input
      rw [Nat.add_zero] at hdepth
      subst hdepth
      exact Counting.within_nestingLimit brace _ input
  | succ below =>
      have hinner : primary.Agrees (depth + 1) (levelWithin rules below).primary.run :=
        hfollows (by omega) (by omega)
      have hnodes := (agrees_countedSequence rules hinner).bind fun nodes =>
        Counting.agrees_ofReading (closeGroup rules nodes)
      have hgroup := Counting.agrees_within (by omega) hnodes brace
      exact hgroup.congr (run_groupParser_some rules (levelWithin rules below) brace)

theorem agrees_countedBraced (hlevel : level ≤ calls) (command : String) :
    (countedBraced rules primary command).Agrees depth
      (readBraced rules (levelWithin rules level) command) := by
  rw [levelWithin_eq_above]
  intro input
  rcases input with _ | ⟨⟨token, span⟩, rest⟩
  · rfl
  · cases token with
    | openBrace => exact agrees_countedGroup hfollows hdepth hlevel span rest
    | _ => rfl

theorem agrees_countedShaped (hlevel : level < calls) (span : Span) (name : String)
    (shape : ArgumentShape) :
    (countedShaped rules primary span name shape).Agrees depth
      (readShaped rules (levelWithin rules level) span name shape) := by
  have hbraced := agrees_countedBraced hfollows hdepth (Nat.le_of_lt hlevel) name
  have hargument := agrees_countedArgument rules (hfollows hdepth hlevel)
  cases shape with
  | braced => exact (hbraced.map _).congr (readShaped_braced rules _ span name)
  | bare => exact (hargument.map _).congr (readShaped_bare rules _ span name)
  | twoBraced =>
      exact (hbraced.bind fun first => hbraced.map _).congr (readShaped_twoBraced rules _ span name)
  | rawText =>
      intro input
      rcases input with _ | ⟨⟨token, box⟩, rest⟩
      · rfl
      · cases token <;> rfl
  | chemistry =>
      have hchemistry := readShaped_chemistry rules (levelWithin rules level) span name
      by_cases hallowed : rules.chemistry = true
      · simp only [countedShaped, hallowed, if_true]
        refine (hbraced.map _).congr fun input => ?_
        rw [hchemistry, if_pos hallowed, readShaped_braced]
      · simp only [countedShaped, hallowed]
        intro input
        rw [Counting.ofReading, hchemistry, if_neg hallowed]
        rfl
  | delimiter =>
      intro input
      simp only [countedShaped, Counting.ofReading, readShaped]
      cases (rules.peek input).token.delimiter? <;> rfl

theorem agrees_countedCommand (hlevel : level ≤ calls) (span : Span) (name : String) :
    (countedCommand rules primary span name).Agrees depth
      (readCommand rules (levelBelow rules level) span name) := by
  intro input
  unfold countedCommand Counting.ofReading readCommand
  cases shape? name with
  | none => rfl
  | some shape =>
      cases level with
      | zero =>
          rw [Nat.add_zero] at hdepth
          subst hdepth
          exact Counting.within_nestingLimit span _ input
      | succ below =>
          have hinside : depth + 1 + below = nestingLimit := by omega
          have hshaped := agrees_countedShaped hfollows hinside (by omega) span name shape
          exact Counting.agrees_within (by omega) hshaped span input

theorem agrees_countedEnvironment (hlevel : level ≤ calls) (span : Span) (name : String) :
    (countedEnvironment rules primary span name).Agrees depth
      (readEnvironment rules (levelBelow rules level) span name) := by
  intro input
  unfold countedEnvironment
  cases hname : Environment.ofName? name with
  | none => simp only [Counting.ofReading, readEnvironment, hname, Counting.fail]
  | some environment =>
      cases level with
      | zero =>
          rw [Nat.add_zero] at hdepth
          subst hdepth
          simp only [Counting.ofReading, readEnvironment, levelBelow, hname]
          exact Counting.within_nestingLimit span _ input
      | succ below =>
          have hinner : primary.Agrees (depth + 1) (levelWithin rules below).primary.run :=
            hfollows (by omega) (by omega)
          have hrows := (agrees_countedRows rules hinner environment).map fun rows =>
            Node.table environment (dropEmptyLastRow (rows.1 :: rows.2))
          have hwithin := Counting.agrees_within (by omega) hrows span
          rw [Counting.ofReading, levelBelow, readEnvironment_some rules _ span input hname]
          exact hwithin input

end Agreement

theorem followsLevels_countedPrimary (rules : ReadingRules) (calls : Nat) :
    (countedPrimary rules calls).FollowsLevels rules calls := by
  induction calls with
  | zero =>
      intro level depth _ hlevel
      omega
  | succ calls ih =>
      intro level depth hdepth hlevel input
      have hreached : level ≤ calls := by omega
      rw [levelWithin_eq_above]
      rcases input with _ | ⟨⟨token, span⟩, rest⟩
      · rfl
      · cases token with
        | openBrace => exact agrees_countedGroup ih hdepth hreached span rest
        | command name => exact agrees_countedCommand ih hdepth hreached span name rest
        | beginning name => exact agrees_countedEnvironment ih hdepth hreached span name rest
        | _ => rfl

/-- With enough calls for all levels, the counter ends at zero, and it never
has to fall below. -/
theorem countedFormula_eq {chemistry : Bool} {calls : Nat} (hcalls : nestingLimit < calls)
    (formula : String) :
    countedFormula chemistry calls formula =
      match parseFormula chemistry formula with
      | .error error => .error (.formula error)
      | .ok tree => .ok (tree, 0) := by
  have hprimary := followsLevels_countedPrimary ⟨chemistry, byteLength formula.toList⟩ calls
    (Nat.zero_add nestingLimit) hcalls
  simp only [countedFormula, parseFormula, readTokens, agrees_countedSequence _ hprimary _,
    Counting.ofReading]
  rcases readSequence _ _ (tokenize formula) with error | ⟨nodes, _ | ⟨lexeme, rest⟩⟩ <;> rfl

/-- A tree that a formula is read as is not deep, neither in levels nor in
scripts on one another nor in nodes; and a counter of the levels comes back to
zero and never has to fall below. -/
theorem depth_bounded_and_restored (chemistry : Bool) (formula : String) :
    (∀ tree, parseFormula chemistry formula = .ok tree →
      (∀ path, tree.IsPath path → levelsOnPath false path ≤ 128 ∧ path.length ≤ 129 * 130) ∧
      ∀ node, tree.ContainsAnywhere node → node.scriptChain ≤ 128) ∧
    ∀ calls, nestingLimit < calls →
      countedFormula chemistry calls formula =
        match parseFormula chemistry formula with
        | .error error => .error (.formula error)
        | .ok tree => .ok (tree, 0) := by
  constructor
  · intro tree hparse
    have hbounded := bounded_of_parseFormula hparse
    refine ⟨fun path hpath => ⟨hbounded.levels path hpath, hbounded.length path hpath⟩, ?_⟩
    exact hbounded.chains
  · intro calls hcalls
    exact countedFormula_eq hcalls formula

/-- An accent in a script: the group of the script, the command and the group
of its argument take a level each. -/
theorem depth_bounded_and_restored_hat :
    ∃ tree path, parseFormula false "x^\x7b\\hat\x7by\x7d\x7d" = .ok tree ∧
      tree.IsPath path ∧ path.length = 6 ∧ levelsOnPath false path = 3 ∧
      levelsOnPath false path ≤ 128 ∧
      countedFormula false 129 "x^\x7b\\hat\x7by\x7d\x7d" = .ok (tree, 0) := by
  have hparse : parseFormula false "x^\x7b\\hat\x7by\x7d\x7d" =
      .ok (.sequence false [.script .over (.literal "x")
        (.sequence true [.unary .braced "\\hat" (.sequence true [.literal "y"])])]) := by
    with_unfolding_all rfl
  have hpath : (Node.sequence false [.script .over (.literal "x")
      (.sequence true [.unary .braced "\\hat" (.sequence true [.literal "y"])])]).IsPath _ :=
    .step (List.mem_singleton_self _) (.step (List.mem_cons_of_mem _ (List.mem_singleton_self _))
      (.step (List.mem_singleton_self _) (.step (List.mem_singleton_self _)
        (.step (List.mem_singleton_self _) (.leaf rfl)))))
  obtain ⟨hbounded, hcounted⟩ :=
    depth_bounded_and_restored false "x^\x7b\\hat\x7by\x7d\x7d"
  refine ⟨_, _, hparse, hpath, rfl, ?_, ((hbounded _ hparse).1 _ hpath).1, ?_⟩
  · with_unfolding_all rfl
  · rw [hcounted 129 (by decide), hparse]

end FormulaMarkup
