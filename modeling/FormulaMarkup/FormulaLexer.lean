import FormulaMarkup.AlphabeticCharacters
import FormulaMarkup.BlankCharacters
import FormulaMarkup.CommandShapes
import FormulaMarkup.FormulaTokens

/-!
# Reading tokens

The reader goes over the characters of a formula once.  Blanks and comments
between tokens are passed over; a comment runs from a percent sign to the end
of its line.  The reader remembers the braces and environments that are open,
so that a closing brace without an opening one, and at the end of the formula
whatever is still open, come out as malformed tokens.

Directly after a command whose argument is raw text, a braced argument is read
as one token, in which only braces and backslashes have a meaning: braces must
match, and a backslash hides the character after it.

Every split of the characters below returns what it took and what it left, and
reading a token that is neither malformed nor the end of the formula leaves
less than there was.  This is why the list of tokens is finite.
-/

namespace FormulaMarkup

/-- Takes the blanks and comments at the front.  Inside a comment everything
up to a line break is taken. -/
def splitGap : Bool → List Char → List Char × List Char
  | _, [] => ([], [])
  | inComment, c :: rest =>
      if inComment || isBlank c || c == '%' then
        let (gap, after) := splitGap (c != '\n' && (inComment || c == '%')) rest
        (c :: gap, after)
      else ([], c :: rest)

/-- Takes the name of a control sequence after its backslash: all ASCII letters
and, if there is a command of that name, one asterisk; or, if there is no
letter, one character of any kind. -/
def splitControlName (cs : List Char) : List Char × List Char :=
  let word := cs.takeWhile Char.isAlpha
  let after := cs.dropWhile Char.isAlpha
  if word = [] then (cs.take 1, cs.drop 1)
  else if after.head? = some '*' ∧ (shape? (String.ofList ('\\' :: word ++ ['*']))).isSome then
    (word ++ ['*'], after.tail)
  else (word, after)

def isEnvironmentNameCharacter (c : Char) : Bool := c.isAlphanum || c == '*'

/-- Takes the name of an environment with its braces.  There is no name if the
braces are missing or hold another character, the first of which is taken. -/
def splitEnvironmentName : List Char → Option (List Char) × List Char × List Char
  | '{' :: after =>
      let word := after.takeWhile isEnvironmentNameCharacter
      match after.dropWhile isEnvironmentNameCharacter with
      | [] => (none, '{' :: word, [])
      | c :: rest =>
          (if c = '}' then some word else none, '{' :: word ++ [c], rest)
  | cs => (none, [], cs)

/-- How the reading of a text box ended. -/
inductive TextBoxEnd where
  | closed
  | unclosed
  | disallowed
deriving Repr, DecidableEq

/-- Takes the content of a text box whose opening brace has been read, up to
the brace that closes it.  The number counts the braces that are open inside. -/
def splitTextBox : Nat → List Char → List Char × TextBoxEnd × List Char
  | _, [] => ([], .unclosed, [])
  | _, ['\\'] => (['\\'], .unclosed, [])
  | depth, '\\' :: hidden :: rest =>
      let (content, outcome, after) := splitTextBox depth rest
      ('\\' :: hidden :: content, outcome, after)
  | depth, c :: rest =>
      if c = '\x00' then ([], .disallowed, rest)
      else if c = '}' ∧ depth = 0 then ([], .closed, rest)
      else
        let inner := if c = '{' then depth + 1 else if c = '}' then depth - 1 else depth
        let (content, outcome, after) := splitTextBox inner rest
        (c :: content, outcome, after)

/-- What is known between two tokens. -/
structure Lexer where
  /-- The byte offset of the next character. -/
  position : Nat
  /-- The characters that are still to be read. -/
  rest : List Char
  /-- The offsets of the open braces, the last one first. -/
  openGroups : List Nat
  /-- The names and spans of the open environments, the last one first. -/
  openEnvironments : List (String × Span)
  /-- Whether the last token asks for a text box. -/
  textBoxNext : Bool
  /-- Whether the list of tokens has ended. -/
  finished : Bool

namespace Lexer

def start (formula : String) : Lexer where
  position := 0
  rest := formula.toList
  openGroups := []
  openEnvironments := []
  textBoxNext := false
  finished := false

/-- Moves over characters that were taken. -/
def advance (lexer : Lexer) (taken rest : List Char) : Lexer :=
  { lexer with position := lexer.position + byteLength taken, rest := rest }

@[simp] theorem rest_advance (lexer : Lexer) (taken rest : List Char) :
    (lexer.advance taken rest).rest = rest := rfl

def skipGap (lexer : Lexer) : Lexer :=
  lexer.advance (splitGap false lexer.rest).1 (splitGap false lexer.rest).2

/-- The token at the end of the formula.  Of what is still open, the one that
was opened last is reported. -/
def endLexeme (lexer : Lexer) : Lexeme :=
  match lexer.openGroups, lexer.openEnvironments with
  | [], [] => ⟨.endOfInput, .zeroWidth lexer.position⟩
  | group :: _, [] => ⟨.malformed .unclosedGroup, ⟨group, group + 1⟩⟩
  | [], (name, span) :: _ => ⟨.malformed (.unclosedEnvironment name), span⟩
  | group :: _, (name, span) :: _ =>
      if span.start < group then ⟨.malformed .unclosedGroup, ⟨group, group + 1⟩⟩
      else ⟨.malformed (.unclosedEnvironment name), span⟩

/-- A token that takes the given characters. -/
def emit (lexer : Lexer) (token : Token) (taken rest : List Char) : Lexeme × Lexer :=
  (⟨token, ⟨lexer.position, lexer.position + byteLength taken⟩⟩, lexer.advance taken rest)

/-- Reads a token of one character. -/
def scanCharacter (lexer : Lexer) (c : Char) (rest : List Char) : Lexeme × Lexer :=
  match c with
  | '\x00' => lexer.emit (.malformed (.disallowedCharacter c)) [c] rest
  | '{' => { lexer with openGroups := lexer.position :: lexer.openGroups }.emit .openBrace [c] rest
  | '}' =>
      match lexer.openGroups with
      | [] => lexer.emit (.malformed .unmatchedClose) [c] rest
      | _ :: outer => { lexer with openGroups := outer }.emit .closeBrace [c] rest
  | '^' => lexer.emit (.script .over) [c] rest
  | '_' => lexer.emit (.script .under) [c] rest
  | '&' => lexer.emit .nextCell [c] rest
  | c =>
      if c.isDigit then lexer.emit (.digit c) [c] rest
      else if isAlphabetic c then lexer.emit (.letter c) [c] rest
      else lexer.emit (.symbol c) [c] rest

/-- Reads a text box, whose opening brace is the next character. -/
def scanTextBox (lexer : Lexer) (after : List Char) : Lexeme × Lexer :=
  match splitTextBox 0 after with
  | (content, .closed, rest) =>
      lexer.emit (.rawText (String.ofList content)) ('{' :: content ++ ['}']) rest
  | (content, .unclosed, rest) =>
      lexer.emit (.malformed .unclosedText) ('{' :: content) rest
  | (content, .disallowed, rest) =>
      (lexer.advance ('{' :: content) ('\x00' :: rest)).emit
        (.malformed (.disallowedCharacter '\x00')) ['\x00'] rest

/-- Reads the name of an environment after its command, which starts at the
given offset and is already passed. -/
def scanEnvironment (lexer : Lexer) (begins : Bool) (start : Nat) : Lexeme × Lexer :=
  let named := lexer.skipGap
  let name := splitEnvironmentName named.rest
  let after := named.advance name.2.1 name.2.2
  let span : Span := ⟨start, after.position⟩
  match name.1 with
  | none => (⟨.malformed .unclosedEnvironmentName, span⟩, after)
  | some word =>
      let title := String.ofList word
      if begins then
        (⟨.beginning title, span⟩,
          { after with openEnvironments := (title, span) :: after.openEnvironments })
      else
        (⟨.ending title, span⟩, { after with openEnvironments := after.openEnvironments.tail })

/-- Reads a token that begins with a backslash, which is the next character. -/
def scanControl (lexer : Lexer) (after : List Char) : Lexeme × Lexer :=
  match after with
  | [] => lexer.emit (.malformed .incompleteCommand) ['\\'] []
  | '\x00' :: _ =>
      (⟨.malformed (.disallowedCharacter '\x00'),
          ⟨lexer.position + 1, lexer.position + 2⟩⟩,
        lexer.advance ['\\'] after)
  | '\\' :: rest => lexer.emit .nextRow ['\\', '\\'] rest
  | cs =>
      let word := (splitControlName cs).1
      let rest := (splitControlName cs).2
      let name := String.ofList ('\\' :: word)
      let passed := lexer.advance ('\\' :: word) rest
      if name = "\\begin" then passed.scanEnvironment true lexer.position
      else if name = "\\end" then passed.scanEnvironment false lexer.position
      else
        { lexer with textBoxNext := shape? name == some ArgumentShape.rawText }.emit
          (.command name) ('\\' :: word) rest

/-- Reads the next token, whatever came before it. -/
def scan (lexer : Lexer) : Lexeme × Lexer :=
  let here := { lexer.skipGap with textBoxNext := false }
  match here.rest with
  | [] => (here.endLexeme, here)
  | c :: after =>
      if lexer.textBoxNext && c == '{' then here.scanTextBox after
      else if c == '\\' then here.scanControl after
      else here.scanCharacter c after

/-- The next element of the list of tokens, which ends after a malformed token
and before the end of the formula. -/
def next? (lexer : Lexer) : Option Lexeme × Lexer :=
  if lexer.finished then (none, lexer)
  else
    let (lexeme, after) := lexer.scan
    match lexeme.token with
    | .endOfInput => (none, { after with finished := true })
    | .malformed _ => (some lexeme, { after with finished := true })
    | _ => (some lexeme, after)

end Lexer

theorem splitGap_append (inComment : Bool) (cs : List Char) :
    (splitGap inComment cs).1 ++ (splitGap inComment cs).2 = cs := by
  induction cs generalizing inComment with
  | nil => simp [splitGap]
  | cons c rest ih =>
      simp only [splitGap]
      split
      · simp [ih]
      · simp

theorem length_splitGap_le (inComment : Bool) (cs : List Char) :
    (splitGap inComment cs).2.length ≤ cs.length := by
  have h := congrArg List.length (splitGap_append inComment cs)
  simp only [List.length_append] at h
  omega

theorem splitControlName_append (cs : List Char) :
    (splitControlName cs).1 ++ (splitControlName cs).2 = cs := by
  have hsplit : cs.takeWhile Char.isAlpha ++ cs.dropWhile Char.isAlpha = cs :=
    List.takeWhile_append_dropWhile
  simp only [splitControlName]
  split
  · exact List.take_append_drop 1 cs
  · split
    · next hstar =>
        obtain ⟨rest, hrest⟩ := List.head?_eq_some_iff.mp hstar.1
        rw [hrest] at hsplit
        simpa [hrest] using hsplit
    · exact hsplit

theorem splitEnvironmentName_append (cs : List Char) :
    (splitEnvironmentName cs).2.1 ++ (splitEnvironmentName cs).2.2 = cs := by
  unfold splitEnvironmentName
  split
  · next after =>
      have hsplit : after.takeWhile isEnvironmentNameCharacter ++
          after.dropWhile isEnvironmentNameCharacter = after :=
        List.takeWhile_append_dropWhile
      cases hrest : after.dropWhile isEnvironmentNameCharacter with
      | nil => simpa [hrest] using hsplit
      | cons c rest => simpa [hrest] using hsplit
  · simp

theorem length_splitTextBox_le (depth : Nat) (cs : List Char) :
    (splitTextBox depth cs).2.2.length ≤ cs.length := by
  fun_induction splitTextBox depth cs with
  | case1 => simp
  | case2 => simp
  | case3 depth hidden rest content outcome after hsplit ih =>
      rw [hsplit] at ih
      exact Nat.le_succ_of_le (Nat.le_succ_of_le ih)
  | case4 => simp
  | case5 => simp
  | case6 depth c rest _ _ _ _ inner content outcome after hsplit ih =>
      rw [hsplit] at ih
      exact Nat.le_succ_of_le ih

namespace Lexer

@[simp] theorem rest_emit (lexer : Lexer) (token : Token) (taken rest : List Char) :
    (lexer.emit token taken rest).2.rest = rest := rfl

theorem length_rest_skipGap_le (lexer : Lexer) :
    lexer.skipGap.rest.length ≤ lexer.rest.length :=
  length_splitGap_le false lexer.rest

theorem rest_scanCharacter (lexer : Lexer) (c : Char) (rest : List Char) :
    (lexer.scanCharacter c rest).2.rest = rest := by
  unfold scanCharacter
  split <;> try rfl
  · split <;> rfl
  · split
    · rfl
    · split <;> rfl

theorem length_rest_scanTextBox_le (lexer : Lexer) (after : List Char) :
    (lexer.scanTextBox after).2.rest.length ≤ after.length := by
  have hsplit := length_splitTextBox_le 0 after
  unfold scanTextBox
  split <;> next hcase => simpa [hcase] using hsplit

theorem length_rest_scanEnvironment_le (lexer : Lexer) (begins : Bool) (start : Nat) :
    (lexer.scanEnvironment begins start).2.rest.length ≤ lexer.rest.length := by
  have hgap := lexer.length_rest_skipGap_le
  have hname := congrArg List.length (splitEnvironmentName_append lexer.skipGap.rest)
  simp only [List.length_append] at hname
  simp only [scanEnvironment]
  split
  · simp only [rest_advance]
    omega
  · split <;> simp only [rest_advance] <;> omega

theorem length_rest_scanControl_le (lexer : Lexer) (after : List Char) :
    (lexer.scanControl after).2.rest.length ≤ after.length := by
  unfold scanControl
  split
  · simp
  · simp
  · simp
  · have hname := congrArg List.length (splitControlName_append after)
    simp only [List.length_append] at hname
    have hrest : (splitControlName after).2.length ≤ after.length := by omega
    simp only
    split
    · exact Nat.le_trans (length_rest_scanEnvironment_le _ _ _) hrest
    · split
      · exact Nat.le_trans (length_rest_scanEnvironment_le _ _ _) hrest
      · simpa using hrest

/-- Before the end of the formula, reading a token takes at least one character. -/
theorem length_rest_scan_lt (lexer : Lexer) (hlast : lexer.scan.1.token.isLast = false) :
    lexer.scan.2.rest.length < lexer.rest.length := by
  have hgap := lexer.length_rest_skipGap_le
  unfold scan at hlast ⊢
  simp only at hlast ⊢
  split at hlast
  · next hrest =>
      revert hlast
      simp only [endLexeme]
      repeat' split
      all_goals simp [Token.isLast]
  · next c after hrest =>
      simp only [hrest] at hgap ⊢
      simp only [List.length_cons] at hgap
      split
      · exact Nat.lt_of_le_of_lt (length_rest_scanTextBox_le _ _) (by omega)
      · split
        · exact Nat.lt_of_le_of_lt (length_rest_scanControl_le _ _) (by omega)
        · rw [rest_scanCharacter]
          omega

/-- The tokens from here on, up to the end of the formula or the first
malformed token, which is kept. -/
def lexemes (lexer : Lexer) : List Lexeme :=
  match _hscan : lexer.scan with
  | (lexeme, after) =>
      if _hlast : lexeme.token.isLast then
        if lexeme.token = .endOfInput then [] else [lexeme]
      else lexeme :: after.lexemes
termination_by lexer.rest.length
decreasing_by
  have hlt := lexer.length_rest_scan_lt (by simpa [_hscan] using _hlast)
  simpa [_hscan] using hlt

end Lexer

/-- The tokens of a formula. -/
def tokenize (formula : String) : List Lexeme := (Lexer.start formula).lexemes

end FormulaMarkup
