import FormulaMarkup.FormulaLexer
import FormulaMarkup.LiteralClasses

/-!
# Runs of the lexer

A run takes a lexer over some characters and collects the lexemes.  Runs are
composed one after the other, so the lexemes of a text are known as soon as
they are known for its parts; what follows a part matters only for control
words, which must not go on.
-/

namespace FormulaMarkup
namespace Lexer

/-- The lexer goes from one place to another and reads these lexemes on the way. -/
inductive Reads : Lexer → List Lexeme → Lexer → Prop
  | done {lexer : Lexer} : Reads lexer [] lexer
  | next {lexer after final : Lexer} {lexeme : Lexeme} {lexemes : List Lexeme}
      (hscan : lexer.scan = (lexeme, after)) (hlast : lexeme.token.isLast = false)
      (hrest : Reads after lexemes final) :
      Reads lexer (lexeme :: lexemes) final
  | blank {lexer final : Lexer} {c : Char} {rest : List Char} {lexemes : List Lexeme}
      (hrest : lexer.rest = c :: rest) (hblank : isBlank c = true)
      (hreads : Reads (lexer.advance [c] rest) lexemes final) :
      Reads lexer lexemes final

theorem Reads.trans
    {lexer middle final : Lexer} {first second : List Lexeme}
    (hfirst : Reads lexer first middle) (hsecond : Reads middle second final) :
    Reads lexer (first ++ second) final := by
  induction hfirst with
  | done => exact hsecond
  | next hscan hlast _ ih => exact .next hscan hlast (ih hsecond)
  | blank hrest hblank _ ih => exact .blank hrest hblank (ih hsecond)

theorem lexemes_eq (lexer : Lexer) :
    lexer.lexemes =
      if lexer.scan.1.token.isLast then
        if lexer.scan.1.token = .endOfInput then [] else [lexer.scan.1]
      else lexer.scan.1 :: lexer.scan.2.lexemes := by
  rw [lexemes]
  split
  next lexeme after hscan =>
    rw [hscan]
    split <;> rfl

theorem lexemes_of_scan
    {lexer after : Lexer} {lexeme : Lexeme}
    (hscan : lexer.scan = (lexeme, after)) (hlast : lexeme.token.isLast = false) :
    lexer.lexemes = lexeme :: after.lexemes := by
  rw [lexemes_eq, hscan]
  simp [hlast]

theorem skipGap_of_blank
    {lexer : Lexer} {c : Char} {rest : List Char}
    (hrest : lexer.rest = c :: rest) (hblank : isBlank c = true) :
    (lexer.advance [c] rest).skipGap = lexer.skipGap := by
  have hpercent : (c == '%') = false := by
    rw [beq_eq_false_iff_ne]
    rintro rfl
    revert hblank
    decide
  simp [skipGap, advance, hrest, splitGap, hblank, hpercent, Nat.add_assoc]

theorem scan_of_blank
    {lexer : Lexer} {c : Char} {rest : List Char}
    (hrest : lexer.rest = c :: rest) (hblank : isBlank c = true) :
    (lexer.advance [c] rest).scan = lexer.scan := by
  have hgap := skipGap_of_blank hrest hblank
  have hbox : (lexer.advance [c] rest).textBoxNext = lexer.textBoxNext := rfl
  unfold scan
  rw [hgap, hbox]

theorem lexemes_of_blank
    {lexer : Lexer} {c : Char} {rest : List Char}
    (hrest : lexer.rest = c :: rest) (hblank : isBlank c = true) :
    (lexer.advance [c] rest).lexemes = lexer.lexemes := by
  rw [lexemes_eq, scan_of_blank hrest hblank, ← lexemes_eq]

theorem Reads.lexemes_eq
    {lexer final : Lexer} {lexemes : List Lexeme} (hreads : Reads lexer lexemes final) :
    lexer.lexemes = lexemes ++ final.lexemes := by
  induction hreads with
  | done => rfl
  | next hscan hlast _ ih => rw [lexemes_of_scan hscan hlast, ih, List.cons_append]
  | blank hrest hblank _ ih => rw [← lexemes_of_blank hrest hblank, ih]

theorem Reads.single
    {lexer after : Lexer} {lexeme : Lexeme}
    (hscan : lexer.scan = (lexeme, after)) (hlast : lexeme.token.isLast = false) :
    Reads lexer [lexeme] after :=
  .next hscan hlast .done

@[simp] theorem advance_advance
    (lexer : Lexer) (first second : List Char) (middle rest : List Char) :
    (lexer.advance first middle).advance second rest = lexer.advance (first ++ second) rest := by
  simp [advance, Nat.add_assoc]

theorem advance_nil {lexer : Lexer} {rest : List Char} (hrest : lexer.rest = rest) :
    lexer.advance [] rest = lexer := by
  subst hrest
  rfl

theorem skipGap_of_visible
    {lexer : Lexer} {c : Char} {after : List Char}
    (hrest : lexer.rest = c :: after) (hblank : isBlank c = false) (hpercent : c ≠ '%') :
    lexer.skipGap = lexer := by
  cases lexer
  simp_all [skipGap, advance, splitGap]

theorem scan_of_visible
    {lexer : Lexer} {c : Char} {after : List Char}
    (hrest : lexer.rest = c :: after) (hblank : isBlank c = false) (hpercent : c ≠ '%')
    (hbox : lexer.textBoxNext = false) :
    lexer.scan = if c = '\\' then lexer.scanControl after else lexer.scanCharacter c after := by
  have hgap := skipGap_of_visible hrest hblank hpercent
  have hhere : { lexer.skipGap with textBoxNext := false } = lexer := by
    rw [hgap]
    cases lexer
    simp_all
  unfold scan
  rw [hhere]
  simp [hrest, hbox]

end Lexer

/-! ## Texts that are read wherever they stand

Nothing is said about what follows such a text, so these texts can be put
together.  A control word is none, since its name may go on; with a blank or
an opening brace after it, it is one. -/

/-- Wherever the text is written, lexemes with the property are read. -/
def Spells (text : List Char) (property : List Lexeme → Prop) : Prop :=
  ∀ (lexer : Lexer) (suffix : List Char),
    lexer.textBoxNext = false → lexer.rest = text ++ suffix →
      ∃ lexemes, lexer.Reads lexemes (lexer.advance text suffix) ∧ property lexemes

namespace Spells

variable {text second : List Char} {property : List Lexeme → Prop}

theorem mono
    {weaker : List Lexeme → Prop} (htext : Spells text property)
    (hweaker : ∀ lexemes, property lexemes → weaker lexemes) :
    Spells text weaker := by
  intro lexer suffix hbox hrest
  obtain ⟨lexemes, hreads, hproperty⟩ := htext lexer suffix hbox hrest
  exact ⟨lexemes, hreads, hweaker lexemes hproperty⟩

theorem nil (hproperty : property []) : Spells [] property := by
  intro lexer suffix _ hrest
  have hstay : lexer.advance [] suffix = lexer := Lexer.advance_nil hrest
  rw [hstay]
  exact ⟨[], .done, hproperty⟩

theorem append
    {ofSecond both : List Lexeme → Prop}
    (htext : Spells text property) (hsecond : Spells second ofSecond)
    (hboth : ∀ first rest, property first → ofSecond rest → both (first ++ rest)) :
    Spells (text ++ second) both := by
  intro lexer suffix hbox hrest
  rw [List.append_assoc] at hrest
  obtain ⟨first, hfirst, hproperty⟩ := htext lexer (second ++ suffix) hbox hrest
  obtain ⟨rest, hreads, hrest⟩ :=
    hsecond (lexer.advance text (second ++ suffix)) suffix hbox rfl
  rw [Lexer.advance_advance] at hreads
  exact ⟨first ++ rest, hfirst.trans hreads, hboth first rest hproperty hrest⟩

end Spells

/-- A character that is a token by itself and opens or closes nothing. -/
structure IsPlain (c : Char) : Prop where
  blank : isBlank c = false
  special : c ∉ ['%', '\\', '{', '}', '\x00']

/-- The token that a plain character is. -/
def characterToken (c : Char) : Token :=
  if c = '^' then .script .over
  else if c = '_' then .script .under
  else if c = '&' then .nextCell
  else if c.isDigit then .digit c
  else if isAlphabetic c then .letter c
  else .symbol c

theorem isLast_characterToken (c : Char) : (characterToken c).isLast = false := by
  unfold characterToken
  repeat' split
  all_goals rfl

namespace Lexer

theorem scanCharacter_of_isPlain
    (lexer : Lexer) {c : Char} (after : List Char) (hplain : IsPlain c) :
    lexer.scanCharacter c after = lexer.emit (characterToken c) [c] after := by
  have hspecial := hplain.special
  simp only [List.mem_cons, List.not_mem_nil, or_false, not_or] at hspecial
  obtain ⟨-, -, hopen, hclose, hnul⟩ := hspecial
  unfold scanCharacter
  split
  · exact absurd rfl hnul
  · exact absurd rfl hopen
  · exact absurd rfl hclose
  · rfl
  · rfl
  · rfl
  · simp only [characterToken]
    repeat' split
    all_goals rfl

theorem reads_of_isPlain
    {lexer : Lexer} {c : Char} {after : List Char}
    (hbox : lexer.textBoxNext = false) (hrest : lexer.rest = c :: after) (hplain : IsPlain c) :
    lexer.Reads [⟨characterToken c, ⟨lexer.position, lexer.position + c.utf8Size⟩⟩]
      (lexer.advance [c] after) := by
  have hpercent : c ≠ '%' := fun h => hplain.special (by simp [h])
  have hslash : c ≠ '\\' := fun h => hplain.special (by simp [h])
  refine .single ?_ (isLast_characterToken c)
  rw [scan_of_visible hrest hplain.blank hpercent hbox, if_neg hslash,
    scanCharacter_of_isPlain lexer after hplain]
  rfl

end Lexer

namespace Spells

variable {text : List Char} {property : List Lexeme → Prop}

theorem plain {c : Char} (hplain : IsPlain c) :
    Spells [c] fun lexemes => ∃ span, lexemes = [⟨characterToken c, span⟩] := by
  intro lexer suffix hbox hrest
  exact ⟨_, Lexer.reads_of_isPlain hbox hrest hplain, _, rfl⟩

theorem blank {c : Char} (hblank : isBlank c = true) : Spells [c] fun lexemes => lexemes = [] := by
  intro lexer suffix _ hrest
  exact ⟨[], .blank hrest hblank .done, rfl⟩

theorem rowBreak : Spells ['\\', '\\'] fun lexemes => ∃ span, lexemes = [⟨.nextRow, span⟩] := by
  intro lexer suffix hbox hrest
  have hscan : lexer.scan =
      (⟨.nextRow, ⟨lexer.position, lexer.position + byteLength ['\\', '\\']⟩⟩,
        lexer.advance ['\\', '\\'] suffix) := by
    rw [Lexer.scan_of_visible hrest (by decide) (by decide) hbox]
    rfl
  exact ⟨_, .single hscan rfl, _, rfl⟩

/-- What stands in braces is read with one more group open, and after the
closing brace the open groups are as before. -/
theorem braces (htext : Spells text property) :
    Spells ('{' :: (text ++ ['}'])) fun lexemes =>
      ∃ opening closing inner, property inner ∧
        lexemes = ⟨.openBrace, opening⟩ :: (inner ++ [⟨.closeBrace, closing⟩]) := by
  intro lexer suffix hbox hrest
  let inside : Lexer :=
    { lexer with openGroups := lexer.position :: lexer.openGroups }.advance ['{']
      (text ++ '}' :: suffix)
  let before : Lexer := inside.advance text ('}' :: suffix)
  let opening : Span := ⟨lexer.position, lexer.position + byteLength ['{']⟩
  let closing : Span := ⟨before.position, before.position + byteLength ['}']⟩
  have hopen : lexer.scan = (⟨.openBrace, opening⟩, inside) := by
    have hhere : lexer.rest = '{' :: (text ++ '}' :: suffix) := by simpa using hrest
    rw [Lexer.scan_of_visible hhere (by decide) (by decide) hbox]
    rfl
  have hclose : before.scan =
      (⟨.closeBrace, closing⟩, lexer.advance ('{' :: (text ++ ['}'])) suffix) := by
    have hbefore : before.rest = '}' :: suffix := rfl
    rw [Lexer.scan_of_visible hbefore (by decide) (by decide) hbox]
    simp [Lexer.scanCharacter, Lexer.emit, closing, before, inside, Lexer.advance, Nat.add_assoc]
  obtain ⟨inner, hreads, hproperty⟩ := htext inside ('}' :: suffix) hbox rfl
  exact ⟨_, .next hopen rfl (hreads.trans (.single hclose rfl)),
    opening, closing, inner, hproperty, rfl⟩

end Spells

/-! ## Written control sequences -/

/-- The names of control sequences, without their backslashes.  A word that
begins or ends an environment is none. -/
inductive IsCommandName : List Char → Prop
  | word {letters : List Char} (hletters : ∀ c ∈ letters, c.isAlpha = true)
      (hne : letters ≠ []) (hbegin : letters ≠ "begin".toList) (hend : letters ≠ "end".toList) :
      IsCommandName letters
  | starred {letters : List Char} (hletters : ∀ c ∈ letters, c.isAlpha = true)
      (hne : letters ≠ [])
      (hshape : (shape? (String.ofList ('\\' :: letters ++ ['*']))).isSome = true) :
      IsCommandName (letters ++ ['*'])
  | symbol {c : Char} (hletter : c.isAlpha = false) (hslash : c ≠ '\\') (hnul : c ≠ '\x00') :
      IsCommandName [c]

/-- A control sequence with its backslash. -/
def IsCommand (name : String) : Prop :=
  ∃ word, name = String.ofList ('\\' :: word) ∧ IsCommandName word

/-- No name of a command goes on here. -/
def StopsName (suffix : List Char) : Prop :=
  ∀ c ∈ suffix.head?, c.isAlpha = false ∧ c ≠ '*'

theorem stopsName_blank (suffix : List Char) : StopsName (' ' :: suffix) := by
  intro c hc
  cases hc
  decide

theorem stopsName_brace (suffix : List Char) : StopsName ('{' :: suffix) := by
  intro c hc
  cases hc
  decide

theorem takeWhile_append_of_stop
    {p : Char → Bool} {first second : List Char}
    (hfirst : ∀ c ∈ first, p c = true) (hsecond : ∀ c ∈ second.head?, p c = false) :
    (first ++ second).takeWhile p = first ∧ (first ++ second).dropWhile p = second := by
  rw [List.takeWhile_append_of_pos hfirst, List.dropWhile_append_of_pos hfirst]
  cases second with
  | nil => simp
  | cons c rest => simp [hsecond c rfl]

theorem splitControlName_word
    {letters suffix : List Char}
    (hletters : ∀ c ∈ letters, c.isAlpha = true) (hne : letters ≠ [])
    (hstop : StopsName suffix) :
    splitControlName (letters ++ suffix) = (letters, suffix) := by
  obtain ⟨htake, hdrop⟩ := takeWhile_append_of_stop hletters fun c hc => (hstop c hc).1
  have hstar : suffix.head? ≠ some '*' := fun h => (hstop '*' h).2 rfl
  simp [splitControlName, htake, hdrop, hne, hstar]

theorem isControlWord_word
    {letters : List Char} (hletters : ∀ c ∈ letters, c.isAlpha = true) (hne : letters ≠ []) :
    isControlWord (String.ofList ('\\' :: letters)) = true := by
  have hlast : ('\\' :: letters).getLast? = some (letters.getLast hne) := by
    rw [List.getLast?_cons, List.getLast?_eq_some_getLast hne]
    rfl
  simp only [isControlWord, String.toList_ofList, hlast]
  simp [hletters _ (List.getLast_mem hne)]

theorem IsCommandName.splitControlName_append
    {word suffix : List Char} (hname : IsCommandName word)
    (hstop : isControlWord (String.ofList ('\\' :: word)) = true → StopsName suffix) :
    splitControlName (word ++ suffix) = (word, suffix) := by
  cases hname with
  | word hletters hne _ _ =>
      exact splitControlName_word hletters hne (hstop (isControlWord_word hletters hne))
  | @starred letters hletters hne hshape =>
      have hsuffix : ∀ c ∈ ('*' :: suffix).head?, c.isAlpha = false := by
        intro c hc
        cases hc
        decide
      obtain ⟨htake, hdrop⟩ := takeWhile_append_of_stop hletters hsuffix
      unfold splitControlName
      simp only [List.append_assoc, List.singleton_append, htake, hdrop]
      rw [if_neg hne, if_pos ⟨rfl, hshape⟩]
      rfl
  | symbol hletter _ _ => simp [splitControlName, hletter]

theorem IsCommandName.head
    {word : List Char} (hname : IsCommandName word) :
    ∃ c rest, word = c :: rest ∧ c ≠ '\\' ∧ c ≠ '\x00' := by
  have hletter {c : Char} (halpha : c.isAlpha = true) : c ≠ '\\' ∧ c ≠ '\x00' := by
    constructor
    all_goals
      rintro rfl
      revert halpha
      decide
  cases hname with
  | word hletters hne _ _ =>
      obtain ⟨c, rest, rfl⟩ := List.exists_cons_of_ne_nil hne
      exact ⟨c, rest, rfl, hletter (hletters c (by simp))⟩
  | starred hletters hne _ =>
      obtain ⟨c, rest, rfl⟩ := List.exists_cons_of_ne_nil hne
      exact ⟨c, rest ++ ['*'], rfl, hletter (hletters c (by simp))⟩
  | symbol _ hslash hnul => exact ⟨_, [], rfl, hslash, hnul⟩

theorem IsCommandName.ne_environment
    {word : List Char} (hname : IsCommandName word) :
    String.ofList ('\\' :: word) ≠ "\\begin" ∧ String.ofList ('\\' :: word) ≠ "\\end" := by
  have hlist {text : String} (htext : String.ofList ('\\' :: word) = text) :
      '\\' :: word = text.toList := by
    rw [← htext, String.toList_ofList]
  constructor
  all_goals
    intro htext
    have hword := hlist htext
    cases hname with
    | word hletters hne hbegin hend => simp_all
    | @starred letters hletters hne hshape =>
        have hstar : '*' ∈ '\\' :: (letters ++ ['*']) := by simp
        rw [hword] at hstar
        exact absurd hstar (by decide)
    | symbol => simp at hword

namespace Lexer

/-- The lexer after a command, which asks for a text box if its argument is raw text. -/
def afterCommand (lexer : Lexer) (name : String) (taken rest : List Char) : Lexer :=
  { lexer with textBoxNext := shape? name == some ArgumentShape.rawText }.advance taken rest

/-- What is read after a backslash, if it is known where the name ends. -/
theorem scan_of_name
    {lexer : Lexer} {word suffix : List Char}
    (hhead : ∃ c rest, word = c :: rest ∧ c ≠ '\\' ∧ c ≠ '\x00')
    (hsplit : splitControlName (word ++ suffix) = (word, suffix))
    (hbox : lexer.textBoxNext = false) (hrest : lexer.rest = '\\' :: (word ++ suffix)) :
    lexer.scan =
      let name := String.ofList ('\\' :: word)
      let passed := lexer.advance ('\\' :: word) suffix
      if name = "\\begin" then passed.scanEnvironment true lexer.position
      else if name = "\\end" then passed.scanEnvironment false lexer.position
      else
        (⟨.command name, ⟨lexer.position, lexer.position + byteLength ('\\' :: word)⟩⟩,
          lexer.afterCommand name ('\\' :: word) suffix) := by
  obtain ⟨c, rest, rfl, hslash, hnul⟩ := hhead
  rw [scan_of_visible hrest (by decide) (by decide) hbox, if_pos rfl]
  unfold scanControl
  split
  · next hnil => simp at hnil
  · next hcons => exact absurd (List.cons.inj hcons).1 hnul
  · next hcons => exact absurd (List.cons.inj hcons).1 hslash
  · simp only [hsplit]
    rfl

theorem scan_of_command
    {lexer : Lexer} {word suffix : List Char} (hname : IsCommandName word)
    (hstop : isControlWord (String.ofList ('\\' :: word)) = true → StopsName suffix)
    (hbox : lexer.textBoxNext = false) (hrest : lexer.rest = '\\' :: (word ++ suffix)) :
    lexer.scan =
      (⟨.command (String.ofList ('\\' :: word)),
          ⟨lexer.position, lexer.position + byteLength ('\\' :: word)⟩⟩,
        lexer.afterCommand (String.ofList ('\\' :: word)) ('\\' :: word) suffix) := by
  obtain ⟨hbegin, hend⟩ := hname.ne_environment
  rw [scan_of_name hname.head (hname.splitControlName_append hstop) hbox hrest]
  simp only
  rw [if_neg hbegin, if_neg hend]

end Lexer

namespace Spells

variable {text : List Char} {property : List Lexeme → Prop}

theorem command
    {name : String} (hname : IsCommand name) (hshape : shape? name ≠ some .rawText)
    (hstop : isControlWord name = true → ∀ suffix, StopsName (text ++ suffix))
    (htext : Spells text property) :
    Spells (name.toList ++ text) fun lexemes =>
      ∃ span rest, property rest ∧ lexemes = ⟨.command name, span⟩ :: rest := by
  intro lexer suffix hbox hrest
  obtain ⟨word, rfl, hname⟩ := hname
  rw [String.toList_ofList] at hrest ⊢
  have hhere : lexer.rest = '\\' :: (word ++ (text ++ suffix)) := by simpa using hrest
  have hscan := Lexer.scan_of_command hname (fun hword => hstop hword suffix) hbox hhere
  have hafter : lexer.afterCommand (String.ofList ('\\' :: word)) ('\\' :: word) (text ++ suffix) =
      lexer.advance ('\\' :: word) (text ++ suffix) := by
    cases lexer
    simp_all [Lexer.afterCommand, Lexer.advance]
  rw [hafter] at hscan
  obtain ⟨rest, hreads, hproperty⟩ :=
    htext (lexer.advance ('\\' :: word) (text ++ suffix)) suffix hbox rfl
  rw [Lexer.advance_advance] at hreads
  exact ⟨_, .next hscan rfl hreads, _, rest, hproperty, rfl⟩

end Spells

namespace Lexer

/-- The content of a text box is closed by the first brace after it. -/
def IsBoxContent (content : List Char) : Prop :=
  ∀ suffix, splitTextBox 0 (content ++ '}' :: suffix) = (content, .closed, suffix)

end Lexer

namespace Spells

theorem textBox
    {name : String} {content : List Char} (hname : IsCommand name)
    (hshape : shape? name = some .rawText) (hcontent : Lexer.IsBoxContent content) :
    Spells (name.toList ++ '{' :: (content ++ ['}'])) fun lexemes =>
      ∃ span box, lexemes = [⟨.command name, span⟩, ⟨.rawText (String.ofList content), box⟩] := by
  intro lexer suffix hbox hrest
  obtain ⟨word, rfl, hname⟩ := hname
  rw [String.toList_ofList] at hrest ⊢
  have hhere : lexer.rest = '\\' :: (word ++ '{' :: (content ++ '}' :: suffix)) := by
    simpa using hrest
  have hcommand := Lexer.scan_of_command hname (fun _ => stopsName_brace _) hbox hhere
  let boxed := lexer.afterCommand (String.ofList ('\\' :: word)) ('\\' :: word)
    ('{' :: (content ++ '}' :: suffix))
  let box : Span := ⟨boxed.position, boxed.position + byteLength ('{' :: content ++ ['}'])⟩
  have hgap : boxed.skipGap = boxed :=
    Lexer.skipGap_of_visible rfl (by decide) (by decide)
  have hasks : boxed.textBoxNext = true := by
    change (shape? (String.ofList ('\\' :: word)) == some ArgumentShape.rawText) = true
    rw [hshape]
    rfl
  have hscan : boxed.scan =
      (⟨.rawText (String.ofList content), box⟩,
        lexer.advance ('\\' :: (word ++ '{' :: (content ++ ['}']))) suffix) := by
    unfold Lexer.scan
    rw [hgap]
    have hopen : boxed.rest = '{' :: (content ++ '}' :: suffix) := rfl
    simp only [hopen, hasks]
    simp [Lexer.scanTextBox, hcontent suffix, Lexer.emit, Lexer.advance, boxed, box,
      Lexer.afterCommand, hbox, Nat.add_assoc]
  exact ⟨_, .next hcommand rfl (.single hscan rfl), _, box, rfl⟩

end Spells

namespace Lexer

theorem splitEnvironmentName_word
    {word suffix : List Char} (hword : ∀ c ∈ word, isEnvironmentNameCharacter c = true) :
    splitEnvironmentName ('{' :: (word ++ '}' :: suffix)) =
      (some word, '{' :: (word ++ ['}']), suffix) := by
  have hstop : ∀ c ∈ ('}' :: suffix).head?, isEnvironmentNameCharacter c = false := by
    intro c hc
    cases hc
    decide
  obtain ⟨htake, hdrop⟩ := takeWhile_append_of_stop hword hstop
  simp [splitEnvironmentName, htake, hdrop]

theorem scanEnvironment_of_word
    {lexer : Lexer} {word suffix : List Char} (begins : Bool) (start : Nat)
    (hword : ∀ c ∈ word, isEnvironmentNameCharacter c = true)
    (hrest : lexer.rest = '{' :: (word ++ '}' :: suffix)) :
    lexer.scanEnvironment begins start =
      let after := lexer.advance ('{' :: (word ++ ['}'])) suffix
      let span : Span := ⟨start, after.position⟩
      if begins then
        (⟨.beginning (String.ofList word), span⟩,
          { after with openEnvironments := (String.ofList word, span) :: after.openEnvironments })
      else
        (⟨.ending (String.ofList word), span⟩,
          { after with openEnvironments := after.openEnvironments.tail }) := by
  have hgap : lexer.skipGap = lexer := skipGap_of_visible hrest (by decide) (by decide)
  unfold scanEnvironment
  simp only [hgap, hrest, splitEnvironmentName_word hword]

/-- The command before the name of an environment, without its backslash. -/
def environmentCommand : Bool → List Char
  | true => "begin".toList
  | false => "end".toList

/-- The beginning or the end of an environment. -/
def environmentMark (begins : Bool) (word : List Char) : List Char :=
  '\\' :: (environmentCommand begins ++ '{' :: (word ++ ['}']))

theorem scan_of_environmentMark
    {lexer : Lexer} {word suffix : List Char} (begins : Bool)
    (hword : ∀ c ∈ word, isEnvironmentNameCharacter c = true)
    (hbox : lexer.textBoxNext = false)
    (hrest : lexer.rest = environmentMark begins word ++ suffix) :
    lexer.scan =
      let after := lexer.advance (environmentMark begins word) suffix
      let span : Span := ⟨lexer.position, after.position⟩
      if begins then
        (⟨.beginning (String.ofList word), span⟩,
          { after with openEnvironments := (String.ofList word, span) :: after.openEnvironments })
      else
        (⟨.ending (String.ofList word), span⟩,
          { after with openEnvironments := after.openEnvironments.tail }) := by
  have hletters : ∀ c ∈ environmentCommand begins, c.isAlpha = true := by
    rw [← List.all_eq_true]
    cases begins <;> decide
  have hne : environmentCommand begins ≠ [] := by cases begins <;> decide
  have hhead : ∃ c rest, environmentCommand begins = c :: rest ∧ c ≠ '\\' ∧ c ≠ '\x00' := by
    cases begins
    · exact ⟨'e', ['n', 'd'], rfl, by decide, by decide⟩
    · exact ⟨'b', ['e', 'g', 'i', 'n'], rfl, by decide, by decide⟩
  have hsplit := splitControlName_word hletters hne (stopsName_brace (word ++ '}' :: suffix))
  have hrest' : lexer.rest =
      '\\' :: (environmentCommand begins ++ '{' :: (word ++ '}' :: suffix)) := by
    simp [hrest, environmentMark]
  have hscan : lexer.scan =
      (lexer.advance ('\\' :: environmentCommand begins)
        ('{' :: (word ++ '}' :: suffix))).scanEnvironment begins lexer.position := by
    rw [scan_of_name hhead hsplit hbox hrest']
    cases begins <;> rfl
  rw [hscan, scanEnvironment_of_word begins lexer.position hword rfl]
  simp only [advance_advance]
  rfl

end Lexer

/-- What stands in an environment is read with one more environment open, and
after its end the open environments are as before. -/
theorem Spells.environment
    {word text : List Char} {property : List Lexeme → Prop}
    (hword : ∀ c ∈ word, isEnvironmentNameCharacter c = true) (htext : Spells text property) :
    Spells (Lexer.environmentMark true word ++ (text ++ Lexer.environmentMark false word))
      fun lexemes =>
        ∃ beginning ending inner, property inner ∧
          lexemes = ⟨.beginning (String.ofList word), beginning⟩ ::
            (inner ++ [⟨.ending (String.ofList word), ending⟩]) := by
  intro lexer suffix hbox hrest
  let after := Lexer.environmentMark false word ++ suffix
  let beginning : Span :=
    ⟨lexer.position, lexer.position + byteLength (Lexer.environmentMark true word)⟩
  let inside : Lexer :=
    { lexer with
        openEnvironments := (String.ofList word, beginning) :: lexer.openEnvironments }.advance
      (Lexer.environmentMark true word) (text ++ after)
  let before : Lexer := inside.advance text after
  let ending : Span :=
    ⟨before.position, before.position + byteLength (Lexer.environmentMark false word)⟩
  have hbegin : lexer.scan = (⟨.beginning (String.ofList word), beginning⟩, inside) := by
    have hhere : lexer.rest = Lexer.environmentMark true word ++ (text ++ after) := by
      simpa [after] using hrest
    rw [Lexer.scan_of_environmentMark true hword hbox hhere]
    rfl
  have hend : before.scan =
      (⟨.ending (String.ofList word), ending⟩,
        lexer.advance
          (Lexer.environmentMark true word ++ (text ++ Lexer.environmentMark false word))
          suffix) := by
    have hbefore : before.textBoxNext = false := hbox
    rw [Lexer.scan_of_environmentMark false hword hbefore rfl]
    simp [ending, before, inside, Lexer.advance, Nat.add_assoc]
  obtain ⟨inner, hreads, hproperty⟩ := htext inside after hbox rfl
  exact ⟨_, .next hbegin rfl (hreads.trans (.single hend rfl)),
    beginning, ending, inner, hproperty, rfl⟩

theorem Lexer.lexemes_of_rest_nil
    {lexer : Lexer} (hrest : lexer.rest = []) (hgroups : lexer.openGroups = [])
    (henvironments : lexer.openEnvironments = []) :
    lexer.lexemes = [] := by
  have hscan : lexer.scan.1.token = .endOfInput := by
    simp [scan, skipGap, splitGap, hrest, advance, endLexeme, hgroups, henvironments]
  rw [lexemes_eq, hscan]
  rfl

theorem Spells.tokenize
    {formula : String} {property : List Lexeme → Prop}
    (hformula : Spells formula.toList property) :
    property (tokenize formula) := by
  obtain ⟨lexemes, hreads, hproperty⟩ :=
    hformula (Lexer.start formula) [] rfl (List.append_nil _).symm
  have hend : ((Lexer.start formula).advance formula.toList []).lexemes = [] :=
    Lexer.lexemes_of_rest_nil rfl rfl rfl
  have hlexemes : FormulaMarkup.tokenize formula = lexemes := by
    unfold FormulaMarkup.tokenize
    rw [hreads.lexemes_eq, hend, List.append_nil]
  rwa [hlexemes]

end FormulaMarkup
