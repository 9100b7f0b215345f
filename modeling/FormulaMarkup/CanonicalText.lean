import FormulaMarkup.FormulaNodes

/-!
# Canonical text

Every tree is written in one way.  Control words are followed by a blank,
scripts and the arguments of commands stand in braces even if they did not in
the formula, and there are no other blanks.  The content of a text box is
written as it was read: its mode drops the braces of sequences and the blanks
after control words.
-/

namespace FormulaMarkup

inductive TextMode where
  | canonical
  | verbatim
deriving Repr, DecidableEq

def Side.mark : Side → String
  | .over => "^"
  | .under => "_"

def literalText (mode : TextMode) (value : String) : String :=
  match mode with
  | .canonical => if isControlWord value then value ++ " " else value
  | .verbatim => value

def inBraces (text : String) : String := "\x7b" ++ text ++ "\x7d"

/-- Puts a written node in braces unless it is a curly sequence, which has its own. -/
def Node.bracing (node : Node) (text : String) : String :=
  if node.isCurly then text else inBraces text

mutual

def Node.text : Node → TextMode → String
  | .literal value, mode => literalText mode value
  | .sequence curly items, mode =>
      let content := String.join (nodeTexts items mode)
      if curly && mode == .canonical then inBraces content else content
  | .script side base attached, _ =>
      base.text .canonical ++ side.mark ++ attached.bracing (attached.text .canonical)
  | .unary .braced name argument, _ =>
      if shape? name = some .rawText then name ++ inBraces (argument.text .verbatim)
      else name ++ argument.bracing (argument.text .canonical)
  | .unary .bare name argument, _ => name ++ " " ++ argument.text .canonical
  | .binary name first second, _ =>
      name ++ first.bracing (first.text .canonical) ++ second.bracing (second.text .canonical)
  | .table environment rows, _ =>
      "\\begin" ++ inBraces environment.name ++
        String.intercalate "\\\\" (rowTexts rows) ++
        "\\end" ++ inBraces environment.name

def nodeTexts : List Node → TextMode → List String
  | [], _ => []
  | node :: rest, mode => node.text mode :: nodeTexts rest mode

def rowTexts : List (List Node) → List String
  | [] => []
  | row :: rest => String.intercalate "&" (nodeTexts row .canonical) :: rowTexts rest

end

/-- The canonical text of a tree. -/
def Node.canonicalText (node : Node) : String := node.text .canonical

end FormulaMarkup
