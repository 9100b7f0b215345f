import FormulaMarkup.CommandRegistry

/-!
# The commands that are known from the start

The tables say for each kind of command which characters, widths, typefaces or
styles belong to its names; the registry is put together from them.
-/

namespace FormulaMarkup

def identifierCommands : List (String × Char) :=
  [("\\alpha", 'α'), ("\\beta", 'β'), ("\\gamma", 'γ'), ("\\delta", 'δ'), ("\\epsilon", 'ϵ'),
   ("\\varepsilon", 'ε'), ("\\zeta", 'ζ'), ("\\eta", 'η'), ("\\theta", 'θ'),
   ("\\vartheta", 'ϑ'), ("\\iota", 'ι'), ("\\kappa", 'κ'), ("\\lambda", 'λ'), ("\\mu", 'μ'),
   ("\\nu", 'ν'), ("\\xi", 'ξ'), ("\\pi", 'π'), ("\\varpi", 'ϖ'), ("\\rho", 'ρ'),
   ("\\varrho", 'ϱ'), ("\\sigma", 'σ'), ("\\varsigma", 'ς'), ("\\tau", 'τ'), ("\\upsilon", 'υ'),
   ("\\phi", 'ϕ'), ("\\varphi", 'φ'), ("\\chi", 'χ'), ("\\psi", 'ψ'), ("\\omega", 'ω'),
   ("\\Gamma", 'Γ'), ("\\Delta", 'Δ'), ("\\Theta", 'Θ'), ("\\Lambda", 'Λ'), ("\\Xi", 'Ξ'),
   ("\\Pi", 'Π'), ("\\Sigma", 'Σ'), ("\\Upsilon", 'Υ'), ("\\Phi", 'Φ'), ("\\Psi", 'Ψ'),
   ("\\Omega", 'Ω'), ("\\infty", '∞'), ("\\partial", '∂'), ("\\nabla", '∇'),
   ("\\emptyset", '∅'), ("\\varnothing", '⌀'), ("\\hbar", 'ℏ'), ("\\ell", 'ℓ'),
   ("\\aleph", 'ℵ'), ("\\Re", 'ℜ'), ("\\Im", 'ℑ'), ("\\wp", '℘'), ("\\imath", 'ı'),
   ("\\jmath", 'ȷ')]

def operatorCommands : List (String × Char) :=
  -- binary operators
  [("\\pm", '±'), ("\\mp", '∓'), ("\\times", '×'), ("\\div", '÷'), ("\\cdot", '⋅'),
   ("\\ast", '∗'), ("\\star", '⋆'), ("\\circ", '∘'), ("\\bullet", '∙'), ("\\cap", '∩'),
   ("\\cup", '∪'), ("\\setminus", '∖'), ("\\wedge", '∧'), ("\\land", '∧'), ("\\vee", '∨'),
   ("\\lor", '∨'), ("\\oplus", '⊕'), ("\\ominus", '⊖'), ("\\otimes", '⊗'), ("\\oslash", '⊘'),
   ("\\odot", '⊙'),
   -- relations
   ("\\leq", '≤'), ("\\le", '≤'), ("\\geq", '≥'), ("\\ge", '≥'), ("\\neq", '≠'), ("\\ne", '≠'),
   ("\\ll", '≪'), ("\\gg", '≫'), ("\\approx", '≈'), ("\\sim", '∼'), ("\\simeq", '≃'),
   ("\\cong", '≅'), ("\\equiv", '≡'), ("\\propto", '∝'), ("\\in", '∈'), ("\\notin", '∉'),
   ("\\ni", '∋'), ("\\subset", '⊂'), ("\\supset", '⊃'), ("\\subseteq", '⊆'),
   ("\\supseteq", '⊇'), ("\\mid", '∣'), ("\\parallel", '∥'), ("\\perp", '⊥'),
   -- arrows
   ("\\to", '→'), ("\\rightarrow", '→'), ("\\leftarrow", '←'), ("\\gets", '←'),
   ("\\leftrightarrow", '↔'), ("\\Rightarrow", '⇒'), ("\\Leftarrow", '⇐'),
   ("\\Leftrightarrow", '⇔'), ("\\implies", '⟹'), ("\\iff", '⟺'), ("\\mapsto", '↦'),
   ("\\uparrow", '↑'), ("\\downarrow", '↓'),
   -- large operators
   ("\\sum", '∑'), ("\\prod", '∏'), ("\\coprod", '∐'), ("\\int", '∫'), ("\\iint", '∬'),
   ("\\iiint", '∭'), ("\\oint", '∮'), ("\\bigcup", '⋃'), ("\\bigcap", '⋂'), ("\\bigoplus", '⨁'),
   ("\\bigotimes", '⨂'),
   -- logic
   ("\\forall", '∀'), ("\\exists", '∃'), ("\\neg", '¬'), ("\\lnot", '¬'),
   -- delimiters and punctuation
   ("\\\x7b", '{'), ("\\\x7d", '}'), ("\\|", '‖'), ("\\lbrace", '{'), ("\\rbrace", '}'),
   ("\\langle", '⟨'), ("\\rangle", '⟩'), ("\\lfloor", '⌊'), ("\\rfloor", '⌋'), ("\\lceil", '⌈'),
   ("\\rceil", '⌉'), ("\\vert", '|'), ("\\Vert", '‖'), ("\\backslash", '∖'), ("\\ldots", '…'),
   ("\\cdots", '⋯'), ("\\vdots", '⋮'), ("\\ddots", '⋱'), ("\\dots", '…'), ("\\%", '%'),
   ("\\$", '$'), ("\\&", '&'), ("\\#", '#'), ("\\_", '_'), ("\\prime", '′')]

def functionCommands : List String :=
  ["\\sin", "\\cos", "\\tan", "\\cot", "\\sec", "\\csc", "\\arcsin", "\\arccos", "\\arctan",
   "\\sinh", "\\cosh", "\\tanh", "\\coth", "\\exp", "\\log", "\\ln", "\\lg", "\\det", "\\dim",
   "\\ker", "\\deg", "\\arg", "\\gcd", "\\hom", "\\lim", "\\liminf", "\\limsup", "\\max",
   "\\min", "\\sup", "\\inf", "\\Pr"]

def spaceCommands : List (String × String) :=
  [("\\,", "0.167em"), ("\\:", "0.222em"), ("\\>", "0.222em"), ("\\;", "0.278em"),
   ("\\!", "-0.167em"), ("\\ ", "0.333em"), ("\\quad", "1em"), ("\\qquad", "2em")]

/-- The mark and whether it stretches. -/
def accentCommands : List (String × Char × Bool) :=
  [("\\hat", '^', false), ("\\widehat", '^', true), ("\\tilde", '~', false),
   ("\\widetilde", '~', true), ("\\bar", '¯', false), ("\\vec", '→', false),
   ("\\dot", '˙', false), ("\\ddot", '¨', false), ("\\acute", '´', false),
   ("\\grave", '\x60', false), ("\\breve", '˘', false), ("\\check", 'ˇ', false),
   ("\\mathring", '˚', false)]

/-- The mark; the side follows from the name. -/
def markCommands : List (String × Char) :=
  [("\\overline", '‾'), ("\\underline", '_'), ("\\overbrace", '⏞'), ("\\underbrace", '⏟'),
   ("\\overleftarrow", '←'), ("\\overrightarrow", '→'), ("\\overleftrightarrow", '↔'),
   ("\\underleftarrow", '←'), ("\\underrightarrow", '→'), ("\\underleftrightarrow", '↔')]

def enclosureCommands : List (String × String) :=
  [("\\cancel", "updiagonalstrike"), ("\\bcancel", "downdiagonalstrike"),
   ("\\xcancel", "updiagonalstrike downdiagonalstrike"), ("\\sout", "horizontalstrike")]

def fontCommands : List (String × Variant) :=
  [("\\mathrm", .normal), ("\\mathbf", .bold), ("\\mathit", .italic), ("\\mathbb", .doubleStruck),
   ("\\mathcal", .script), ("\\mathfrak", .fraktur), ("\\mathsf", .sansSerif),
   ("\\mathtt", .monospace)]

def textCommands : List (String × Option Variant) :=
  [("\\text", none), ("\\mbox", none), ("\\hbox", none), ("\\textrm", some .normal)]

def fractionCommands : List (String × FractionStyle) :=
  [("\\frac", .inherited), ("\\dfrac", .display), ("\\tfrac", .text), ("\\binom", .binomial)]

def stackCommands : List (String × Side) :=
  [("\\overset", .over), ("\\underset", .under), ("\\stackrel", .over)]

/-- The side that the name of a command with a backslash begins with. -/
def Side.ofCommand (name : String) : Side := .ofName (String.ofList (name.toList.drop 1))

def builtinEntries : List (String × Entry) :=
  identifierCommands.map (fun (name, c) => (name, ⟨.identifier, some c, .plain⟩)) ++
  operatorCommands.map (fun (name, c) => (name, ⟨.operator, some c, .plain⟩)) ++
  functionCommands.map (fun name => (name, ⟨.functionName, none, .plain⟩)) ++
  spaceCommands.map (fun (name, width) => (name, ⟨.space, none, .space width⟩)) ++
  accentCommands.map (fun (name, c, stretchy) => (name, ⟨.accent, some c, .accent stretchy⟩)) ++
  markCommands.map (fun (name, c) => (name, ⟨.mark, some c, .stack (.ofCommand name)⟩)) ++
  enclosureCommands.map (fun (name, kind) => (name, ⟨.enclosure, none, .enclosure kind⟩)) ++
  fontCommands.map (fun (name, variant) => (name, ⟨.font, none, .font variant⟩)) ++
  textCommands.map (fun (name, variant) => (name, ⟨.text, none, .text variant⟩)) ++
  fractionCommands.map (fun (name, style) => (name, ⟨.fraction, none, .fraction style⟩)) ++
  stackCommands.map (fun (name, side) => (name, ⟨.stack, none, .stack side⟩)) ++
  [("\\boldsymbol", ⟨.boldSymbol, none, .font .boldItalic⟩),
   ("\\bm", ⟨.boldSymbol, none, .font .boldItalic⟩),
   ("\\sqrt", ⟨.root, none, .plain⟩),
   ("\\operatorname", ⟨.operatorName, none, .plain⟩),
   ("\\operatorname*", ⟨.operatorName, none, .plain⟩),
   ("\\left", ⟨.delimiter, none, .plain⟩),
   ("\\right", ⟨.delimiter, none, .plain⟩),
   ("\\ce", ⟨.chemistry, none, .plain⟩)]

def Environment.style : Environment → TableStyle
  | .matrix => ⟨none, none, .centered, false⟩
  | .pmatrix => ⟨some '(', some ')', .centered, false⟩
  | .bmatrix => ⟨some '[', some ']', .centered, false⟩
  | .bracedMatrix => ⟨some '{', some '}', .centered, false⟩
  | .vmatrix => ⟨some '|', some '|', .centered, false⟩
  | .doubleBarMatrix => ⟨some '‖', some '‖', .centered, false⟩
  | .smallmatrix => ⟨none, none, .centered, true⟩
  | .cases => ⟨some '{', none, .left, false⟩
  | .aligned => ⟨none, none, .rightLeft, false⟩

def Registry.builtin : Registry where
  commands := builtinEntries
  environments := fun environment => some ⟨.table, none, .table environment.style⟩

end FormulaMarkup
