/-!
# Shapes of commands

A control sequence that takes arguments has a shape, which says how the
arguments are written.  The table below is the whole grammar of arguments:
a control sequence that is not listed takes none and stands for itself,
whether or not anything is known about how to lay it out.
-/

namespace FormulaMarkup

inductive ArgumentShape where
  /-- One argument in braces, as in `\sqrt{x}`. -/
  | braced
  /-- One argument that may stand without braces, as in `\overbrace x`. -/
  | bare
  /-- Two arguments in braces, as in `\frac{a}{b}`. -/
  | twoBraced
  /-- One argument in braces that is kept as raw text, as in `\text{if }`. -/
  | rawText
  /-- One argument in braces in chemical notation, as in `\ce{H2O}`. -/
  | chemistry
  /-- One delimiter, as in `\left(`. -/
  | delimiter
deriving Repr, DecidableEq

def shapedCommands : List (String × ArgumentShape) :=
  -- accents
  [("\\hat", .braced), ("\\widehat", .braced), ("\\tilde", .braced), ("\\widetilde", .braced),
   ("\\bar", .braced), ("\\vec", .braced), ("\\dot", .braced), ("\\ddot", .braced),
   ("\\acute", .braced), ("\\grave", .braced), ("\\breve", .braced), ("\\check", .braced),
   ("\\mathring", .braced),
   -- marks over and under a base
   ("\\overline", .braced), ("\\underline", .braced), ("\\overbrace", .bare),
   ("\\underbrace", .bare), ("\\overleftarrow", .bare), ("\\overrightarrow", .bare),
   ("\\overleftrightarrow", .bare), ("\\underleftarrow", .bare), ("\\underrightarrow", .bare),
   ("\\underleftrightarrow", .bare),
   -- fonts
   ("\\boldsymbol", .braced), ("\\bm", .braced), ("\\mathrm", .braced), ("\\mathbf", .braced),
   ("\\mathit", .braced), ("\\mathbb", .braced), ("\\mathcal", .braced), ("\\mathfrak", .braced),
   ("\\mathsf", .braced), ("\\mathtt", .braced),
   -- enclosures
   ("\\cancel", .braced), ("\\bcancel", .braced), ("\\xcancel", .braced), ("\\sout", .braced),
   -- roots, names, fractions and stacks
   ("\\sqrt", .braced), ("\\operatorname", .braced), ("\\operatorname*", .braced),
   ("\\frac", .twoBraced), ("\\dfrac", .twoBraced), ("\\tfrac", .twoBraced),
   ("\\binom", .twoBraced), ("\\overset", .twoBraced), ("\\underset", .twoBraced),
   ("\\stackrel", .twoBraced),
   -- text, chemistry and delimiters
   ("\\text", .rawText), ("\\mbox", .rawText), ("\\textrm", .rawText), ("\\hbox", .rawText),
   ("\\ce", .chemistry), ("\\left", .delimiter), ("\\right", .delimiter)]

/-- The shape of a control sequence, given with its backslash. -/
def shape? (name : String) : Option ArgumentShape := shapedCommands.lookup name

end FormulaMarkup
