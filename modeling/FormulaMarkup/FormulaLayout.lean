import FormulaMarkup.CommandHandlers

/-!
# Layout of formulas

Every node becomes an operand: something that can be laid out in any context,
in line or as a single element.  The operand of a node is built from the
operands of its parts, and this is the only recursion on trees; what commands
make of their operands is up to their handlers.

A sequence is laid out item by item, where an item in braces is kept together.
A script is put in a row of its own; a base that has a mark on the side of the
script gets the script stacked on the mark.
-/

namespace FormulaMarkup

def letterLayout (value : String) (context : Context) : Layout :=
  let default := if context.chemistry then some Variant.normal else none
  .ok [.identifier (context.textAttributes default) value]

def numberLayout (value : String) (context : Context) : Layout :=
  .ok [.number (context.textAttributes none) value]

/-- The tie is a space, and three ASCII symbols stand for other characters. -/
def symbolLayout (value : String) (context : Context) : Layout :=
  match value with
  | "~" => .ok [.space "0.333em" context.attributes]
  | "-" => .ok [.operator context.attributes "−"]
  | "'" => .ok [.operator context.attributes "′"]
  | "*" => .ok [.operator context.attributes "∗"]
  | _ => .ok [.operator context.attributes value]

def literalLayout (registry : Registry) (value : String) (context : Context) : Layout :=
  match LiteralClass.of value with
  | .letter => letterLayout value context
  | .digit => numberLayout value context
  | .symbol => symbolLayout value context
  | .command => commandLayout registry value .none context

/-- The operand of a node that is not a sequence. -/
def Operand.ofNode (node : Node) (layout : Layoutable) : Operand where
  node := node
  layout := layout
  single := layout
  pieces := [⟨node, layout⟩]

/-- An item of a sequence: one in braces is kept together. -/
def Operand.asItem (operand : Operand) (context : Context) : Layout :=
  if operand.node.isCurly then operand.single context else operand.layout context

def itemsLayout (items : List Operand) (context : Context) : Layout :=
  match items with
  | [] => .ok [.placeholder]
  | _ => layoutAll (fun item => item.asItem context) items

def itemsSingle (items : List Operand) (context : Context) : Layout :=
  match items with
  | [] => .ok [.placeholder]
  | [only] => only.single context
  | _ =>
      match itemsLayout items context with
      | .error error => .error error
      | .ok elements => .ok [.row ∅ elements]

def Operand.ofItems (node : Node) (items : List Operand) : Operand where
  node := node
  layout := itemsLayout items
  single := itemsSingle items
  pieces := items.map fun item => ⟨item.node, item.layout⟩

/-- The element that holds a script. -/
def attachedLayout (attached : Operand) (context : Context) : Layout :=
  if attached.node.isEmptySequence then .ok [.placeholder]
  else
    match attached.layout context.withoutAttributes with
    | .error error => .error error
    | .ok elements => .ok [.row ∅ elements]

def scriptLayout (registry : Registry) (side : Side) (base attached : Operand)
    (context : Context) : Layout :=
  match base.single context with
  | .error error => .error error
  | .ok baseElements =>
      match attachedLayout attached context with
      | .error error => .error error
      | .ok attachedElements =>
          let tag :=
            if registry.stackingSide? base.node = some side then side.stackTag else side.scriptTag
          .ok [.layout tag ∅ (baseElements ++ attachedElements)]

mutual

def Node.operand (registry : Registry) : Node → Operand
  | .literal value => .ofNode (.literal value) (literalLayout registry value)
  | .sequence curly items => .ofItems (.sequence curly items) (nodeOperands registry items)
  | .script side base attached =>
      .ofNode (.script side base attached)
        (scriptLayout registry side (base.operand registry) (attached.operand registry))
  | .unary style name argument =>
      .ofNode (.unary style name argument)
        (commandLayout registry name (.one (argument.operand registry)))
  | .binary name first second =>
      .ofNode (.binary name first second)
        (commandLayout registry name (.two (first.operand registry) (second.operand registry)))
  | .table environment rows =>
      .ofNode (.table environment rows)
        (environmentLayout registry environment (rowLayoutables registry rows))

def nodeOperands (registry : Registry) : List Node → List Operand
  | [] => []
  | node :: rest => node.operand registry :: nodeOperands registry rest

def rowLayoutables (registry : Registry) : List (List Node) → List (List Layoutable)
  | [] => []
  | row :: rest =>
      (nodeOperands registry row).map Operand.layout :: rowLayoutables registry rest

end

/-- The operands that a node brings to the handler of its command. -/
def Node.operands (registry : Registry) : Node → Operands
  | .unary _ _ argument => .one (argument.operand registry)
  | .binary _ first second => .two (first.operand registry) (second.operand registry)
  | .table _ rows => .grid (rowLayoutables registry rows)
  | _ => .none

/-- The elements of a node. -/
def Node.layout (registry : Registry) (node : Node) (context : Context) : Layout :=
  (node.operand registry).layout context

/-- The elements of a node, put in a row if the node is a sequence of several items. -/
def Node.single (registry : Registry) (node : Node) (context : Context) : Layout :=
  (node.operand registry).single context

end FormulaMarkup
