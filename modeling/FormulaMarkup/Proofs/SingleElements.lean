import FormulaMarkup.Proofs.BracedLayouts

/-!
# Nodes that are laid out as a single element

A node that is laid out as a single element is laid out as one element, with
one exception: a point as a delimiter stands for no delimiter at all, and
nothing is put in its place.  The exception shows through groups of one item
and through the commands that only set a typeface, since both pass the layout
of what they hold on as it is.
-/

namespace FormulaMarkup

/-- Whether a node is laid out as nothing. -/
def Node.vanishes (registry : Registry) : Node → Bool
  | .sequence _ [only] => only.vanishes registry
  | .unary _ name argument =>
      match (registry.get? name).map Entry.handler with
      | some .delimiter => argument.literal? == some "."
      | some .boldSymbol => argument.vanishes registry
      | some .font => argument.vanishes registry
      | _ => false
  | _ => false

/-- If there is a layout, it is one element. -/
def IsOne (layout : Layout) : Prop := ∀ elements, layout = .ok elements → elements.length = 1

namespace IsOne

theorem ok (element : Element) : IsOne (.ok [element]) := by
  intro elements helements
  cases helements
  rfl

theorem error (failure : LayoutError) : IsOne (.error failure) := nofun

theorem invalid (name : String) : IsOne (invalidArgument name) := error _

theorem bind {layout : Layout} {next : List Element → Layout} :
    (∀ elements, IsOne (next elements)) →
    IsOne
      (match layout with
        | .error error => .error error
        | .ok elements => next elements) := by
  intro hnext
  cases layout with
  | error failure => exact error failure
  | ok elements => exact hnext elements

end IsOne

/-! ## Handlers -/

/-- The handlers that need not make one element. -/
def Handler.passesOn : Handler → Bool
  | .boldSymbol => true
  | .font => true
  | .delimiter => true
  | _ => false

theorem Handler.isOne_layout (registry : Registry) {handler : Handler}
    (hhandler : handler.passesOn = false) (entry : Entry) (name : String) (operands : Operands)
    (context : Context) :
    IsOne (handler.layout registry entry name operands context) := by
  cases handler with
  | boldSymbol | font | delimiter => cases hhandler
  | identifier =>
      simp only [Handler.layout, identifierLayout]
      split
      · exact .ok _
      · exact .invalid name
  | operator =>
      simp only [Handler.layout, operatorLayout]
      split
      · exact .ok _
      · exact .invalid name
  | functionName => exact .ok _
  | space =>
      simp only [Handler.layout, spaceLayout]
      split
      · exact .ok _
      · exact .invalid name
  | accent =>
      cases operands with
      | one argument =>
          simp only [Handler.layout, accentLayout]
          split
          · refine .bind fun base => ?_
            split
            · exact .ok _
            · exact .invalid name
          · exact .invalid name
      | _ => exact .invalid name
  | mark =>
      cases operands with
      | one argument =>
          simp only [Handler.layout, markLayout]
          split
          · refine .bind fun base => ?_
            split
            · exact .ok _
            · exact .invalid name
          · exact .invalid name
      | _ => exact .invalid name
  | stack =>
      cases operands with
      | two mark base =>
          simp only [Handler.layout, stackLayout]
          split
          · exact .bind fun baseElements => .bind fun markElements => .ok _
          · exact .invalid name
      | _ => exact .invalid name
  | table =>
      cases operands with
      | grid rows =>
          simp only [Handler.layout, tableLayout]
          split
          · refine .bind fun rowElements => ?_
            split
            · exact .ok _
            · exact .ok _
          · exact .invalid name
      | _ => exact .invalid name
  | enclosure =>
      cases operands with
      | one argument =>
          simp only [Handler.layout, enclosureLayout]
          split
          · exact .bind fun elements => .ok _
          · exact .invalid name
      | _ => exact .invalid name
  | fraction =>
      cases operands with
      | two numerator denominator =>
          simp only [Handler.layout, fractionLayout]
          split
          · exact .bind fun upper => .bind fun lower => .ok _
          · exact .invalid name
      | _ => exact .invalid name
  | root =>
      cases operands with
      | one argument => exact .bind fun elements => .ok _
      | _ => exact .invalid name
  | text =>
      cases operands with
      | one argument =>
          simp only [Handler.layout, textLayout]
          split
          · split
            · exact .ok _
            · exact .invalid name
          · exact .invalid name
      | _ => exact .invalid name
  | operatorName =>
      cases operands with
      | one argument =>
          simp only [Handler.layout, operatorNameLayout]
          split
          · split
            · exact .invalid name
            · exact .ok _
          · exact .invalid name
      | _ => exact .invalid name
  | chemistry =>
      cases operands with
      | one argument => exact .bind fun elements => .ok _
      | _ => exact .invalid name

/-- A handler that passes its argument on makes nothing of other operands. -/
theorem Handler.isOne_layout_of_ne_one (registry : Registry) (handler : Handler) (entry : Entry)
    (name : String) {operands : Operands} (hoperands : ∀ argument, operands ≠ .one argument)
    (context : Context) :
    IsOne (handler.layout registry entry name operands context) := by
  cases hhandler : handler.passesOn with
  | false => exact handler.isOne_layout registry hhandler entry name operands context
  | true =>
      cases operands with
      | one argument => exact absurd rfl (hoperands argument)
      | none | two | grid =>
          cases handler with
          | boldSymbol | font | delimiter => exact .invalid name
          | _ => cases hhandler

theorem isOne_commandLayout (registry : Registry) (name : String) {operands : Operands}
    (hoperands : ∀ argument, operands ≠ .one argument) (context : Context) :
    IsOne (commandLayout registry name operands context) := by
  unfold commandLayout
  split
  · exact .error _
  · next entry _ => exact entry.handler.isOne_layout_of_ne_one registry entry name hoperands context

theorem isOne_environmentLayout (registry : Registry) (environment : Environment)
    (rows : List (List Layoutable)) (context : Context) :
    IsOne (environmentLayout registry environment rows context) := by
  unfold environmentLayout
  split
  · exact .error _
  · next entry _ =>
      exact entry.handler.isOne_layout_of_ne_one registry entry environment.name (by simp)
        context

theorem isOne_literalLayout (registry : Registry) (value : String) (context : Context) :
    IsOne (literalLayout registry value context) := by
  unfold literalLayout
  split
  · exact .ok _
  · exact .ok _
  · simp only [symbolLayout]
    split <;> exact .ok _
  · exact isOne_commandLayout registry value (by simp) context

theorem length_delimiterLayout {registry : Registry} {name : String} {argument : Operand}
    {context : Context} {elements : List Element}
    (hlayout : delimiterLayout registry name argument context = .ok elements) :
    elements.length = if argument.node.literal? == some "." then 0 else 1 := by
  unfold delimiterLayout at hlayout
  cases hliteral : argument.node.literal? with
  | none => simp [hliteral, invalidArgument] at hlayout
  | some value =>
      simp only [hliteral] at hlayout
      by_cases hpoint : value = "."
      · subst hpoint
        have hclass : LiteralClass.of "." = .symbol := by decide
        simp only [delimiterText, hclass, if_true] at hlayout
        cases hlayout
        rfl
      · have hdrawn : delimiterText registry name value ≠ .ok none := by
          simp only [delimiterText, if_neg hpoint]
          repeat' split
          all_goals simp
        split at hlayout
        · cases hlayout
        · next hnone => exact absurd hnone hdrawn
        · cases hlayout
          simp [hpoint]

/-! ## Nodes -/

theorem Node.length_single (registry : Registry) (node : Node) {context : Context}
    {elements : List Element} (hsingle : node.single registry context = .ok elements) :
    elements.length = if node.vanishes registry then 0 else 1 := by
  fun_induction Node.vanishes registry node generalizing context with
  | case1 curly only ih => exact ih hsingle
  | case2 style name argument hhandler =>
      obtain ⟨entry, hentry, hdelimiter⟩ := Option.map_eq_some_iff.mp hhandler
      have hlayout : delimiterLayout registry name (argument.operand registry) context =
          .ok elements := by
        simpa [Node.single, Node.operand, Operand.ofNode, commandLayout, hentry, hdelimiter,
          Handler.layout] using hsingle
      have hlength := length_delimiterLayout hlayout
      rwa [Node.operand_node] at hlength
  | case3 style name argument hhandler ih =>
      obtain ⟨entry, hentry, hbold⟩ := Option.map_eq_some_iff.mp hhandler
      have hlayout : boldSymbolLayout (argument.operand registry) context = .ok elements := by
        simpa [Node.single, Node.operand, Operand.ofNode, commandLayout, hentry, hbold,
          Handler.layout] using hsingle
      exact ih hlayout
  | case4 style name argument hhandler ih =>
      obtain ⟨entry, hentry, hfont⟩ := Option.map_eq_some_iff.mp hhandler
      have hlayout : fontLayout entry name (argument.operand registry) context =
          .ok elements := by
        simpa [Node.single, Node.operand, Operand.ofNode, commandLayout, hentry, hfont,
          Handler.layout] using hsingle
      unfold fontLayout at hlayout
      split at hlayout
      · exact ih hlayout
      · cases hlayout
  | case5 style name argument hdelimiter hbold hfont =>
      have hone : IsOne (commandLayout registry name (.one (argument.operand registry)) context) := by
        unfold commandLayout
        split
        · exact .error _
        · next entry hentry =>
            have hhandler : entry.handler.passesOn = false := by
              cases hkind : entry.handler with
              | delimiter => exact (hdelimiter (by simp [hentry, hkind])).elim
              | boldSymbol => exact (hbold (by simp [hentry, hkind])).elim
              | font => exact (hfont (by simp [hentry, hkind])).elim
              | _ => rfl
            exact entry.handler.isOne_layout registry hhandler entry name _ context
      exact hone elements hsingle
  | case6 node hsequence hunary =>
      cases node with
      | literal value => exact isOne_literalLayout registry value context elements hsingle
      | sequence curly items =>
          have hone : IsOne (itemsSingle (nodeOperands registry items) context) := by
            cases items with
            | nil => exact .ok _
            | cons first rest =>
                cases rest with
                | nil => exact (hsequence curly first rfl).elim
                | cons second rest => exact .bind fun elements => .ok _
          exact hone elements hsingle
      | script side base attached =>
          have hone : IsOne (scriptLayout registry side (base.operand registry)
              (attached.operand registry) context) :=
            .bind fun baseElements => .bind fun attachedElements => .ok _
          exact hone elements hsingle
      | unary style name argument => exact (hunary style name argument rfl).elim
      | binary name first second =>
          exact isOne_commandLayout registry name (by simp) context elements hsingle
      | table environment rows =>
          exact isOne_environmentLayout registry environment _ context elements hsingle

end FormulaMarkup
