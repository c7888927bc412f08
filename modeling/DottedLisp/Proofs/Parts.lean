import DottedLisp.Placement
import DottedLisp.Value

/-!
# The parts of a form

Which forms inside a form are evaluated on its behalf, where, and for what. A property of forms that
passes to parts holds of everything an evaluation comes across, so **this relation is all that a
proof about evaluation has to know of syntax**.

The relation is wider than evaluation in one respect: it does not say which branch of a conditional
is taken, or whether a function is ever called. Malformed special forms have no parts; evaluation
refuses them.
-/

namespace DottedLisp

/-- The position in which the body of a function is evaluated. -/
def FunctionKind.bodyPosition : FunctionKind → Position
  | recursive => .tail
  | named | anonymous => .value

/-- Where a part is evaluated, seen from the form that it is a part of. -/
inductive Place where
  /-- In the same context. -/
  | here
  /-- In a fresh scope inside the context. -/
  | inside
  /-- At the top level of some namespace. -/
  | top
  /-- Where a function of the given kind is called. -/
  | body (kind : FunctionKind)
  deriving Repr, DecidableEq

namespace Form

/-- `Part position form place purpose part`: evaluating `form` in `position` comes to evaluating
`part` at `place` for `purpose`. -/
inductive Part (position : Position) : Form → Place → Position → Form → Prop
  | constant {head name value : Form} (h : head.special? = some .constant) :
    Part position (.list [head, name, value]) .here .value value
  | localVariable {head name value : Form} (h : head.special? = some .localVariable) :
    Part position (.list [head, name, value]) .here .value value
  | assignment {head target value : Form} (h : head.special? = some .assignment) :
    Part position (.list [head, target, value]) .here .value value
  | enterNamespace {head path part : Form} {body : List Form}
      (h : head.special? = some .enterNamespace) (hmem : part ∈ body) :
    Part position (.list (head :: path :: body)) .top .value part
  | blockInit {head part : Form} {forms : List Form} (h : head.special? = some .block)
      (hmem : part ∈ forms.dropLast) :
    Part position (.list (head :: forms)) .inside .value part
  | blockLast {head part : Form} {forms : List Form} (h : head.special? = some .block)
      (hlast : forms.getLast? = some part) :
    Part position (.list (head :: forms)) .inside position part
  | condition {head condition yes no : Form} (h : head.special? = some .conditional) :
    Part position (.list [head, condition, yes, no]) .here .value condition
  | yes {head condition yes no : Form} (h : head.special? = some .conditional) :
    Part position (.list [head, condition, yes, no]) .here position yes
  | no {head condition yes no : Form} (h : head.special? = some .conditional) :
    Part position (.list [head, condition, yes, no]) .here position no
  | initial {head parameters body part : Form} {initials : List Form}
      (h : head.special? = some .loop) (hmem : part ∈ initials) :
    Part position (.list [head, parameters, .list initials, body]) .here .value part
  | loopBody {head parameters initials body : Form} (h : head.special? = some .loop) :
    Part position (.list [head, parameters, initials, body]) .inside .tail body
  | leave {head part : Form} {operands : List Form} (h : head.special? = some .leave)
      (hmem : part ∈ operands) :
    Part position (.list (head :: operands)) .here .value part
  | again {head part : Form} {operands : List Form} (h : head.special? = some .again)
      (hmem : part ∈ operands) :
    Part position (.list (head :: operands)) .here .value part
  | function {head name parameters body : Form} (h : head.special? = some .function) :
    Part position (.list [head, name, parameters, body]) (.body .named) .value body
  | recursiveFunction {head name parameters body : Form}
      (h : head.special? = some .recursiveFunction) :
    Part position (.list [head, name, parameters, body]) (.body .recursive) .tail body
  | closure {head parameters body : Form} (h : head.special? = some .closure) :
    Part position (.list [head, parameters, body]) (.body .anonymous) .value body
  | operator {head : Form} {operands : List Form} (h : head.special? = none) :
    Part position (.list (head :: operands)) .here .value head
  | operand {head part : Form} {operands : List Form} (h : head.special? = none)
      (hmem : part ∈ operands) :
    Part position (.list (head :: operands)) .here .value part

/-- **What passes to the items of a list passes to parts.** -/
theorem Part.of_items {P : Form → Prop}
    (hitems : ∀ {items}, P (.list items) → ∀ item ∈ items, P item)
    {position purpose : Position} {place : Place} {form part : Form} (h : P form)
    (hpart : form.Part position place purpose part) : P part := by
  cases hpart with
  | initial hhead hmem =>
    rename_i head parameters body initials
    have hinitials := hitems h (.list initials) (by simp)
    exact hitems hinitials part hmem
  | enterNamespace hhead hmem | leave hhead hmem | again hhead hmem | operand hhead hmem =>
    exact hitems h part (by simp [hmem])
  | blockInit hhead hmem => exact hitems h part (by simp [List.dropLast_subset _ hmem])
  | blockLast hhead hlast => exact hitems h part (by simp [List.mem_of_getLast? hlast])
  | _ => exact hitems h part (by simp)

/-- The shapes that a control path of a loop can end in: a signal, or a form that hands its position
on to others. -/
inductive EndsPath : Form → Prop
  | leave {head : Form} {operands : List Form} (h : head.special? = some .leave) :
    EndsPath (.list (head :: operands))
  | again {head : Form} {operands : List Form} (h : head.special? = some .again) :
    EndsPath (.list (head :: operands))
  | conditional {head : Form} {operands : List Form} (h : head.special? = some .conditional) :
    EndsPath (.list (head :: operands))
  | block {head first : Form} {rest : List Form} (h : head.special? = some .block) :
    EndsPath (.list (head :: first :: rest))

end Form

end DottedLisp
