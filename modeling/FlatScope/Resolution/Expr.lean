/-
  Checking expressions. A check gives the expression with its notes, and its type. Where the base is a struct an
  index by a name becomes a `field`, and the first operand of an allocation becomes a type. A check that halts
  gives back what the expression has become so far: the parts that were finished keep their notes, but
  operands are replaced only when all of them are in order.
-/
import FlatScope.Resolution.Value

namespace FlatScope

/-- A check that may halt; then it leaves an `α` behind. -/
abbrev Checked (α β : Type) := Except (Halt × α) β

/-- What an operand has become whose replacement is not used: an index keeps its form and a written type stays
an expression, while notes stay. -/
def leftBehind : (before checked : Expr) → Expr
  | .index _ i info, .field base _ _ => .index base i info
  | .field _ name info, .field base _ _ => .field base name info
  | .typeArg _ _, checked => checked
  | before, .typeArg _ _ => before
  | _, checked => checked

/-- The field of a checked base. -/
def Site.select (site : Site) (base : Expr) (t : Ty) (name : String) (span : Span) (left : Expr) :
    Checked Expr (Expr × Ty) :=
  match site.fieldType t name with
  | .error cause => .error (.at span cause, left)
  | .ok t => .ok (.field base name { span, ty := some t }, t)

/-- The operand of an allocation: a type, written as one or as an expression. -/
def Site.typeOperand (site : Site) (e : Expr) : Checked Expr (Expr × Ty) :=
  let written : Except Halt (TypeExpr × Info) :=
    match e with
    | .typeArg w info => .ok (w, info)
    | e =>
      match e.asType? with
      | some w => .ok (w, { span := e.span })
      | none => .error (.atExpr e .allocType)
  match written with
  | .error halt => .error (halt, e)
  | .ok (w, info) =>
    match w.resolve site.catalog (some site.index) false with
    | .error halt => .error (halt, e)
    | .ok t => .ok (.typeArg w { info with ty := some t }, t)

namespace Expr

mutual

/-- Checks an expression. A composite literal takes its type from its context. -/
def check (site : Site) (context : Option Ty) : Expr → Checked Expr (Expr × Ty)
  | .int n info => .ok (.int n { info with ty := some .int }, .int)
  | .real x info => .ok (.real x { info with ty := some .float }, .float)
  | .byte n info => .ok (.byte n { info with ty := some .byte }, .byte)
  | .ident name symbol info =>
    match site.value name with
    | .error cause => .error (.at info.span cause, .ident name symbol info)
    | .ok (s, t) => .ok (.ident name (some s) { info with ty := some t }, t)
  | .index base i info =>
    match base.check site none with
    | .error (halt, base) => .error (halt, .index base i info)
    | .ok (base, t) =>
      match t with
      | .struct struct =>
        match i.ident? with
        | none => .error (.atExpr i (.structIndex struct), .index base i info)
        | some name => site.select base t name info.span (.index base i info)
      | t =>
        match t.element? with
        | none => .error (.at info.span (.notIndexed t), .index base i info)
        | some element =>
          match i.check site none with
          | .error (halt, i) => .error (halt, .index base i info)
          | .ok (i, u) =>
            if u = .int then .ok (.index base i { info with ty := some element }, element)
            else .error (.at i.span (.indexNotInt u), .index base i info)
  | .field base name info =>
    match base.check site none with
    | .error (halt, base) => .error (halt, .field base name info)
    | .ok (base, t) => site.select base t name info.span (.field base name info)
  | .call callee args info =>
    let called : Checked Expr (Expr × CallForm) :=
      match site.callForm? info.span callee with
      | .error halt => .error (halt, callee)
      | .ok (some called) => .ok called
      | .ok none =>
        match callee.check site none with
        | .error e => .error e
        | .ok (callee', .func params result) => .ok (callee', .fixed callee.ident? { params, result })
        | .ok (callee, t) => .error (.at callee.span (.notCallable t), callee)
    match called with
    | .error (halt, callee) => .error (halt, .call callee args info)
    | .ok (callee, form) =>
      match form.slots args.length with
      | .error cause => .error (.at info.span cause, .call callee args info)
      | .ok slots =>
        match checkAll site slots args with
        | .error (halt, args) => .error (halt, .call callee args info)
        | .ok (args, types) =>
          let t := form.result types
          .ok (.call (form.noteCallee types callee) args { info with ty := some t }, t)
  | .addrOf target info =>
    match site.functionAddress? target with
    | .error halt => .error (halt, .addrOf target info)
    | .ok (some (target, t)) => .ok (.addrOf target { info with ty := some t }, t)
    | .ok none =>
      match target.check site none with
      | .error (halt, target) => .error (halt, .addrOf target info)
      | .ok (target, t) =>
        if target.isAddressable then
          .ok (.addrOf target { info with ty := some (.pointer t) }, .pointer t)
        else .error (.at target.span .notAddressable, .addrOf target info)
  | .composite elements info =>
    match context with
    | none => .error (.at info.span .compositeContext, .composite elements info)
    | some t =>
      match site.catalog.elementSlots t elements.length with
      | .error cause => .error (.at info.span cause, .composite elements info)
      | .ok slots =>
        match checkAll site slots elements with
        | .error (halt, elements) => .error (halt, .composite elements info)
        | .ok (elements, _) => .ok (.composite elements { info with ty := some t }, t)
  | .typeArg w info => .error (.at info.span .typeValue, .typeArg w info)
  | .foreign node => .error (.misplaced (.expression node.text), .foreign node)

/-- Checks operands for their slots, in order. -/
def checkAll (site : Site) : List Slot → List Expr → Checked (List Expr) (List Expr × List Ty)
  | slot :: slots, e :: es =>
    let checked := if slot = .allocated then site.typeOperand e else e.check site slot.context
    match checked with
    | .error (halt, e) => .error (halt, e :: es)
    | .ok (e', t) =>
      match slot.refusal? t with
      | some cause => .error (.at e'.span cause, leftBehind e e' :: es)
      | none =>
        match checkAll site slots es with
        | .error (halt, es) => .error (halt, leftBehind e e' :: es)
        | .ok (es, ts) => .ok (e' :: es, t :: ts)
  | _, es => .ok (es, [])

end

end Expr

end FlatScope
