/-
  The check of an expression by its parts: the callee of a call (`Expr.check_call`), an operand in its slot
  (`Expr.checkAll_cons`) and a type that is to be allocated (`Site.typeOperand_eq`), each as a check of its own. Another `if`
  behind an `else` is checked as the statement it is (`Stmt.checkElse_of_isIf`).
-/
import FlatScope.Resolution.Stmt

namespace FlatScope

variable {site : Site}

/-- The type that an operand is or spells, and what the node of the type is to carry. -/
def Expr.writtenType? : Expr → Option (TypeExpr × Info)
  | .typeArg w info => some (w, info)
  | e => e.asType?.map fun w => (w, { span := e.span })

namespace Site

/-- A written type as an operand. -/
def writtenOperand (site : Site) (e : Expr) (w : TypeExpr) (info : Info) : Checked Expr (Expr × Ty) :=
  match w.resolve site.catalog (some site.index) false with
  | .error halt => .error (halt, e)
  | .ok t => .ok (.typeArg w { info with ty := some t }, t)

theorem typeOperand_eq (site : Site) (e : Expr) : site.typeOperand e =
    match e.writtenType? with
    | some (w, info) => site.writtenOperand e w info
    | none => .error (.atExpr e .allocType, e) := by
  unfold typeOperand
  cases e
  case typeArg w info => rfl
  all_goals
    dsimp only [Expr.writtenType?]
    generalize Expr.asType? _ = w
    cases w <;> rfl

/-- An index with a checked base, where the base is a struct. -/
def selected (site : Site) (base : Expr) (struct : String) (i : Expr) (info : Info) : Checked Expr (Expr × Ty) :=
  match i.ident? with
  | none => .error (.atExpr i (.structIndex struct), .index base i info)
  | some name => site.select base (.struct struct) name info.span (.index base i info)

/-- An index with a checked base, where the base is no struct. -/
def indexed (site : Site) (base : Expr) (t : Ty) (i : Expr) (info : Info) : Checked Expr (Expr × Ty) :=
  match t.element? with
  | none => .error (.at info.span (.notIndexed t), .index base i info)
  | some element =>
    match i.check site none with
    | .error (halt, i) => .error (halt, .index base i info)
    | .ok (i, u) =>
      if u = .int then .ok (.index base i { info with ty := some element }, element)
      else .error (.at i.span (.indexNotInt u), .index base i info)

/-- What stands behind a checked base: the field of a struct, or an element. -/
def behind (site : Site) (base : Expr) (t : Ty) (i : Expr) (info : Info) : Checked Expr (Expr × Ty) :=
  match t with
  | .struct name => site.selected base name i info
  | t => site.indexed base t i info

/-- An operand as a slot has it checked. -/
def operand (site : Site) (slot : Slot) (e : Expr) : Checked Expr (Expr × Ty) :=
  if slot = .allocated then site.typeOperand e else e.check site slot.context

end Site

namespace Expr

-- Marking the two functions derives their equations here, and not anew in every proof that rewrites with them.
attribute [local simp] check checkAll

theorem check_index {context : Option Ty} {base i : Expr} {info : Info} :
    (index base i info).check site context =
      match base.check site none with
      | .error (halt, base) => .error (halt, .index base i info)
      | .ok (base, t) => site.behind base t i info := by
  rw [check]
  cases base.check site none with
  | error left => rfl
  | ok r =>
    obtain ⟨base, t⟩ := r
    cases t <;> rfl

theorem checkAll_nil : checkAll site [] [] = .ok ([], []) := by
  rw [checkAll]
  exact nofun

theorem checkAll_nil_left {slots : List Slot} : checkAll site slots [] = .ok ([], []) := by
  rw [checkAll]
  exact nofun

theorem checkAll_no_slots {es : List Expr} : checkAll site [] es = .ok (es, []) := by
  rw [checkAll]
  exact nofun

theorem checkAll_cons {slot : Slot} {slots : List Slot} {e : Expr} {es : List Expr} :
    checkAll site (slot :: slots) (e :: es) =
      match site.operand slot e with
      | .error (halt, e) => .error (halt, e :: es)
      | .ok (e', t) =>
        match slot.refusal? t with
        | some cause => .error (.at e'.span cause, leftBehind e e' :: es)
        | none =>
          match checkAll site slots es with
          | .error (halt, es) => .error (halt, leftBehind e e' :: es)
          | .ok (es, ts) => .ok (e' :: es, t :: ts) := by
  rw [checkAll]
  rfl

/-- The check of a callee. -/
def callee (site : Site) (span : Span) (e : Expr) : Checked Expr (Expr × CallForm) :=
  match site.callForm? span e with
  | .error halt => .error (halt, e)
  | .ok (some called) => .ok called
  | .ok none =>
    match e.check site none with
    | .error e => .error e
    | .ok (e', .func params result) => .ok (e', .fixed e.ident? { params, result })
    | .ok (e, t) => .error (.at e.span (.notCallable t), e)

theorem check_call {context : Option Ty} {e : Expr} {args : List Expr} {info : Info} :
    (call e args info).check site context =
      match callee site info.span e with
      | .error (halt, e) => .error (halt, .call e args info)
      | .ok (e, form) =>
        match form.slots args.length with
        | .error cause => .error (.at info.span cause, .call e args info)
        | .ok slots =>
          match checkAll site slots args with
          | .error (halt, args) => .error (halt, .call e args info)
          | .ok (args, types) =>
            let t := form.result types
            .ok (.call (form.noteCallee types e) args { info with ty := some t }, t) := by
  rw [check]
  rfl

end Expr

theorem Stmt.checkElse_of_isIf {s : Surroundings} {loops n : Nat} {branch : Stmt} (h : branch.isIf = true) :
    checkElse s loops n (some branch) =
      match branch.check s loops n with
      | .error (halt, branch) => .error (halt, some branch)
      | .ok branch => .ok (some branch) := by
  cases branch with
  | ifThen _ _ _ _ _ => rfl
  | var _ | assign _ _ _ | call _ _ | whileDo _ _ _ _ | breakLoop _ | continueLoop _ | label _ _ _ | goto _ _ _ | block _ _
  | foreign _ => cases h

end FlatScope
