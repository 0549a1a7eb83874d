/-
  Misplaced nodes. Only trees built by hand have them. They are no fault of a source, so they are not reported as
  diagnostics: what meets one gives up.
-/
import FlatScope.Tree.Written

namespace FlatScope

/-- A node in a place where it cannot be used. -/
inductive Misplaced
  | typeExpression (node : String)
  | expression (node : String)
  | statement (node : String)
  | declaration (node : String)
  | constantValue (node : String)
  /-- A part is asked of a node whose class has no such part. -/
  | noPart (className part : String)
deriving DecidableEq, Repr

/-- The wording for a misplaced node. -/
def Misplaced.message : Misplaced → String
  | .typeExpression node => "unexpected type expression " ++ node
  | .expression node => "unexpected expression " ++ node
  | .statement node => "unexpected statement " ++ node
  | .declaration node => "unexpected declaration " ++ node
  | .constantValue node => "unexpected constant value " ++ node
  | .noPart className part => "'" ++ className ++ "' object has no attribute '" ++ part ++ "'"

/-- A part of a node, if nodes of its class have that part. -/
def Foreign.part {α : Type} (node : Foreign) (part : String) (value? : Option α) : Except Misplaced α :=
  match value? with
  | some value => .ok value
  | none => .error (.noPart node.className part)

/-- Why the statements of a body cannot be asked for, if they cannot. -/
def Braces.misplaced? : Braces → Option Misplaced
  | around _ => none
  | missing node => some (.noPart node.className "statements")

namespace Member

/-- The name of a member. -/
def name : Member → Except Misplaced String
  | var d => .ok d.name
  | param d => .ok d.name
  | foreign node _ => node.part "name" node.name

/-- The written type of a member. -/
def type : Member → Except Misplaced TypeExpr
  | var d => .ok d.type
  | param d => .ok d.type
  | foreign node type? => node.part "type_expr" type?

end Member

end FlatScope
