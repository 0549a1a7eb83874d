/-
  From written to resolved types. The words for primitive types come before all declarations, and every other name is
  the name of a global struct. The length of an array is a positive number or an integer constant; inside a
  function the constant is looked up where the type is written.
-/
import FlatScope.Resolution.Problem

namespace FlatScope

namespace Catalog

/-- The type a name stands for. Only the result of a function may be `void`. -/
def namedType (c : Catalog) (allowVoid : Bool) (name : String) : Except Problem.Cause Ty :=
  if name = "void" then if allowVoid then .ok .void else .error .misusedVoid
  else
    match Primitive.ofName? name with
    | some p => .ok (.primitive p)
    | none =>
      match c.lookupGlobal name with
      | none => .error (.unknownType name)
      | some s => if s.kind = .struct then .ok (.struct name) else .error (.notType name s.kind)

/-- The value of an integer constant. -/
def intConstant? (c : Catalog) (name : String) (at? : Option Int) : Option Int :=
  match c.lookup name at? with
  | some { kind := .const, ty := some (.primitive .int), value := some (.int n), .. } => some n
  | _ => none

/-- The length of an array. -/
def arraySize (c : Catalog) (at? : Option Int) (size : ArraySize) : Except Problem.Cause Int := do
  let n ← match size with
    | .int n => pure n
    | .name name =>
      match c.intConstant? name at? with
      | some n => pure n
      | none => throw (.sizeNotConstant name)
  if 0 < n then return n else throw (.sizeNotPositive n)

end Catalog

namespace TypeExpr

mutual

/-- The type that a written type stands for. Elements come before lengths and parameters before results. -/
def resolve (c : Catalog) (at? : Option Int) (allowVoid : Bool) : TypeExpr → Except Halt Ty
  | .named name span => (c.namedType allowVoid name).mapError (Halt.at span)
  | .pointer e _ => do
    let t ← e.resolve c at? false
    return .pointer t
  | .array e size span => do
    let t ← e.resolve c at? false
    let n ← (c.arraySize at? size).mapError (Halt.at span)
    return .array t n
  | .func r ps _ => do
    let params ← resolveAll c at? ps
    let result ← r.resolve c at? true
    return .func params result
  | .foreign node => .error (.misplaced (.typeExpression node.text))

/-- The types of parameters. -/
def resolveAll (c : Catalog) (at? : Option Int) : List TypeExpr → Except Halt (List Ty)
  | [] => return []
  | e :: es => do
    let t ← e.resolve c at? false
    let ts ← resolveAll c at? es
    return t :: ts

end

end TypeExpr

end FlatScope
