/-
  Global declarations other than functions' bodies. A constant takes its value from a literal or from a constant that
  is resolved already, and so declared before it. The fields of a struct are resolved one after another, and
  those before a problem stay known. A function's signature has its parameters resolved before its result.
-/
import FlatScope.Resolution.TypeExpr
import FlatScope.Tree.Written

namespace FlatScope

/-- A constant's initializer with its notes, its type and its value. -/
structure Initializer where
  value : Expr
  ty : Ty
  constant : Option Constant

namespace ConstDecl

/-- What a constant is initialized with. -/
def initializer (c : Catalog) (d : ConstDecl) : Except Halt Initializer :=
  match d.value with
  | .int n info => .ok ⟨.int n { info with ty := some .int }, .int, some (.int n)⟩
  | .real x info => .ok ⟨.real x { info with ty := some .float }, .float, some (.real x)⟩
  | .byte n info => .ok ⟨.byte n { info with ty := some .byte }, .byte, some (.int n)⟩
  | .ident name _ info =>
    match c.lookupGlobal name with
    | none => .error (.at info.span (.undefined name))
    | some source =>
      if source.kind ≠ .const then .error (.at info.span (.notConstant d.name name source.kind))
      else
        match source.ty with
        | none => .error (.at info.span (.constantTooLate name d.name))
        | some ty => .ok ⟨.ident name (some source) { info with ty := some ty }, ty, source.value⟩
  | e => .error (.misplaced (.constantValue e.written))

end ConstDecl

/-- The type of a member of a struct or of a parameter list. -/
def Member.resolve (c : Catalog) (m : Member) : Except Halt Ty := do
  let type ← m.type.mapError Halt.misplaced
  type.resolve c none false

namespace StructDecl

/-- A field behind those that are known already: its name is a new one, and its type is in order. -/
def field (c : Catalog) (struct : String) (known : List (String × Ty)) (m : Member) : Except Halt (String × Ty) := do
  let name ← m.name.mapError Halt.misplaced
  if known.any fun f => f.1 = name then throw (.at m.span (.duplicateField name struct))
  return (name, ← m.resolve c)

/-- Resolves fields in order, behind those that are known already. The known fields are given also when there is a
problem. -/
def resolveFields (c : Catalog) (struct : String) :
    (known : List (String × Ty)) → List Member → List (String × Ty) × Option Halt
  | known, [] => (known, none)
  | known, m :: ms =>
    match field c struct known m with
    | .error halt => (known, some halt)
    | .ok f => resolveFields c struct (known ++ [f]) ms

end StructDecl

/-- The signature of a function. -/
def FuncDecl.signature (c : Catalog) (d : FuncDecl) : Except Halt Signature := do
  let params ← d.params.mapM (Member.resolve c)
  let result ← d.result.resolve c none true
  return { params, result }

end FlatScope
