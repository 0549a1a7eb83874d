/-
  The written form of a node, which a complaint about a misplaced node shows: the class of the node and its parts
  by name. Places, types and symbols are left out.
-/
import FlatScope.Text.Quoted
import FlatScope.Tree.Basic

namespace FlatScope

namespace Written

/-- A node with its parts. -/
def node (className : String) (parts : List (String × String)) : String :=
  className ++ "(" ++ ", ".intercalate (parts.map fun (name, text) => name ++ "=" ++ text) ++ ")"

/-- Several nodes. -/
def list (texts : List String) : String := "[" ++ ", ".intercalate texts ++ "]"

end Written

def ArraySize.written : ArraySize → String
  | .int n => toString n
  | .name s => quoted s

namespace TypeExpr

def className : TypeExpr → String
  | named .. => "NamedTypeExpr"
  | pointer .. => "PointerTypeExpr"
  | array .. => "ArrayTypeExpr"
  | func .. => "FunctionTypeExpr"
  | foreign n => n.className

mutual

def written : TypeExpr → String
  | .named name _ => Written.node "NamedTypeExpr" [("name", quoted name)]
  | .pointer e _ => Written.node "PointerTypeExpr" [("elem", e.written)]
  | .array e size _ => Written.node "ArrayTypeExpr" [("elem", e.written), ("size", size.written)]
  | .func r ps _ =>
    Written.node "FunctionTypeExpr" [("result", r.written), ("params", Written.list (writtenAll ps))]
  | .foreign n => n.text

def writtenAll : List TypeExpr → List String
  | [] => []
  | t :: ts => t.written :: writtenAll ts

end

end TypeExpr

namespace Expr

def className : Expr → String
  | int .. => "IntLit"
  | real .. => "FloatLit"
  | byte .. => "ByteLit"
  | ident .. => "Ident"
  | index .. => "Index"
  | field .. => "Field"
  | call .. => "Call"
  | composite .. => "CompositeLit"
  | addrOf .. => "AddrOf"
  | typeArg .. => "TypeExpression"
  | foreign n => n.className

mutual

def written : Expr → String
  | .int n _ => Written.node "IntLit" [("value", toString n)]
  | .real x _ => Written.node "FloatLit" [("value", x.text)]
  | .byte n _ => Written.node "ByteLit" [("value", toString n)]
  | .ident name _ _ => Written.node "Ident" [("name", quoted name)]
  | .index b i _ => Written.node "Index" [("base", b.written), ("index", i.written)]
  | .field b name _ => Written.node "Field" [("base", b.written), ("name", quoted name)]
  | .call c args _ =>
    Written.node "Call" [("callee", c.written), ("args", Written.list (writtenAll args))]
  | .composite es _ => Written.node "CompositeLit" [("elements", Written.list (writtenAll es))]
  | .addrOf t _ => Written.node "AddrOf" [("target", t.written)]
  | .typeArg t _ => Written.node "TypeExpression" [("type_expr", t.written)]
  | .foreign n => n.text

def writtenAll : List Expr → List String
  | [] => []
  | e :: es => e.written :: writtenAll es

end

end Expr

def VarDecl.written (d : VarDecl) : String :=
  Written.node "VarDecl" [("name", quoted d.name), ("type_expr", d.type.written)]

namespace Stmt

def className : Stmt → String
  | var _ => "VarDecl"
  | assign .. => "AssignStmt"
  | call .. => "CallStmt"
  | ifThen .. => "IfStmt"
  | whileDo .. => "WhileStmt"
  | breakLoop _ => "BreakStmt"
  | continueLoop _ => "ContinueStmt"
  | label .. => "LabelStmt"
  | goto .. => "GotoStmt"
  | block .. => "Block"
  | foreign n => n.className

mutual

def written : Stmt → String
  | .var d => d.written
  | .assign t v _ => Written.node "AssignStmt" [("target", t.written), ("value", v.written)]
  | .call c _ => Written.node "CallStmt" [("call", c.written)]
  | .ifThen c body braces otherwise _ =>
    Written.node "IfStmt" [("condition", c.written), ("then_block", writtenBody body braces),
      ("else_branch", writtenElse otherwise)]
  | .whileDo c body braces _ =>
    Written.node "WhileStmt" [("condition", c.written), ("body", writtenBody body braces)]
  | .breakLoop _ => Written.node "BreakStmt" []
  | .continueLoop _ => Written.node "ContinueStmt" []
  | .label name _ _ => Written.node "LabelStmt" [("name", quoted name)]
  | .goto name _ _ => Written.node "GotoStmt" [("label", quoted name)]
  | .block body _ => writtenBlock body
  | .foreign n => n.text

/-- A block by its statements. -/
def writtenBlock (body : List Stmt) : String :=
  Written.node "Block" [("statements", Written.list (writtenAll body))]

/-- A body, or the node in place of it. -/
def writtenBody (body : List Stmt) : Braces → String
  | .around _ => writtenBlock body
  | .missing n => n.text

def writtenElse : Option Stmt → String
  | some s => s.written
  | none => "None"

def writtenAll : List Stmt → List String
  | [] => []
  | s :: ss => s.written :: writtenAll ss

end

end Stmt

def ConstDecl.written (d : ConstDecl) : String :=
  Written.node "ConstDecl" [("name", quoted d.name), ("value", d.value.written)]

def Param.written (p : Param) : String :=
  Written.node "Param" [("name", quoted p.name), ("type_expr", p.type.written)]

def Member.written : Member → String
  | var d => d.written
  | param d => d.written
  | foreign n _ => n.text

def StructDecl.written (d : StructDecl) : String :=
  Written.node "StructDecl" [("name", quoted d.name), ("fields", Written.list (d.fields.map (·.written)))]

def FuncDecl.written (d : FuncDecl) : String :=
  Written.node "FuncDecl" [("name", quoted d.name), ("return_type", d.result.written),
    ("params", Written.list (d.params.map (·.written))), ("body", Stmt.writtenBody d.body d.braces)]

namespace Decl

def className : Decl → String
  | const _ => "ConstDecl"
  | var _ => "VarDecl"
  | struct _ => "StructDecl"
  | func _ => "FuncDecl"
  | foreign n => n.className

def written : Decl → String
  | const d => d.written
  | var d => d.written
  | struct d => d.written
  | func d => d.written
  | foreign n => n.text

end Decl

def Program.written (p : Program) : String :=
  Written.node "Program" [("decls", Written.list (p.decls.map (·.written)))]

end FlatScope
