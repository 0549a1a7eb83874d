/-
  Nodes of any class. Trees built by hand come as nodes; `asExpr` and its siblings put a node into a place of one
  class, where a node of another class becomes a `Foreign` leaf.
-/
import FlatScope.Tree.Misplaced

namespace FlatScope

/-- A node of a syntax tree, of whatever class. A variable declaration is a statement. Where a node is left out,
`absent` stands. -/
inductive Node
  | type (t : TypeExpr)
  | expr (e : Expr)
  | stmt (s : Stmt)
  | const (d : ConstDecl)
  | struct (d : StructDecl)
  | param (p : Param)
  | func (d : FuncDecl)
  | program (p : Program)
  | absent
deriving Repr, Inhabited

namespace Node

def className : Node → String
  | type t => t.className
  | expr e => e.className
  | stmt s => s.className
  | const _ => "ConstDecl"
  | struct _ => "StructDecl"
  | param _ => "Param"
  | func _ => "FuncDecl"
  | program _ => "Program"
  | absent => "NoneType"

def written : Node → String
  | type t => t.written
  | expr e => e.written
  | stmt s => s.written
  | const d => d.written
  | struct d => d.written
  | param p => p.written
  | func d => d.written
  | program p => p.written
  | absent => "None"

/-- The name a node carries, if it carries one. -/
def name? : Node → Option String
  | type (.named name _) => some name
  | expr (.ident name _ _) => some name
  | expr (.field _ name _) => some name
  | stmt (.var d) => some d.name
  | stmt (.label name _ _) => some name
  | const d => some d.name
  | struct d => some d.name
  | param p => some p.name
  | func d => some d.name
  | _ => none

/-- Where a node is. Programs are nowhere in particular. -/
def span? : Node → Option Span
  | type t => some t.span
  | expr e => some e.span
  | stmt s => some s.span
  | const d => some d.span
  | struct d => some d.span
  | param p => some p.span
  | func d => some d.span
  | program _ | absent => none

/-- The type a node carries, if it carries one. -/
def type? : Node → Option TypeExpr
  | expr (.typeArg t _) => some t
  | stmt (.var d) => some d.type
  | param p => some p.type
  | _ => none

/-- The node as a leaf in a place of another class. -/
def foreign (n : Node) : Foreign := ⟨n.className, n.written, n.name?, n.span?⟩

def asType : Node → TypeExpr
  | type t => t
  | n => .foreign n.foreign

def asExpr : Node → Expr
  | expr e => e
  | n => .foreign n.foreign

def asStmt : Node → Stmt
  | stmt s => s
  | n => .foreign n.foreign

def asDecl : Node → Decl
  | const d => .const d
  | stmt (.var d) => .var d
  | struct d => .struct d
  | func d => .func d
  | n => .foreign n.foreign

def asMember : Node → Member
  | stmt (.var d) => .var d
  | param p => .param p
  | n => .foreign n.foreign n.type?

/-- A body with its braces. -/
def asBody : Node → List Stmt × Braces
  | stmt (.block body span) => (body, .around span)
  | n => ([], .missing n.foreign)

/-- A whole unit. -/
def asProgram : Node → Except Misplaced Program
  | program p => .ok p
  | n => .error (.noPart n.className "decls")

end Node

end FlatScope
