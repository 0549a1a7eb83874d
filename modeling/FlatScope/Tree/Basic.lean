/-
  Syntax trees. The parser makes them, and resolving adds notes: types of expressions, symbols of names, numbers
  of labels and jumps. Trees can also be built by hand and may then hold what the parser never makes; a node
  that stands where no node of its class can stand is kept as a `Foreign` leaf.
-/
import FlatScope.Symbol

namespace FlatScope

/-- A node of another class than its place asks for: its class, its written form, and its name and its span if
nodes of its class have them. -/
structure Foreign where
  className : String
  text : String
  name : Option String := none
  span : Option Span := none
deriving DecidableEq, Repr, Inhabited

/-- The length of an array as it is written: a number or the name of a constant. -/
inductive ArraySize
  | int (value : Int)
  | name (name : String)
deriving DecidableEq, Repr, Inhabited

/-- A type as it is written. -/
inductive TypeExpr
  | named (name : String) (span : Span)
  | pointer (element : TypeExpr) (span : Span)
  | array (element : TypeExpr) (size : ArraySize) (span : Span)
  | func (result : TypeExpr) (params : List TypeExpr) (span : Span)
  | foreign (node : Foreign)
deriving Repr, Inhabited

/-- What every expression carries: where it is, and its type once that is known. -/
structure Info where
  span : Span := {}
  ty : Option Ty := none
deriving DecidableEq, Repr, Inhabited

/-- An expression. The parser makes no `field`: it writes `base[name]` as an `index`, and resolving decides by
the type of the base. A `typeArg` is a type in the place of an argument. -/
inductive Expr
  | int (value : Int) (info : Info)
  | real (value : Binary64) (info : Info)
  | byte (value : Int) (info : Info)
  | ident (name : String) (symbol : Option Symbol) (info : Info)
  | index (base index : Expr) (info : Info)
  | field (base : Expr) (name : String) (info : Info)
  | call (callee : Expr) (args : List Expr) (info : Info)
  | composite (elements : List Expr) (info : Info)
  | addrOf (target : Expr) (info : Info)
  | typeArg (type : TypeExpr) (info : Info)
  | foreign (node : Foreign)
deriving Repr, Inhabited

/-- A variable of a unit or a function, or a field of a struct. -/
structure VarDecl where
  name : String
  type : TypeExpr
  span : Span := {}
deriving Repr, Inhabited

/-- The braces around a body: where they are, or the node that stands in place of the body. -/
inductive Braces
  | around (span : Span)
  | missing (node : Foreign)
deriving DecidableEq, Repr, Inhabited

/-- A statement. A body is a list of statements between braces, empty if the braces are missing; what follows an
`else` is a block or another `ifThen`. -/
inductive Stmt
  | var (decl : VarDecl)
  | assign (target value : Expr) (span : Span)
  | call (call : Expr) (span : Span)
  | ifThen (condition : Expr) (body : List Stmt) (braces : Braces) (otherwise : Option Stmt) (span : Span)
  | whileDo (condition : Expr) (body : List Stmt) (braces : Braces) (span : Span)
  | breakLoop (span : Span)
  | continueLoop (span : Span)
  | label (name : String) (index : Option Nat) (span : Span)
  | goto (label : String) (target : Option Nat) (span : Span)
  | block (body : List Stmt) (span : Span)
  | foreign (node : Foreign)
deriving Repr, Inhabited

/-- A constant: a literal or another constant under a new name. -/
structure ConstDecl where
  name : String
  value : Expr
  span : Span := {}
deriving Repr, Inhabited

/-- A parameter of a function. -/
structure Param where
  name : String
  type : TypeExpr
  span : Span := {}
deriving Repr, Inhabited

/-- A field of a struct or a parameter of a function. The parser writes fields as `var` and parameters as `param`,
and resolving takes either in both places. A node of another class may still have a type. -/
inductive Member
  | var (decl : VarDecl)
  | param (decl : Param)
  | foreign (node : Foreign) (type? : Option TypeExpr)
deriving Repr, Inhabited

structure StructDecl where
  name : String
  fields : List Member
  span : Span := {}
deriving Repr, Inhabited

structure FuncDecl where
  name : String
  result : TypeExpr
  params : List Member
  body : List Stmt
  braces : Braces := .around {}
  span : Span := {}
deriving Repr, Inhabited

/-- A declaration of a unit. -/
inductive Decl
  | const (decl : ConstDecl)
  | var (decl : VarDecl)
  | struct (decl : StructDecl)
  | func (decl : FuncDecl)
  | foreign (node : Foreign)
deriving Repr, Inhabited

/-- A whole unit. -/
structure Program where
  decls : List Decl
  file : Option String := none
deriving Repr, Inhabited

/-! ## Parts that every node has -/

namespace TypeExpr

def span : TypeExpr → Span
  | named _ s | pointer _ s | array _ _ s | func _ _ s => s
  | foreign n => n.span.getD {}

end TypeExpr

namespace Expr

def info : Expr → Info
  | int _ i | real _ i | byte _ i | ident _ _ i | index _ _ i | field _ _ i | call _ _ i
  | composite _ i | addrOf _ i | typeArg _ i => i
  | foreign n => { span := n.span.getD {} }

def span (e : Expr) : Span := e.info.span

/-- The expression with its type known. -/
def withTy (t : Ty) : Expr → Expr
  | int n i => .int n { i with ty := some t }
  | real x i => .real x { i with ty := some t }
  | byte n i => .byte n { i with ty := some t }
  | ident name s i => .ident name s { i with ty := some t }
  | index b e i => .index b e { i with ty := some t }
  | field b name i => .field b name { i with ty := some t }
  | call c args i => .call c args { i with ty := some t }
  | composite es i => .composite es { i with ty := some t }
  | addrOf e i => .addrOf e { i with ty := some t }
  | typeArg w i => .typeArg w { i with ty := some t }
  | foreign n => .foreign n

end Expr

namespace Stmt

def isIf : Stmt → Bool
  | ifThen .. => true
  | _ => false

def span : Stmt → Span
  | var d => d.span
  | assign _ _ s | call _ s | ifThen _ _ _ _ s | whileDo _ _ _ s | breakLoop s | continueLoop s
  | label _ _ s | goto _ _ s | block _ s => s
  | foreign n => n.span.getD {}

end Stmt

/-- Where a member is. -/
def Member.span : Member → Span
  | var d => d.span
  | param d => d.span
  | foreign n _ => n.span.getD {}

end FlatScope
