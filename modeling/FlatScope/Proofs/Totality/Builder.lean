/-
  Building a unit from a parse tree, which gives up where a node has another label than its place asks for, where a node
  does not have a part that is asked of it, and where a literal has no value. Only a misused expression is a fault of
  the source; such a fault ends the building as well. The functions look at no more of a node than they use, and so the
  braces of a block or the fields of a struct are taken as they come.
-/
import FlatScope.Parse
import FlatScope.Proofs.Totality.Scan

namespace FlatScope.Grammar

/-- Why building does not go on. -/
inductive Stop
  | fault (e : SourceError)
  | breach (b : Breach)

abbrev Build := Except Stop

namespace Build

/-- A node has no part of the kind that is asked for. -/
def missing {α : Type} : Build α := .error (.breach .part)

/-- A node has a label that does not belong in its place. -/
def unexpected {α : Type} (label : Label) : Build α := .error (.breach (.node label))

/-- The value of a literal. -/
def literal {α : Type} (value : Except LiteralFault α) : Build α := value.mapError fun fault => .breach (.literal fault)

/-- Goes on unless there is a fault. -/
def check (fault? : Option SourceError) : Build Unit :=
  match fault? with
  | some e => .error (.fault e)
  | none => .ok ()

end Build

open Build

/-- The first part of a node, which has to be a token. -/
def firstToken (front : List Token) : Build Token :=
  match front with
  | t :: _ => .ok t
  | [] => missing

/-- The first name among the tokens of a node. -/
def firstName (front others : List Token) : Build Token :=
  match (front ++ others).find? fun t => t.kind = .name with
  | some t => .ok t
  | none => missing

/-! ## Types and expressions -/

/-- The size of an array. -/
def buildSize : ParseTree → Build ArraySize
  | .node _ _ front _ _ => do
    let t ← firstToken front
    if t.kind = .integer then return .int (← literal t.readInt) else return .name t.lexeme

mutual

def buildType : ParseTree → Build TypeExpr
  | .node label span front trees others =>
    match label with
    | .primType | .namedType => do
      let t ← firstToken front
      return .named t.lexeme span
    | .namedPointerType => do
      let name ← firstName front others
      return .pointer (wordType name) span
    | .pointerType =>
      match trees with
      | [] => missing
      | e :: _ => do
        let e ← buildType e
        return .pointer e span
    | .arrayType =>
      match trees with
      | [e, n] => do
        let n ← buildSize n
        let e ← buildType e
        return .array e n span
      | _ => missing
    | .functionType =>
      match trees with
      | [] => missing
      | r :: ps => do
        let r ← buildType r
        let ps ← buildTypes ps
        return .func r ps span
    | label => unexpected label

def buildTypes : List ParseTree → Build (List TypeExpr)
  | [] => return []
  | t :: ts => do
    let t ← buildType t
    let ts ← buildTypes ts
    return t :: ts

end

/-- A literal, up to the label of its node. -/
def buildLiteral (label : Label) (span : Span) (front : List Token) : Build Expr :=
  match label with
  | .intLit => do
    let t ← firstToken front
    return .int (← literal t.readInt) { span }
  | .floatLit => do
    let t ← firstToken front
    return .real (← literal t.readReal) { span }
  | .byteLit | .charLit => do
    let t ← firstToken front
    return .byte (← literal t.readByte) { span }
  | label => unexpected label

mutual

def buildExpr : ParseTree → Build Expr
  | .node label span front trees _ =>
    match label with
    | .chain => do
      let t ← firstToken front
      buildSuffixes (nameExpr t) trees
    | .composite => do
      let es ← buildExprs trees
      return .composite es { span }
    | label => buildLiteral label span front

def buildExprs : List ParseTree → Build (List Expr)
  | [] => return []
  | e :: es => do
    let e ← buildExpr e
    let es ← buildExprs es
    return e :: es

/-- Puts suffixes behind an expression. What is no index is taken for arguments. -/
def buildSuffixes (e : Expr) : List ParseTree → Build Expr
  | [] => return e
  | .node label span _ trees _ :: suffixes =>
    match label with
    | .indexSuffix =>
      match trees with
      | [] => missing
      | i :: _ => do
        let i ← buildExpr i
        buildSuffixes (Suffix.applyTo e (.index i span)) suffixes
    | _ => do
      let args ← buildArgs trees
      buildSuffixes (Suffix.applyTo e (.call args span)) suffixes

/-- Builds arguments, which are types or expressions. -/
def buildArgs : List ParseTree → Build (List Expr)
  | [] => return []
  | a :: as => do
    let a ← if a.label.isType then (buildType a).map fun t => .typeArg t { span := a.span } else buildExpr a
    let as ← buildArgs as
    return a :: as

end

/-! ## Statements -/

/-- What consists of a name and a type. -/
def buildNamed {α : Type} (make : String → TypeExpr → Span → α) : ParseTree → Build α
  | .node _ span front trees others => do
    let name ← firstName front others
    match trees with
    | [] => missing
    | t :: _ => do
      let t ← buildType t
      return make name.lexeme t span

/-- A variable of a unit or a body, or a field. -/
def buildVar : ParseTree → Build VarDecl := buildNamed VarDecl.mk

def buildParam : ParseTree → Build Param := buildNamed Param.mk

mutual

def buildStmt : ParseTree → Build Stmt
  | .node label span front trees others =>
    match label with
    | .varDecl => do
      let d ← buildVar (.node label span front trees others)
      return .var d
    | .assignStmt =>
      match trees with
      | [target, value] => do
        let target ← buildExpr target
        check (Expr.targetFault? target)
        let value ← buildExpr value
        return .assign target value span
      | _ => missing
    | .callStmt =>
      match trees with
      | [] => missing
      | e :: _ => do
        let e ← buildExpr e
        check (Expr.bareFault? e)
        return .call e span
    | .ifStmt => buildIf span trees
    | .whileStmt =>
      match trees with
      | [c, .node _ braces _ body _] => do
        let c ← buildExpr c
        let body ← buildStmts body
        return .whileDo c body (.around braces) span
      | _ => missing
    | .breakStmt => return .breakLoop span
    | .continueStmt => return .continueLoop span
    | .labelStmt => do
      let name ← firstName front others
      return .label name.lexeme none span
    | .gotoStmt => do
      let name ← firstName front others
      return .goto name.lexeme none span
    | .block => do
      let ss ← buildStmts trees
      return .block ss span
    | label => unexpected label

/-- Builds a conditional statement from its subtrees. What follows the `else` and is no other one is taken for a block. -/
def buildIf (span : Span) : List ParseTree → Build Stmt
  | [c, .node _ braces _ body _] => do
    let c ← buildExpr c
    let body ← buildStmts body
    return .ifThen c body (.around braces) none span
  | c :: .node _ braces _ body _ :: .node label inner _ trees _ :: _ => do
    let c ← buildExpr c
    let body ← buildStmts body
    match label with
    | .ifStmt => do
      let s ← buildIf inner trees
      return .ifThen c body (.around braces) (some s) span
    | _ => do
      let ss ← buildStmts trees
      return .ifThen c body (.around braces) (some (.block ss inner)) span
  | _ => missing

def buildStmts : List ParseTree → Build (List Stmt)
  | [] => return []
  | s :: ss => do
    let s ← buildStmt s
    let ss ← buildStmts ss
    return s :: ss

end

/-! ## Declarations -/

/-- What a constant is initialized with. -/
def buildConstant : ParseTree → Build Expr
  | .node label span front _ others =>
    match label with
    | .constRef => do
      let name ← firstName front others
      return nameExpr name
    | label => buildLiteral label span front

/-- Builds a function from its subtrees: the first is its result and the last its body. -/
def buildFunc (name : Token) (span : Span) : List ParseTree → Build FuncDecl
  | [] => missing
  | r :: ts => do
    let result ← buildType r
    let params ← ts.dropLast.mapM buildParam
    match ts.getLastD r with
    | .node _ braces _ trees _ => do
      let body ← buildStmts trees
      return { name := name.lexeme, result, params := params.map .param, body, braces := .around braces, span }

def buildDecl : ParseTree → Build Decl
  | .node label span front trees others =>
    match label with
    | .constDecl => do
      let name ← firstName front others
      match trees with
      | [] => missing
      | e :: _ => do
        let e ← buildConstant e
        return .const ⟨name.lexeme, e, span⟩
    | .varDecl => do
      let d ← buildVar (.node label span front trees others)
      return .var d
    | .structDecl => do
      let name ← firstName front others
      let fields ← trees.mapM buildVar
      return .struct { name := name.lexeme, fields := fields.map .var, span }
    | .funDecl => do
      let name ← firstName front others
      let d ← buildFunc name span trees
      return .func d
    | label => unexpected label

/-- Builds the declarations of a unit. -/
def buildUnit : List Part → Build (List Decl)
  | .tree (.node _ _ _ trees _) :: _ => trees.mapM buildDecl
  | _ => missing

end FlatScope.Grammar
