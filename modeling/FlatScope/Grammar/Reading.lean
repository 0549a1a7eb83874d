/-
  Reading a derivation: every rule makes a value from the values of its parts, and so a derivation of a unit is
  read as its declarations. Suffixes of types and of names nest from left to right. What a phrase covers is known
  from its first and last part.
-/
import FlatScope.Builtin
import FlatScope.Grammar.Derivation
import FlatScope.Token.Literal
import FlatScope.Tree.Basic

namespace FlatScope.Grammar

/-- What follows a name in an expression: an index or arguments. -/
inductive Suffix
  | index (index : Expr) (span : Span)
  | call (args : List Expr) (span : Span)

/-- A body and where its braces are. -/
structure Body where
  statements : List Stmt
  braces : Span

/-- What a class of phrases is read as. -/
@[reducible] def Nonterminal.Value : Nonterminal → Type
  | .unit | .decls => List Decl
  | .decl => Decl
  | .constDecl => ConstDecl
  | .constRef => Expr
  | .varDecl => VarDecl
  | .structDecl => StructDecl
  | .fields => List VarDecl
  | .funDecl => FuncDecl
  | .params => List Param
  | .param => Param
  | .type | .baseType | .primitive | .typeArg => TypeExpr
  | .types => List TypeExpr
  | .arraySize => ArraySize
  | .block => Body
  | .stmts => List Stmt
  | .stmt | .assignStmt | .callStmt | .ifStmt | .whileStmt | .breakStmt | .continueStmt | .labelStmt
  | .gotoStmt => Stmt
  | .expr | .chain | .arg | .composite | .literal => Expr
  | .suffixes => List Suffix
  | .suffix | .indexSuffix | .callSuffix => Suffix
  | .args | .exprs => List Expr
  | .opener => Token

/-- What a symbol is read as. -/
@[reducible] def Sym.Value : Sym → Type
  | .t _ => Token
  | .n x => x.Value

/-- What a list of symbols is read as. -/
@[reducible] def Values : List Sym → Type
  | [] => Unit
  | s :: ss => s.Value × Values ss

/-! ## Pieces of expressions and types -/

/-- The argument is a type. -/
def isTypeArg : Expr → Bool
  | .typeArg .. => true
  | _ => false

/-- A suffix put behind an expression. The address form on one expression is an address, not a call. -/
def Suffix.applyTo (e : Expr) : Suffix → Expr
  | .index i span => .index e i { span := .join e.span span }
  | .call args span =>
    let info : Info := { span := .join e.span span }
    match e, args with
    | .ident name _ _, [arg] =>
      if name = SpecialForm.addr.name ∧ !isTypeArg arg then .addrOf arg info else .call e args info
    | _, _ => .call e args info

/-- A name as an expression. -/
def nameExpr (t : Token) : Expr := .ident t.lexeme none { span := t.span }

/-- A name with suffixes behind it. -/
def suffixed (t : Token) (suffixes : List Suffix) : Expr := suffixes.foldl Suffix.applyTo (nameExpr t)

/-- A word as a type. -/
def wordType (t : Token) : TypeExpr := .named t.lexeme t.span

/-- A function type, up to its closing star. -/
def functionType (result : TypeExpr) (params : List TypeExpr) (star : Token) : TypeExpr :=
  .func result params (.join result.span star.span)

/-- An array type, up to its closing bracket. -/
def arrayType (element : TypeExpr) (size : ArraySize) (close : Token) : TypeExpr :=
  .array element size (.join element.span close.span)

/-- A pointer type, up to its star. -/
def pointerType (element : TypeExpr) (star : Token) : TypeExpr :=
  .pointer element (.join element.span star.span)

/-- A composite literal between its brackets. -/
def compositeLiteral (opener : Token) (elements : List Expr) (close : Token) : Expr :=
  .composite elements { span := .join opener.span close.span }

/-- A struct, up to its closing bracket. -/
def struct (start name : Token) (fields : List VarDecl) (close : Token) : StructDecl where
  name := name.lexeme
  fields := fields.map .var
  span := .join start.span close.span

/-- A function with its body. -/
def function (start name : Token) (result : TypeExpr) (params : List Param) (body : Body) : FuncDecl where
  name := name.lexeme
  result
  params := params.map .param
  body := body.statements
  braces := .around body.braces
  span := .join start.span body.braces

/-! ## Rules -/

/-- What a rule makes of the values of its parts. -/
def Production.read : (p : Production) → Values p.rhs → p.lhs.Value
  | .unitEmpty, () => []
  | .unitDecls, (ds, ()) => ds
  | .declsOne, (d, ()) => [d]
  | .declsMore, (ds, d, ()) => ds ++ [d]
  | .declConst, (d, ()) => .const d
  | .declVar, (d, ()) => .var d
  | .declStruct, (d, ()) => .struct d
  | .declFun, (d, ()) => .func d
  | .constLiteral, (start, name, e, ()) => ⟨name.lexeme, e, .join start.span e.span⟩
  | .constAlias, (start, name, e, ()) => ⟨name.lexeme, e, .join start.span e.span⟩
  | .constRefName, (name, ()) => nameExpr name
  | .varTyped, (start, name, t, ()) => ⟨name.lexeme, t, .join start.span t.span⟩
  | .structMany, (start, name, _, d, ds, close, ()) => struct start name (d :: ds) close
  | .structOne, (start, name, _, d, close, ()) => struct start name [d] close
  | .fieldsOne, (_, d, ()) => [d]
  | .fieldsMore, (ds, _, d, ()) => ds ++ [d]
  | .funMany, (start, name, t, _, p, ps, _, b, ()) => function start name t (p :: ps) b
  | .funOne, (start, name, t, _, p, _, b, ()) => function start name t [p] b
  | .funNone, (start, name, t, _, _, b, ()) => function start name t [] b
  | .paramsOne, (_, p, ()) => [p]
  | .paramsMore, (ps, _, p, ()) => ps ++ [p]
  | .paramTyped, (start, name, t, ()) => ⟨name.lexeme, t, .join start.span t.span⟩
  | .typeBase, (t, ()) => t
  | .typePointer, (t, star, ()) => pointerType t star
  | .typeArray, (t, _, size, close, ()) => arrayType t size close
  | .typeFunMany, (r, _, t, ts, _, star, ()) => functionType r (t :: ts) star
  | .typeFunOne, (r, _, t, _, star, ()) => functionType r [t] star
  | .typeFunNone, (r, _, _, star, ()) => functionType r [] star
  | .typesOne, (_, t, ()) => [t]
  | .typesMore, (ts, _, t, ()) => ts ++ [t]
  | .basePrimitive, (t, ()) => t
  | .baseNamed, (name, ()) => wordType name
  | .primitiveInt, (word, ()) => wordType word
  | .primitiveFloat, (word, ()) => wordType word
  | .primitiveByte, (word, ()) => wordType word
  | .primitiveVoid, (word, ()) => wordType word
  | .sizeInteger, (n, ()) => .int n.intValue
  | .sizeName, (name, ()) => .name name.lexeme
  | .blockStmts, (o, ss, c, ()) => ⟨ss, .join o.span c.span⟩
  | .blockEmpty, (o, c, ()) => ⟨[], .join o.span c.span⟩
  | .stmtsOneSemi, (s, _, ()) => [s]
  | .stmtsOne, (s, ()) => [s]
  | .stmtsMoreSemi, (ss, s, _, ()) => ss ++ [s]
  | .stmtsMore, (ss, s, ()) => ss ++ [s]
  | .stmtVar, (d, ()) => .var d
  | .stmtAssign, (s, ()) => s
  | .stmtCall, (s, ()) => s
  | .stmtIf, (s, ()) => s
  | .stmtWhile, (s, ()) => s
  | .stmtBreak, (s, ()) => s
  | .stmtContinue, (s, ()) => s
  | .stmtLabel, (s, ()) => s
  | .stmtGoto, (s, ()) => s
  | .stmtBlock, (b, ()) => .block b.statements b.braces
  | .assignTo, (target, _, value, ()) => .assign target value (.join target.span value.span)
  | .callChain, (e, ()) => .call e e.span
  | .ifElseIf, (start, c, b, _, s, ()) =>
    .ifThen c b.statements (.around b.braces) (some s) (.join start.span s.span)
  | .ifElse, (start, c, b, _, e, ()) =>
    .ifThen c b.statements (.around b.braces) (some (.block e.statements e.braces))
      (.join start.span e.braces)
  | .ifOnly, (start, c, b, ()) => .ifThen c b.statements (.around b.braces) none (.join start.span b.braces)
  | .whileLoop, (start, c, b, ()) => .whileDo c b.statements (.around b.braces) (.join start.span b.braces)
  | .breakWord, (word, ()) => .breakLoop word.span
  | .continueWord, (word, ()) => .continueLoop word.span
  | .labelNamed, (start, name, ()) => .label name.lexeme none (.join start.span name.span)
  | .gotoLabel, (start, _, name, ()) => .goto name.lexeme none (.join start.span name.span)
  | .exprChain, (e, ()) => e
  | .exprLiteral, (e, ()) => e
  | .exprComposite, (e, ()) => e
  | .chainName, (name, ()) => nameExpr name
  | .chainNameSuffixes, (name, ss, ()) => suffixed name ss
  | .chainBuiltin, (name, ()) => nameExpr name
  | .chainBuiltinSuffixes, (name, ss, ()) => suffixed name ss
  | .suffixesOne, (s, ()) => [s]
  | .suffixesMore, (ss, s, ()) => ss ++ [s]
  | .suffixIndex, (s, ()) => s
  | .suffixCall, (s, ()) => s
  | .indexExpr, (o, e, c, ()) => .index e (.join o.span c.span)
  | .callMany, (o, a, as, c, ()) => .call (a :: as) (.join o.span c.span)
  | .callOne, (o, a, c, ()) => .call [a] (.join o.span c.span)
  | .callNone, (o, c, ()) => .call [] (.join o.span c.span)
  | .argsOne, (_, a, ()) => [a]
  | .argsMore, (as, _, a, ()) => as ++ [a]
  | .argExpr, (e, ()) => e
  | .argType, (t, ()) => .typeArg t { span := t.span }
  | .typeArgPrimitive, (t, ()) => t
  | .typeArgNamedPointer, (name, star, ()) => pointerType (wordType name) star
  | .typeArgPointer, (t, star, ()) => pointerType t star
  | .typeArgArray, (t, _, size, close, ()) => arrayType t size close
  | .typeArgFunMany, (r, _, t, ts, _, star, ()) => functionType r (t :: ts) star
  | .typeArgFunOne, (r, _, t, _, star, ()) => functionType r [t] star
  | .typeArgFunNone, (r, _, _, star, ()) => functionType r [] star
  | .compositeMany, (o, e, es, c, ()) => compositeLiteral o (e :: es) c
  | .compositeOne, (o, e, c, ()) => compositeLiteral o [e] c
  | .compositeNone, (o, c, ()) => compositeLiteral o [] c
  | .exprsOne, (_, e, ()) => [e]
  | .exprsMore, (es, _, e, ()) => es ++ [e]
  | .openSpaced, (o, ()) => o
  | .openAdjacent, (o, ()) => o
  | .literalInt, (t, ()) => .int t.intValue { span := t.span }
  | .literalReal, (t, ()) => .real t.realValue { span := t.span }
  | .literalByte, (t, ()) => .byte t.byteValue { span := t.span }
  | .literalChar, (t, ()) => .byte t.byteValue { span := t.span }

mutual

/-- What a derivation is read as. -/
def Derivation.value : {s : Sym} → Derivation s → s.Value
  | _, .leaf token => token
  | _, .node p children => p.read children.values

def Forest.values : {ss : List Sym} → Forest ss → Values ss
  | _, .nil => ()
  | _, .cons head tail => (head.value, tail.values)

end

end FlatScope.Grammar
