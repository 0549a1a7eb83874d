/-
  The grammar. `Production` names every rule; `lhs` and `rhs` say what it derives from what. Lists of one kind have a
  nonterminal of their own and grow at their end, an absent list is a rule of its own, and only `unit` derives the
  empty text. So a rule with a right-hand side never makes a stack of symbols heavier (`weight_lhs_lt`), which is
  why reducing by rules comes to an end.
-/
import FlatScope.Token.Kind

namespace FlatScope.Grammar

/-- The classes of phrases. A `chain` is a name with index and call suffixes behind it, and an `opener` is an opening
bracket, touching or spaced. -/
inductive Nonterminal
  | unit | decls | decl | constDecl | constRef | varDecl | structDecl | fields | funDecl | params | param
  | type | types | baseType | primitive | arraySize | block | stmts | stmt | assignStmt | callStmt | ifStmt
  | whileStmt | breakStmt | continueStmt | labelStmt | gotoStmt | expr | chain | suffixes | suffix
  | indexSuffix | callSuffix | args | arg | typeArg | composite | exprs | opener | literal
deriving DecidableEq, Repr, Inhabited

/-- A symbol of the grammar: a kind of token or a class of phrases. -/
inductive Sym
  | t (kind : Kind)
  | n (phrase : Nonterminal)
deriving DecidableEq, Repr, Inhabited

/-- The rules. -/
inductive Production
  | unitEmpty | unitDecls
  | declsOne | declsMore
  | declConst | declVar | declStruct | declFun
  | constLiteral | constAlias
  | constRefName
  | varTyped
  | structMany | structOne
  | fieldsOne | fieldsMore
  | funMany | funOne | funNone
  | paramsOne | paramsMore
  | paramTyped
  | typeBase | typePointer | typeArray | typeFunMany | typeFunOne | typeFunNone
  | typesOne | typesMore
  | basePrimitive | baseNamed
  | primitiveInt | primitiveFloat | primitiveByte | primitiveVoid
  | sizeInteger | sizeName
  | blockStmts | blockEmpty
  | stmtsOneSemi | stmtsOne | stmtsMoreSemi | stmtsMore
  | stmtVar | stmtAssign | stmtCall | stmtIf | stmtWhile | stmtBreak | stmtContinue | stmtLabel | stmtGoto
  | stmtBlock
  | assignTo
  | callChain
  | ifElseIf | ifElse | ifOnly
  | whileLoop
  | breakWord
  | continueWord
  | labelNamed
  | gotoLabel
  | exprChain | exprLiteral | exprComposite
  | chainName | chainNameSuffixes | chainBuiltin | chainBuiltinSuffixes
  | suffixesOne | suffixesMore
  | suffixIndex | suffixCall
  | indexExpr
  | callMany | callOne | callNone
  | argsOne | argsMore
  | argExpr | argType
  | typeArgPrimitive | typeArgNamedPointer | typeArgPointer | typeArgArray | typeArgFunMany | typeArgFunOne
  | typeArgFunNone
  | compositeMany | compositeOne | compositeNone
  | exprsOne | exprsMore
  | openSpaced | openAdjacent
  | literalInt | literalReal | literalByte | literalChar
deriving DecidableEq, Repr

namespace Production

/-- The class of phrases that a rule makes. -/
@[reducible] def lhs : Production → Nonterminal
  | .unitEmpty | .unitDecls => .unit
  | .declsOne | .declsMore => .decls
  | .declConst | .declVar | .declStruct | .declFun => .decl
  | .constLiteral | .constAlias => .constDecl
  | .constRefName => .constRef
  | .varTyped => .varDecl
  | .structMany | .structOne => .structDecl
  | .fieldsOne | .fieldsMore => .fields
  | .funMany | .funOne | .funNone => .funDecl
  | .paramsOne | .paramsMore => .params
  | .paramTyped => .param
  | .typeBase | .typePointer | .typeArray | .typeFunMany | .typeFunOne | .typeFunNone => .type
  | .typesOne | .typesMore => .types
  | .basePrimitive | .baseNamed => .baseType
  | .primitiveInt | .primitiveFloat | .primitiveByte | .primitiveVoid => .primitive
  | .sizeInteger | .sizeName => .arraySize
  | .blockStmts | .blockEmpty => .block
  | .stmtsOneSemi | .stmtsOne | .stmtsMoreSemi | .stmtsMore => .stmts
  | .stmtVar | .stmtAssign | .stmtCall | .stmtIf | .stmtWhile | .stmtBreak | .stmtContinue | .stmtLabel
  | .stmtGoto | .stmtBlock => .stmt
  | .assignTo => .assignStmt
  | .callChain => .callStmt
  | .ifElseIf | .ifElse | .ifOnly => .ifStmt
  | .whileLoop => .whileStmt
  | .breakWord => .breakStmt
  | .continueWord => .continueStmt
  | .labelNamed => .labelStmt
  | .gotoLabel => .gotoStmt
  | .exprChain | .exprLiteral | .exprComposite => .expr
  | .chainName | .chainNameSuffixes | .chainBuiltin | .chainBuiltinSuffixes => .chain
  | .suffixesOne | .suffixesMore => .suffixes
  | .suffixIndex | .suffixCall => .suffix
  | .indexExpr => .indexSuffix
  | .callMany | .callOne | .callNone => .callSuffix
  | .argsOne | .argsMore => .args
  | .argExpr | .argType => .arg
  | .typeArgPrimitive | .typeArgNamedPointer | .typeArgPointer | .typeArgArray | .typeArgFunMany
  | .typeArgFunOne | .typeArgFunNone => .typeArg
  | .compositeMany | .compositeOne | .compositeNone => .composite
  | .exprsOne | .exprsMore => .exprs
  | .openSpaced | .openAdjacent => .opener
  | .literalInt | .literalReal | .literalByte | .literalChar => .literal

/-- What a phrase made by a rule consists of. -/
@[reducible] def rhs : Production → List Sym
  | .unitEmpty => []
  | .unitDecls => [.n .decls]
  | .declsOne => [.n .decl]
  | .declsMore => [.n .decls, .n .decl]
  | .declConst => [.n .constDecl]
  | .declVar => [.n .varDecl]
  | .declStruct => [.n .structDecl]
  | .declFun => [.n .funDecl]
  | .constLiteral => [.t .constKw, .t .name, .n .literal]
  | .constAlias => [.t .constKw, .t .name, .n .constRef]
  | .constRefName => [.t .name]
  | .varTyped => [.t .varKw, .t .name, .n .type]
  | .structMany => [.t .structKw, .t .name, .n .opener, .n .varDecl, .n .fields, .t .closeBracket]
  | .structOne => [.t .structKw, .t .name, .n .opener, .n .varDecl, .t .closeBracket]
  | .fieldsOne => [.t .comma, .n .varDecl]
  | .fieldsMore => [.n .fields, .t .comma, .n .varDecl]
  | .funMany => [.t .funKw, .t .name, .n .type, .t .paren, .n .param, .n .params, .t .closeParen, .n .block]
  | .funOne => [.t .funKw, .t .name, .n .type, .t .paren, .n .param, .t .closeParen, .n .block]
  | .funNone => [.t .funKw, .t .name, .n .type, .t .paren, .t .closeParen, .n .block]
  | .paramsOne => [.t .comma, .n .param]
  | .paramsMore => [.n .params, .t .comma, .n .param]
  | .paramTyped => [.t .varKw, .t .name, .n .type]
  | .typeBase => [.n .baseType]
  | .typePointer => [.n .type, .t .star]
  | .typeArray => [.n .type, .t .bracket, .n .arraySize, .t .closeBracket]
  | .typeFunMany => [.n .type, .t .paren, .n .type, .n .types, .t .closeParen, .t .star]
  | .typeFunOne => [.n .type, .t .paren, .n .type, .t .closeParen, .t .star]
  | .typeFunNone => [.n .type, .t .paren, .t .closeParen, .t .star]
  | .typesOne => [.t .comma, .n .type]
  | .typesMore => [.n .types, .t .comma, .n .type]
  | .basePrimitive => [.n .primitive]
  | .baseNamed => [.t .name]
  | .primitiveInt => [.t .intKw]
  | .primitiveFloat => [.t .floatKw]
  | .primitiveByte => [.t .byteKw]
  | .primitiveVoid => [.t .voidKw]
  | .sizeInteger => [.t .integer]
  | .sizeName => [.t .name]
  | .blockStmts => [.t .openBrace, .n .stmts, .t .closeBrace]
  | .blockEmpty => [.t .openBrace, .t .closeBrace]
  | .stmtsOneSemi => [.n .stmt, .t .semicolon]
  | .stmtsOne => [.n .stmt]
  | .stmtsMoreSemi => [.n .stmts, .n .stmt, .t .semicolon]
  | .stmtsMore => [.n .stmts, .n .stmt]
  | .stmtVar => [.n .varDecl]
  | .stmtAssign => [.n .assignStmt]
  | .stmtCall => [.n .callStmt]
  | .stmtIf => [.n .ifStmt]
  | .stmtWhile => [.n .whileStmt]
  | .stmtBreak => [.n .breakStmt]
  | .stmtContinue => [.n .continueStmt]
  | .stmtLabel => [.n .labelStmt]
  | .stmtGoto => [.n .gotoStmt]
  | .stmtBlock => [.n .block]
  | .assignTo => [.n .chain, .t .assign, .n .expr]
  | .callChain => [.n .chain]
  | .ifElseIf => [.t .ifKw, .n .expr, .n .block, .t .elseKw, .n .ifStmt]
  | .ifElse => [.t .ifKw, .n .expr, .n .block, .t .elseKw, .n .block]
  | .ifOnly => [.t .ifKw, .n .expr, .n .block]
  | .whileLoop => [.t .whileKw, .n .expr, .n .block]
  | .breakWord => [.t .breakKw]
  | .continueWord => [.t .continueKw]
  | .labelNamed => [.t .labelKw, .t .name]
  | .gotoLabel => [.t .gotoKw, .t .labelKw, .t .name]
  | .exprChain => [.n .chain]
  | .exprLiteral => [.n .literal]
  | .exprComposite => [.n .composite]
  | .chainName => [.t .name]
  | .chainNameSuffixes => [.t .name, .n .suffixes]
  | .chainBuiltin => [.t .builtin]
  | .chainBuiltinSuffixes => [.t .builtin, .n .suffixes]
  | .suffixesOne => [.n .suffix]
  | .suffixesMore => [.n .suffixes, .n .suffix]
  | .suffixIndex => [.n .indexSuffix]
  | .suffixCall => [.n .callSuffix]
  | .indexExpr => [.t .bracket, .n .expr, .t .closeBracket]
  | .callMany => [.t .paren, .n .arg, .n .args, .t .closeParen]
  | .callOne => [.t .paren, .n .arg, .t .closeParen]
  | .callNone => [.t .paren, .t .closeParen]
  | .argsOne => [.t .comma, .n .arg]
  | .argsMore => [.n .args, .t .comma, .n .arg]
  | .argExpr => [.n .expr]
  | .argType => [.n .typeArg]
  | .typeArgPrimitive => [.n .primitive]
  | .typeArgNamedPointer => [.t .name, .t .star]
  | .typeArgPointer => [.n .typeArg, .t .star]
  | .typeArgArray => [.n .typeArg, .t .bracket, .n .arraySize, .t .closeBracket]
  | .typeArgFunMany => [.n .typeArg, .t .paren, .n .type, .n .types, .t .closeParen, .t .star]
  | .typeArgFunOne => [.n .typeArg, .t .paren, .n .type, .t .closeParen, .t .star]
  | .typeArgFunNone => [.n .typeArg, .t .paren, .t .closeParen, .t .star]
  | .compositeMany => [.n .opener, .n .expr, .n .exprs, .t .closeBracket]
  | .compositeOne => [.n .opener, .n .expr, .t .closeBracket]
  | .compositeNone => [.n .opener, .t .closeBracket]
  | .exprsOne => [.t .comma, .n .expr]
  | .exprsMore => [.n .exprs, .t .comma, .n .expr]
  | .openSpaced => [.t .spacedBracket]
  | .openAdjacent => [.t .bracket]
  | .literalInt => [.t .integer]
  | .literalReal => [.t .real]
  | .literalByte => [.t .byte]
  | .literalChar => [.t .char]

end Production

/-! ## Weights -/

/-- The weight of a symbol. Tokens are the heaviest, and a phrase is lighter than what it can consist of. -/
def Sym.weight : Sym → Nat
  | .t _ => 9
  | .n .stmts => 5
  | .n .decls | .n .type | .n .stmt | .n .suffixes | .n .arg => 6
  | .n .decl | .n .baseType | .n .callStmt | .n .expr | .n .suffix | .n .typeArg => 7
  | .n _ => 8

/-- The weight of a list of symbols. -/
def weight : List Sym → Nat
  | [] => 0
  | s :: ss => s.weight + weight ss

theorem weight_append (xs ys : List Sym) : weight (xs ++ ys) = weight xs + weight ys := by
  induction xs with
  | nil => simp [weight]
  | cons x xs ih => simp only [List.cons_append, weight, ih]; omega

theorem weight_reverse (xs : List Sym) : weight xs.reverse = weight xs := by
  induction xs with
  | nil => rfl
  | cons x xs ih => rw [List.reverse_cons, weight_append, ih]; simp only [weight]; omega

/-- A phrase other than a whole unit is lighter than its parts together. -/
theorem weight_lhs_lt (p : Production) (h : p.lhs ≠ .unit) : (Sym.n p.lhs).weight < weight p.rhs := by
  revert h; cases p <;> decide

end FlatScope.Grammar
