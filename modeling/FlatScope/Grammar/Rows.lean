/-
  The table of the grammar. The comment at each state shows how far it is within which rules; the lists in front of
  the table hold the kinds of tokens that may follow a phrase. No state has two things to do in front of
  one token.
-/
import FlatScope.Grammar.Table

namespace FlatScope.Grammar.Follow

/-- What may follow a declaration. -/
def afterDecl : List Kind :=
  [.constKw, .varKw, .structKw, .funKw, .endOfInput]

/-- What may follow the whole unit. -/
def afterUnit : List Kind :=
  [.endOfInput]

/-- What may follow a statement. -/
def afterStmt : List Kind :=
  [.varKw, .ifKw, .whileKw, .breakKw, .continueKw, .labelKw, .gotoKw, .name, .builtin, .semicolon,
    .openBrace, .closeBrace]

/-- What may follow a statement and its semicolon, or a statement without one. -/
def afterStmtEnd : List Kind :=
  [.varKw, .ifKw, .whileKw, .breakKw, .continueKw, .labelKw, .gotoKw, .name, .builtin, .openBrace,
    .closeBrace]

/-- What may follow a block. -/
def afterBlock : List Kind :=
  [.constKw, .varKw, .structKw, .funKw, .ifKw, .elseKw, .whileKw, .breakKw, .continueKw, .labelKw, .gotoKw,
    .name, .builtin, .semicolon, .openBrace, .closeBrace, .endOfInput]

/-- What may follow an expression. -/
def afterExpr : List Kind :=
  [.varKw, .ifKw, .whileKw, .breakKw, .continueKw, .labelKw, .gotoKw, .name, .builtin, .comma, .semicolon,
    .openBrace, .closeBrace, .closeBracket, .closeParen]

/-- What may follow a name with all its suffixes. -/
def afterChain : List Kind :=
  [.varKw, .ifKw, .whileKw, .breakKw, .continueKw, .labelKw, .gotoKw, .name, .builtin, .assign, .comma,
    .semicolon, .openBrace, .closeBrace, .closeBracket, .closeParen]

/-- What may follow a suffix. -/
def afterSuffix : List Kind :=
  [.varKw, .ifKw, .whileKw, .breakKw, .continueKw, .labelKw, .gotoKw, .name, .builtin, .assign, .comma,
    .semicolon, .openBrace, .closeBrace, .closeBracket, .closeParen, .bracket, .paren]

/-- What may follow a name without suffixes that cannot begin a type. -/
def afterBareName : List Kind :=
  [.varKw, .ifKw, .whileKw, .breakKw, .continueKw, .labelKw, .gotoKw, .name, .builtin, .assign, .comma,
    .semicolon, .openBrace, .closeBrace, .closeBracket]

/-- What may follow a literal. -/
def afterLiteral : List Kind :=
  [.constKw, .varKw, .structKw, .funKw, .ifKw, .whileKw, .breakKw, .continueKw, .labelKw, .gotoKw, .name,
    .builtin, .comma, .semicolon, .openBrace, .closeBrace, .closeBracket, .closeParen, .endOfInput]

/-- What may follow a type. -/
def afterType : List Kind :=
  [.constKw, .varKw, .structKw, .funKw, .ifKw, .whileKw, .breakKw, .continueKw, .labelKw, .gotoKw, .name,
    .builtin, .comma, .semicolon, .openBrace, .closeBrace, .closeBracket, .closeParen, .bracket, .paren,
    .star, .endOfInput]

/-- What may follow a variable declaration. -/
def afterVar : List Kind :=
  [.constKw, .varKw, .structKw, .funKw, .ifKw, .whileKw, .breakKw, .continueKw, .labelKw, .gotoKw, .name,
    .builtin, .comma, .semicolon, .openBrace, .closeBrace, .closeBracket, .endOfInput]

/-- What may follow a member of a list in parentheses. -/
def afterListed : List Kind :=
  [.comma, .closeParen]

/-- What may follow a member of a list in brackets. -/
def afterElement : List Kind :=
  [.comma, .closeBracket]

/-- What may follow the length of an array. -/
def afterSize : List Kind :=
  [.closeBracket]

/-- What may follow a type as an argument. -/
def afterTypeArg : List Kind :=
  [.comma, .closeParen, .bracket, .paren, .star]

/-- What may follow an opening bracket. -/
def afterOpener : List Kind :=
  [.varKw, .name, .builtin, .real, .byte, .integer, .char, .closeBracket, .spacedBracket, .bracket]

end FlatScope.Grammar.Follow

namespace FlatScope.Grammar

open Follow in
/-- The rows of the table, by state. -/
def rows : Array Row := #[
  -- 0   input: · unit
  ⟨[(.t .constKw, 1), (.t .varKw, 2), (.t .structKw, 3), (.t .funKw, 4), (.n .decls, 6), (.n .decl, 7),
    (.n .constDecl, 8), (.n .varDecl, 9), (.n .structDecl, 10), (.n .funDecl, 11)], [(.unitEmpty, afterUnit)]⟩,
  -- 1   constDecl: constKw · name literal
  --     constDecl: constKw · name constRef
  ⟨[(.t .name, 12)], []⟩,
  -- 2   varDecl: varKw · name type
  ⟨[(.t .name, 13)], []⟩,
  -- 3   structDecl: structKw · name opener varDecl fields closeBracket
  --     structDecl: structKw · name opener varDecl closeBracket
  ⟨[(.t .name, 14)], []⟩,
  -- 4   funDecl: funKw · name type paren param params closeParen block
  --     funDecl: funKw · name type paren param closeParen block
  --     funDecl: funKw · name type paren closeParen block
  ⟨[(.t .name, 15)], []⟩,
  -- 5   input: unit ·
  ⟨[], []⟩,
  -- 6   unit: decls ·
  --     decls: decls · decl
  ⟨[(.t .constKw, 1), (.t .varKw, 2), (.t .structKw, 3), (.t .funKw, 4), (.n .decl, 16), (.n .constDecl, 8),
    (.n .varDecl, 9), (.n .structDecl, 10), (.n .funDecl, 11)], [(.unitDecls, afterUnit)]⟩,
  -- 7   decls: decl ·
  ⟨[], [(.declsOne, afterDecl)]⟩,
  -- 8   decl: constDecl ·
  ⟨[], [(.declConst, afterDecl)]⟩,
  -- 9   decl: varDecl ·
  ⟨[], [(.declVar, afterDecl)]⟩,
  -- 10  decl: structDecl ·
  ⟨[], [(.declStruct, afterDecl)]⟩,
  -- 11  decl: funDecl ·
  ⟨[], [(.declFun, afterDecl)]⟩,
  -- 12  constDecl: constKw name · literal
  --     constDecl: constKw name · constRef
  ⟨[(.t .name, 17), (.t .real, 18), (.t .byte, 19), (.t .integer, 20), (.t .char, 21), (.n .constRef, 22),
    (.n .literal, 23)], []⟩,
  -- 13  varDecl: varKw name · type
  ⟨[(.t .intKw, 24), (.t .floatKw, 25), (.t .byteKw, 26), (.t .voidKw, 27), (.t .name, 28), (.n .type, 29),
    (.n .baseType, 30), (.n .primitive, 31)], []⟩,
  -- 14  structDecl: structKw name · opener varDecl fields closeBracket
  --     structDecl: structKw name · opener varDecl closeBracket
  ⟨[(.t .spacedBracket, 32), (.t .bracket, 33), (.n .opener, 34)], []⟩,
  -- 15  funDecl: funKw name · type paren param params closeParen block
  --     funDecl: funKw name · type paren param closeParen block
  --     funDecl: funKw name · type paren closeParen block
  ⟨[(.t .intKw, 24), (.t .floatKw, 25), (.t .byteKw, 26), (.t .voidKw, 27), (.t .name, 28), (.n .type, 35),
    (.n .baseType, 30), (.n .primitive, 31)], []⟩,
  -- 16  decls: decls decl ·
  ⟨[], [(.declsMore, afterDecl)]⟩,
  -- 17  constRef: name ·
  ⟨[], [(.constRefName, afterDecl)]⟩,
  -- 18  literal: real ·
  ⟨[], [(.literalReal, afterLiteral)]⟩,
  -- 19  literal: byte ·
  ⟨[], [(.literalByte, afterLiteral)]⟩,
  -- 20  literal: integer ·
  ⟨[], [(.literalInt, afterLiteral)]⟩,
  -- 21  literal: char ·
  ⟨[], [(.literalChar, afterLiteral)]⟩,
  -- 22  constDecl: constKw name constRef ·
  ⟨[], [(.constAlias, afterDecl)]⟩,
  -- 23  constDecl: constKw name literal ·
  ⟨[], [(.constLiteral, afterDecl)]⟩,
  -- 24  primitive: intKw ·
  ⟨[], [(.primitiveInt, afterType)]⟩,
  -- 25  primitive: floatKw ·
  ⟨[], [(.primitiveFloat, afterType)]⟩,
  -- 26  primitive: byteKw ·
  ⟨[], [(.primitiveByte, afterType)]⟩,
  -- 27  primitive: voidKw ·
  ⟨[], [(.primitiveVoid, afterType)]⟩,
  -- 28  baseType: name ·
  ⟨[], [(.baseNamed, afterType)]⟩,
  -- 29  varDecl: varKw name type ·
  --     type: type · star
  --     type: type · bracket arraySize closeBracket
  --     type: type · paren type types closeParen star
  --     type: type · paren type closeParen star
  --     type: type · paren closeParen star
  ⟨[(.t .bracket, 36), (.t .paren, 37), (.t .star, 38)], [(.varTyped, afterVar)]⟩,
  -- 30  type: baseType ·
  ⟨[], [(.typeBase, afterType)]⟩,
  -- 31  baseType: primitive ·
  ⟨[], [(.basePrimitive, afterType)]⟩,
  -- 32  opener: spacedBracket ·
  ⟨[], [(.openSpaced, afterOpener)]⟩,
  -- 33  opener: bracket ·
  ⟨[], [(.openAdjacent, afterOpener)]⟩,
  -- 34  structDecl: structKw name opener · varDecl fields closeBracket
  --     structDecl: structKw name opener · varDecl closeBracket
  ⟨[(.t .varKw, 2), (.n .varDecl, 39)], []⟩,
  -- 35  funDecl: funKw name type · paren param params closeParen block
  --     funDecl: funKw name type · paren param closeParen block
  --     funDecl: funKw name type · paren closeParen block
  --     type: type · star
  --     type: type · bracket arraySize closeBracket
  --     type: type · paren type types closeParen star
  --     type: type · paren type closeParen star
  --     type: type · paren closeParen star
  ⟨[(.t .bracket, 36), (.t .paren, 40), (.t .star, 38)], []⟩,
  -- 36  type: type bracket · arraySize closeBracket
  ⟨[(.t .name, 41), (.t .integer, 42), (.n .arraySize, 43)], []⟩,
  -- 37  type: type paren · type types closeParen star
  --     type: type paren · type closeParen star
  --     type: type paren · closeParen star
  ⟨[(.t .intKw, 24), (.t .floatKw, 25), (.t .byteKw, 26), (.t .voidKw, 27), (.t .name, 28),
    (.t .closeParen, 44), (.n .type, 45), (.n .baseType, 30), (.n .primitive, 31)], []⟩,
  -- 38  type: type star ·
  ⟨[], [(.typePointer, afterType)]⟩,
  -- 39  structDecl: structKw name opener varDecl · fields closeBracket
  --     structDecl: structKw name opener varDecl · closeBracket
  ⟨[(.t .comma, 46), (.t .closeBracket, 47), (.n .fields, 48)], []⟩,
  -- 40  funDecl: funKw name type paren · param params closeParen block
  --     funDecl: funKw name type paren · param closeParen block
  --     funDecl: funKw name type paren · closeParen block
  --     type: type paren · type types closeParen star
  --     type: type paren · type closeParen star
  --     type: type paren · closeParen star
  ⟨[(.t .varKw, 49), (.t .intKw, 24), (.t .floatKw, 25), (.t .byteKw, 26), (.t .voidKw, 27), (.t .name, 28),
    (.t .closeParen, 50), (.n .param, 51), (.n .type, 45), (.n .baseType, 30), (.n .primitive, 31)], []⟩,
  -- 41  arraySize: name ·
  ⟨[], [(.sizeName, afterSize)]⟩,
  -- 42  arraySize: integer ·
  ⟨[], [(.sizeInteger, afterSize)]⟩,
  -- 43  type: type bracket arraySize · closeBracket
  ⟨[(.t .closeBracket, 52)], []⟩,
  -- 44  type: type paren closeParen · star
  ⟨[(.t .star, 53)], []⟩,
  -- 45  type: type · star
  --     type: type · bracket arraySize closeBracket
  --     type: type · paren type types closeParen star
  --     type: type paren type · types closeParen star
  --     type: type · paren type closeParen star
  --     type: type paren type · closeParen star
  --     type: type · paren closeParen star
  ⟨[(.t .comma, 54), (.t .closeParen, 55), (.t .bracket, 36), (.t .paren, 37), (.t .star, 38),
    (.n .types, 56)], []⟩,
  -- 46  fields: comma · varDecl
  ⟨[(.t .varKw, 2), (.n .varDecl, 57)], []⟩,
  -- 47  structDecl: structKw name opener varDecl closeBracket ·
  ⟨[], [(.structOne, afterDecl)]⟩,
  -- 48  structDecl: structKw name opener varDecl fields · closeBracket
  --     fields: fields · comma varDecl
  ⟨[(.t .comma, 58), (.t .closeBracket, 59)], []⟩,
  -- 49  param: varKw · name type
  ⟨[(.t .name, 60)], []⟩,
  -- 50  funDecl: funKw name type paren closeParen · block
  --     type: type paren closeParen · star
  ⟨[(.t .openBrace, 61), (.t .star, 53), (.n .block, 62)], []⟩,
  -- 51  funDecl: funKw name type paren param · params closeParen block
  --     funDecl: funKw name type paren param · closeParen block
  ⟨[(.t .comma, 63), (.t .closeParen, 64), (.n .params, 65)], []⟩,
  -- 52  type: type bracket arraySize closeBracket ·
  ⟨[], [(.typeArray, afterType)]⟩,
  -- 53  type: type paren closeParen star ·
  ⟨[], [(.typeFunNone, afterType)]⟩,
  -- 54  types: comma · type
  ⟨[(.t .intKw, 24), (.t .floatKw, 25), (.t .byteKw, 26), (.t .voidKw, 27), (.t .name, 28), (.n .type, 66),
    (.n .baseType, 30), (.n .primitive, 31)], []⟩,
  -- 55  type: type paren type closeParen · star
  ⟨[(.t .star, 67)], []⟩,
  -- 56  type: type paren type types · closeParen star
  --     types: types · comma type
  ⟨[(.t .comma, 68), (.t .closeParen, 69)], []⟩,
  -- 57  fields: comma varDecl ·
  ⟨[], [(.fieldsOne, afterElement)]⟩,
  -- 58  fields: fields comma · varDecl
  ⟨[(.t .varKw, 2), (.n .varDecl, 70)], []⟩,
  -- 59  structDecl: structKw name opener varDecl fields closeBracket ·
  ⟨[], [(.structMany, afterDecl)]⟩,
  -- 60  param: varKw name · type
  ⟨[(.t .intKw, 24), (.t .floatKw, 25), (.t .byteKw, 26), (.t .voidKw, 27), (.t .name, 28), (.n .type, 71),
    (.n .baseType, 30), (.n .primitive, 31)], []⟩,
  -- 61  block: openBrace · stmts closeBrace
  --     block: openBrace · closeBrace
  ⟨[(.t .varKw, 2), (.t .ifKw, 72), (.t .whileKw, 73), (.t .breakKw, 74), (.t .continueKw, 75),
    (.t .labelKw, 76), (.t .gotoKw, 77), (.t .name, 78), (.t .builtin, 79), (.t .openBrace, 61),
    (.t .closeBrace, 80), (.n .varDecl, 81), (.n .block, 82), (.n .stmts, 83), (.n .stmt, 84),
    (.n .assignStmt, 85), (.n .callStmt, 86), (.n .ifStmt, 87), (.n .whileStmt, 88), (.n .breakStmt, 89),
    (.n .continueStmt, 90), (.n .labelStmt, 91), (.n .gotoStmt, 92), (.n .chain, 93)], []⟩,
  -- 62  funDecl: funKw name type paren closeParen block ·
  ⟨[], [(.funNone, afterDecl)]⟩,
  -- 63  params: comma · param
  ⟨[(.t .varKw, 49), (.n .param, 94)], []⟩,
  -- 64  funDecl: funKw name type paren param closeParen · block
  ⟨[(.t .openBrace, 61), (.n .block, 95)], []⟩,
  -- 65  funDecl: funKw name type paren param params · closeParen block
  --     params: params · comma param
  ⟨[(.t .comma, 96), (.t .closeParen, 97)], []⟩,
  -- 66  type: type · star
  --     type: type · bracket arraySize closeBracket
  --     type: type · paren type types closeParen star
  --     type: type · paren type closeParen star
  --     type: type · paren closeParen star
  --     types: comma type ·
  ⟨[(.t .bracket, 36), (.t .paren, 37), (.t .star, 38)], [(.typesOne, afterListed)]⟩,
  -- 67  type: type paren type closeParen star ·
  ⟨[], [(.typeFunOne, afterType)]⟩,
  -- 68  types: types comma · type
  ⟨[(.t .intKw, 24), (.t .floatKw, 25), (.t .byteKw, 26), (.t .voidKw, 27), (.t .name, 28), (.n .type, 98),
    (.n .baseType, 30), (.n .primitive, 31)], []⟩,
  -- 69  type: type paren type types closeParen · star
  ⟨[(.t .star, 99)], []⟩,
  -- 70  fields: fields comma varDecl ·
  ⟨[], [(.fieldsMore, afterElement)]⟩,
  -- 71  param: varKw name type ·
  --     type: type · star
  --     type: type · bracket arraySize closeBracket
  --     type: type · paren type types closeParen star
  --     type: type · paren type closeParen star
  --     type: type · paren closeParen star
  ⟨[(.t .bracket, 36), (.t .paren, 37), (.t .star, 38)], [(.paramTyped, afterListed)]⟩,
  -- 72  ifStmt: ifKw · expr block elseKw ifStmt
  --     ifStmt: ifKw · expr block elseKw block
  --     ifStmt: ifKw · expr block
  ⟨[(.t .name, 78), (.t .builtin, 79), (.t .real, 18), (.t .byte, 19), (.t .integer, 20), (.t .char, 21),
    (.t .spacedBracket, 32), (.t .bracket, 33), (.n .expr, 100), (.n .chain, 101), (.n .composite, 102),
    (.n .opener, 103), (.n .literal, 104)], []⟩,
  -- 73  whileStmt: whileKw · expr block
  ⟨[(.t .name, 78), (.t .builtin, 79), (.t .real, 18), (.t .byte, 19), (.t .integer, 20), (.t .char, 21),
    (.t .spacedBracket, 32), (.t .bracket, 33), (.n .expr, 105), (.n .chain, 101), (.n .composite, 102),
    (.n .opener, 103), (.n .literal, 104)], []⟩,
  -- 74  breakStmt: breakKw ·
  ⟨[], [(.breakWord, afterStmt)]⟩,
  -- 75  continueStmt: continueKw ·
  ⟨[], [(.continueWord, afterStmt)]⟩,
  -- 76  labelStmt: labelKw · name
  ⟨[(.t .name, 106)], []⟩,
  -- 77  gotoStmt: gotoKw · labelKw name
  ⟨[(.t .labelKw, 107)], []⟩,
  -- 78  chain: name ·
  --     chain: name · suffixes
  ⟨[(.t .bracket, 108), (.t .paren, 109), (.n .suffixes, 110), (.n .suffix, 111), (.n .indexSuffix, 112),
    (.n .callSuffix, 113)], [(.chainName, afterBareName)]⟩,
  -- 79  chain: builtin ·
  --     chain: builtin · suffixes
  ⟨[(.t .bracket, 108), (.t .paren, 109), (.n .suffixes, 114), (.n .suffix, 111), (.n .indexSuffix, 112),
    (.n .callSuffix, 113)], [(.chainBuiltin, afterChain)]⟩,
  -- 80  block: openBrace closeBrace ·
  ⟨[], [(.blockEmpty, afterBlock)]⟩,
  -- 81  stmt: varDecl ·
  ⟨[], [(.stmtVar, afterStmt)]⟩,
  -- 82  stmt: block ·
  ⟨[], [(.stmtBlock, afterStmt)]⟩,
  -- 83  block: openBrace stmts · closeBrace
  --     stmts: stmts · stmt semicolon
  --     stmts: stmts · stmt
  ⟨[(.t .varKw, 2), (.t .ifKw, 72), (.t .whileKw, 73), (.t .breakKw, 74), (.t .continueKw, 75),
    (.t .labelKw, 76), (.t .gotoKw, 77), (.t .name, 78), (.t .builtin, 79), (.t .openBrace, 61),
    (.t .closeBrace, 115), (.n .varDecl, 81), (.n .block, 82), (.n .stmt, 116), (.n .assignStmt, 85),
    (.n .callStmt, 86), (.n .ifStmt, 87), (.n .whileStmt, 88), (.n .breakStmt, 89), (.n .continueStmt, 90),
    (.n .labelStmt, 91), (.n .gotoStmt, 92), (.n .chain, 93)], []⟩,
  -- 84  stmts: stmt · semicolon
  --     stmts: stmt ·
  ⟨[(.t .semicolon, 117)], [(.stmtsOne, afterStmtEnd)]⟩,
  -- 85  stmt: assignStmt ·
  ⟨[], [(.stmtAssign, afterStmt)]⟩,
  -- 86  stmt: callStmt ·
  ⟨[], [(.stmtCall, afterStmt)]⟩,
  -- 87  stmt: ifStmt ·
  ⟨[], [(.stmtIf, afterStmt)]⟩,
  -- 88  stmt: whileStmt ·
  ⟨[], [(.stmtWhile, afterStmt)]⟩,
  -- 89  stmt: breakStmt ·
  ⟨[], [(.stmtBreak, afterStmt)]⟩,
  -- 90  stmt: continueStmt ·
  ⟨[], [(.stmtContinue, afterStmt)]⟩,
  -- 91  stmt: labelStmt ·
  ⟨[], [(.stmtLabel, afterStmt)]⟩,
  -- 92  stmt: gotoStmt ·
  ⟨[], [(.stmtGoto, afterStmt)]⟩,
  -- 93  assignStmt: chain · assign expr
  --     callStmt: chain ·
  ⟨[(.t .assign, 118)], [(.callChain, afterStmt)]⟩,
  -- 94  params: comma param ·
  ⟨[], [(.paramsOne, afterListed)]⟩,
  -- 95  funDecl: funKw name type paren param closeParen block ·
  ⟨[], [(.funOne, afterDecl)]⟩,
  -- 96  params: params comma · param
  ⟨[(.t .varKw, 49), (.n .param, 119)], []⟩,
  -- 97  funDecl: funKw name type paren param params closeParen · block
  ⟨[(.t .openBrace, 61), (.n .block, 120)], []⟩,
  -- 98  type: type · star
  --     type: type · bracket arraySize closeBracket
  --     type: type · paren type types closeParen star
  --     type: type · paren type closeParen star
  --     type: type · paren closeParen star
  --     types: types comma type ·
  ⟨[(.t .bracket, 36), (.t .paren, 37), (.t .star, 38)], [(.typesMore, afterListed)]⟩,
  -- 99  type: type paren type types closeParen star ·
  ⟨[], [(.typeFunMany, afterType)]⟩,
  -- 100 ifStmt: ifKw expr · block elseKw ifStmt
  --     ifStmt: ifKw expr · block elseKw block
  --     ifStmt: ifKw expr · block
  ⟨[(.t .openBrace, 61), (.n .block, 121)], []⟩,
  -- 101 expr: chain ·
  ⟨[], [(.exprChain, afterExpr)]⟩,
  -- 102 expr: composite ·
  ⟨[], [(.exprComposite, afterExpr)]⟩,
  -- 103 composite: opener · expr exprs closeBracket
  --     composite: opener · expr closeBracket
  --     composite: opener · closeBracket
  ⟨[(.t .name, 78), (.t .builtin, 79), (.t .real, 18), (.t .byte, 19), (.t .integer, 20), (.t .char, 21),
    (.t .closeBracket, 122), (.t .spacedBracket, 32), (.t .bracket, 33), (.n .expr, 123),
    (.n .chain, 101), (.n .composite, 102), (.n .opener, 103), (.n .literal, 104)], []⟩,
  -- 104 expr: literal ·
  ⟨[], [(.exprLiteral, afterExpr)]⟩,
  -- 105 whileStmt: whileKw expr · block
  ⟨[(.t .openBrace, 61), (.n .block, 124)], []⟩,
  -- 106 labelStmt: labelKw name ·
  ⟨[], [(.labelNamed, afterStmt)]⟩,
  -- 107 gotoStmt: gotoKw labelKw · name
  ⟨[(.t .name, 125)], []⟩,
  -- 108 indexSuffix: bracket · expr closeBracket
  ⟨[(.t .name, 78), (.t .builtin, 79), (.t .real, 18), (.t .byte, 19), (.t .integer, 20), (.t .char, 21),
    (.t .spacedBracket, 32), (.t .bracket, 33), (.n .expr, 126), (.n .chain, 101), (.n .composite, 102),
    (.n .opener, 103), (.n .literal, 104)], []⟩,
  -- 109 callSuffix: paren · arg args closeParen
  --     callSuffix: paren · arg closeParen
  --     callSuffix: paren · closeParen
  ⟨[(.t .intKw, 24), (.t .floatKw, 25), (.t .byteKw, 26), (.t .voidKw, 27), (.t .name, 127),
    (.t .builtin, 79), (.t .real, 18), (.t .byte, 19), (.t .integer, 20), (.t .char, 21),
    (.t .closeParen, 128), (.t .spacedBracket, 32), (.t .bracket, 33), (.n .primitive, 129),
    (.n .expr, 130), (.n .chain, 101), (.n .arg, 131), (.n .typeArg, 132), (.n .composite, 102),
    (.n .opener, 103), (.n .literal, 104)], []⟩,
  -- 110 chain: name suffixes ·
  --     suffixes: suffixes · suffix
  ⟨[(.t .bracket, 108), (.t .paren, 109), (.n .suffix, 133), (.n .indexSuffix, 112), (.n .callSuffix, 113)], [(.chainNameSuffixes, afterChain)]⟩,
  -- 111 suffixes: suffix ·
  ⟨[], [(.suffixesOne, afterSuffix)]⟩,
  -- 112 suffix: indexSuffix ·
  ⟨[], [(.suffixIndex, afterSuffix)]⟩,
  -- 113 suffix: callSuffix ·
  ⟨[], [(.suffixCall, afterSuffix)]⟩,
  -- 114 chain: builtin suffixes ·
  --     suffixes: suffixes · suffix
  ⟨[(.t .bracket, 108), (.t .paren, 109), (.n .suffix, 133), (.n .indexSuffix, 112), (.n .callSuffix, 113)], [(.chainBuiltinSuffixes, afterChain)]⟩,
  -- 115 block: openBrace stmts closeBrace ·
  ⟨[], [(.blockStmts, afterBlock)]⟩,
  -- 116 stmts: stmts stmt · semicolon
  --     stmts: stmts stmt ·
  ⟨[(.t .semicolon, 134)], [(.stmtsMore, afterStmtEnd)]⟩,
  -- 117 stmts: stmt semicolon ·
  ⟨[], [(.stmtsOneSemi, afterStmtEnd)]⟩,
  -- 118 assignStmt: chain assign · expr
  ⟨[(.t .name, 78), (.t .builtin, 79), (.t .real, 18), (.t .byte, 19), (.t .integer, 20), (.t .char, 21),
    (.t .spacedBracket, 32), (.t .bracket, 33), (.n .expr, 135), (.n .chain, 101), (.n .composite, 102),
    (.n .opener, 103), (.n .literal, 104)], []⟩,
  -- 119 params: params comma param ·
  ⟨[], [(.paramsMore, afterListed)]⟩,
  -- 120 funDecl: funKw name type paren param params closeParen block ·
  ⟨[], [(.funMany, afterDecl)]⟩,
  -- 121 ifStmt: ifKw expr block · elseKw ifStmt
  --     ifStmt: ifKw expr block · elseKw block
  --     ifStmt: ifKw expr block ·
  ⟨[(.t .elseKw, 136)], [(.ifOnly, afterStmt)]⟩,
  -- 122 composite: opener closeBracket ·
  ⟨[], [(.compositeNone, afterExpr)]⟩,
  -- 123 composite: opener expr · exprs closeBracket
  --     composite: opener expr · closeBracket
  ⟨[(.t .comma, 137), (.t .closeBracket, 138), (.n .exprs, 139)], []⟩,
  -- 124 whileStmt: whileKw expr block ·
  ⟨[], [(.whileLoop, afterStmt)]⟩,
  -- 125 gotoStmt: gotoKw labelKw name ·
  ⟨[], [(.gotoLabel, afterStmt)]⟩,
  -- 126 indexSuffix: bracket expr · closeBracket
  ⟨[(.t .closeBracket, 140)], []⟩,
  -- 127 chain: name ·
  --     chain: name · suffixes
  --     typeArg: name · star
  ⟨[(.t .bracket, 108), (.t .paren, 109), (.t .star, 141), (.n .suffixes, 110), (.n .suffix, 111),
    (.n .indexSuffix, 112), (.n .callSuffix, 113)], [(.chainName, afterListed)]⟩,
  -- 128 callSuffix: paren closeParen ·
  ⟨[], [(.callNone, afterSuffix)]⟩,
  -- 129 typeArg: primitive ·
  ⟨[], [(.typeArgPrimitive, afterTypeArg)]⟩,
  -- 130 arg: expr ·
  ⟨[], [(.argExpr, afterListed)]⟩,
  -- 131 callSuffix: paren arg · args closeParen
  --     callSuffix: paren arg · closeParen
  ⟨[(.t .comma, 142), (.t .closeParen, 143), (.n .args, 144)], []⟩,
  -- 132 arg: typeArg ·
  --     typeArg: typeArg · star
  --     typeArg: typeArg · bracket arraySize closeBracket
  --     typeArg: typeArg · paren type types closeParen star
  --     typeArg: typeArg · paren type closeParen star
  --     typeArg: typeArg · paren closeParen star
  ⟨[(.t .bracket, 145), (.t .paren, 146), (.t .star, 147)], [(.argType, afterListed)]⟩,
  -- 133 suffixes: suffixes suffix ·
  ⟨[], [(.suffixesMore, afterSuffix)]⟩,
  -- 134 stmts: stmts stmt semicolon ·
  ⟨[], [(.stmtsMoreSemi, afterStmtEnd)]⟩,
  -- 135 assignStmt: chain assign expr ·
  ⟨[], [(.assignTo, afterStmt)]⟩,
  -- 136 ifStmt: ifKw expr block elseKw · ifStmt
  --     ifStmt: ifKw expr block elseKw · block
  ⟨[(.t .ifKw, 72), (.t .openBrace, 61), (.n .block, 148), (.n .ifStmt, 149)], []⟩,
  -- 137 exprs: comma · expr
  ⟨[(.t .name, 78), (.t .builtin, 79), (.t .real, 18), (.t .byte, 19), (.t .integer, 20), (.t .char, 21),
    (.t .spacedBracket, 32), (.t .bracket, 33), (.n .expr, 150), (.n .chain, 101), (.n .composite, 102),
    (.n .opener, 103), (.n .literal, 104)], []⟩,
  -- 138 composite: opener expr closeBracket ·
  ⟨[], [(.compositeOne, afterExpr)]⟩,
  -- 139 composite: opener expr exprs · closeBracket
  --     exprs: exprs · comma expr
  ⟨[(.t .comma, 151), (.t .closeBracket, 152)], []⟩,
  -- 140 indexSuffix: bracket expr closeBracket ·
  ⟨[], [(.indexExpr, afterSuffix)]⟩,
  -- 141 typeArg: name star ·
  ⟨[], [(.typeArgNamedPointer, afterTypeArg)]⟩,
  -- 142 args: comma · arg
  ⟨[(.t .intKw, 24), (.t .floatKw, 25), (.t .byteKw, 26), (.t .voidKw, 27), (.t .name, 127),
    (.t .builtin, 79), (.t .real, 18), (.t .byte, 19), (.t .integer, 20), (.t .char, 21),
    (.t .spacedBracket, 32), (.t .bracket, 33), (.n .primitive, 129), (.n .expr, 130), (.n .chain, 101),
    (.n .arg, 153), (.n .typeArg, 132), (.n .composite, 102), (.n .opener, 103), (.n .literal, 104)], []⟩,
  -- 143 callSuffix: paren arg closeParen ·
  ⟨[], [(.callOne, afterSuffix)]⟩,
  -- 144 callSuffix: paren arg args · closeParen
  --     args: args · comma arg
  ⟨[(.t .comma, 154), (.t .closeParen, 155)], []⟩,
  -- 145 typeArg: typeArg bracket · arraySize closeBracket
  ⟨[(.t .name, 41), (.t .integer, 42), (.n .arraySize, 156)], []⟩,
  -- 146 typeArg: typeArg paren · type types closeParen star
  --     typeArg: typeArg paren · type closeParen star
  --     typeArg: typeArg paren · closeParen star
  ⟨[(.t .intKw, 24), (.t .floatKw, 25), (.t .byteKw, 26), (.t .voidKw, 27), (.t .name, 28),
    (.t .closeParen, 157), (.n .type, 158), (.n .baseType, 30), (.n .primitive, 31)], []⟩,
  -- 147 typeArg: typeArg star ·
  ⟨[], [(.typeArgPointer, afterTypeArg)]⟩,
  -- 148 ifStmt: ifKw expr block elseKw block ·
  ⟨[], [(.ifElse, afterStmt)]⟩,
  -- 149 ifStmt: ifKw expr block elseKw ifStmt ·
  ⟨[], [(.ifElseIf, afterStmt)]⟩,
  -- 150 exprs: comma expr ·
  ⟨[], [(.exprsOne, afterElement)]⟩,
  -- 151 exprs: exprs comma · expr
  ⟨[(.t .name, 78), (.t .builtin, 79), (.t .real, 18), (.t .byte, 19), (.t .integer, 20), (.t .char, 21),
    (.t .spacedBracket, 32), (.t .bracket, 33), (.n .expr, 159), (.n .chain, 101), (.n .composite, 102),
    (.n .opener, 103), (.n .literal, 104)], []⟩,
  -- 152 composite: opener expr exprs closeBracket ·
  ⟨[], [(.compositeMany, afterExpr)]⟩,
  -- 153 args: comma arg ·
  ⟨[], [(.argsOne, afterListed)]⟩,
  -- 154 args: args comma · arg
  ⟨[(.t .intKw, 24), (.t .floatKw, 25), (.t .byteKw, 26), (.t .voidKw, 27), (.t .name, 127),
    (.t .builtin, 79), (.t .real, 18), (.t .byte, 19), (.t .integer, 20), (.t .char, 21),
    (.t .spacedBracket, 32), (.t .bracket, 33), (.n .primitive, 129), (.n .expr, 130), (.n .chain, 101),
    (.n .arg, 160), (.n .typeArg, 132), (.n .composite, 102), (.n .opener, 103), (.n .literal, 104)], []⟩,
  -- 155 callSuffix: paren arg args closeParen ·
  ⟨[], [(.callMany, afterSuffix)]⟩,
  -- 156 typeArg: typeArg bracket arraySize · closeBracket
  ⟨[(.t .closeBracket, 161)], []⟩,
  -- 157 typeArg: typeArg paren closeParen · star
  ⟨[(.t .star, 162)], []⟩,
  -- 158 type: type · star
  --     type: type · bracket arraySize closeBracket
  --     type: type · paren type types closeParen star
  --     type: type · paren type closeParen star
  --     type: type · paren closeParen star
  --     typeArg: typeArg paren type · types closeParen star
  --     typeArg: typeArg paren type · closeParen star
  ⟨[(.t .comma, 54), (.t .closeParen, 163), (.t .bracket, 36), (.t .paren, 37), (.t .star, 38),
    (.n .types, 164)], []⟩,
  -- 159 exprs: exprs comma expr ·
  ⟨[], [(.exprsMore, afterElement)]⟩,
  -- 160 args: args comma arg ·
  ⟨[], [(.argsMore, afterListed)]⟩,
  -- 161 typeArg: typeArg bracket arraySize closeBracket ·
  ⟨[], [(.typeArgArray, afterTypeArg)]⟩,
  -- 162 typeArg: typeArg paren closeParen star ·
  ⟨[], [(.typeArgFunNone, afterTypeArg)]⟩,
  -- 163 typeArg: typeArg paren type closeParen · star
  ⟨[(.t .star, 165)], []⟩,
  -- 164 types: types · comma type
  --     typeArg: typeArg paren type types · closeParen star
  ⟨[(.t .comma, 68), (.t .closeParen, 166)], []⟩,
  -- 165 typeArg: typeArg paren type closeParen star ·
  ⟨[], [(.typeArgFunOne, afterTypeArg)]⟩,
  -- 166 typeArg: typeArg paren type types closeParen · star
  ⟨[(.t .star, 167)], []⟩,
  -- 167 typeArg: typeArg paren type types closeParen star ·
  ⟨[], [(.typeArgFunMany, afterTypeArg)]⟩]

/-- The table of the grammar. -/
def table : Table := ⟨rows⟩

end FlatScope.Grammar
