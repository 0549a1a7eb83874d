/-
  The kinds of lexemes. Opening brackets, opening parentheses and stars come in two kinds, one for those that
  touch the token before them and one for those that stand apart. White space and comments are kinds too, but
  they never become tokens. `endOfInput` is what a parser sees behind the last token.
-/

namespace FlatScope

/-- A kind of lexeme. -/
inductive Kind
  | constKw | varKw | structKw | funKw | ifKw | elseKw | whileKw | breakKw | continueKw | labelKw | gotoKw
  | intKw | floatKw | byteKw | voidKw
  | name | builtin
  | real | byte | integer | char
  | assign | comma | semicolon | openBrace | closeBrace | closeBracket | closeParen
  | spacedBracket | spacedParen | spacedStar
  | bracket | paren | star
  | endOfInput
  | space | comment
deriving DecidableEq, Repr, Inhabited

namespace Kind

/-- Every kind. -/
def all : List Kind :=
  [constKw, varKw, structKw, funKw, ifKw, elseKw, whileKw, breakKw, continueKw, labelKw, gotoKw, intKw,
    floatKw, byteKw, voidKw, name, builtin, real, byte, integer, char, assign, comma, semicolon, openBrace,
    closeBrace, closeBracket, closeParen, spacedBracket, spacedParen, spacedStar, bracket, paren, star,
    endOfInput, space, comment]

theorem mem_all (k : Kind) : k ∈ all := by cases k <;> decide

/-- The code of a kind in token listings and in the sets of expected kinds. -/
def code : Kind → String
  | constKw => "CONST"
  | varKw => "VAR"
  | structKw => "STRUCT"
  | funKw => "FUN"
  | ifKw => "IF"
  | elseKw => "ELSE"
  | whileKw => "WHILE"
  | breakKw => "BREAK"
  | continueKw => "CONTINUE"
  | labelKw => "LABEL"
  | gotoKw => "GOTO"
  | intKw => "INT_TYPE"
  | floatKw => "FLOAT_TYPE"
  | byteKw => "BYTE_TYPE"
  | voidKw => "VOID_TYPE"
  | name => "NAME"
  | builtin => "BUILTIN_NAME"
  | real => "REAL"
  | byte => "BYTE_NUM"
  | integer => "INTEGER"
  | char => "CHAR"
  | assign => "_ASSIGN"
  | comma => "_COMMA"
  | semicolon => "_SEMI"
  | openBrace => "_LBRACE"
  | closeBrace => "_RBRACE"
  | closeBracket => "_RSQB"
  | closeParen => "_RPAR"
  | spacedBracket => "LSQB"
  | spacedParen => "LPAR"
  | spacedStar => "STAR"
  | bracket => "LSQB_ADJ"
  | paren => "LPAR_ADJ"
  | star => "STAR_ADJ"
  | endOfInput => "$END"
  | space => "WS"
  | comment => "COMMENT"

/-- The kind with a given code. -/
def ofCode? (s : String) : Option Kind := all.find? fun k => k.code = s

/-- How complaints name a kind: by its spelling if it has only one, otherwise in words. -/
def display : Kind → String
  | constKw => "'const'"
  | varKw => "'var'"
  | structKw => "'struct'"
  | funKw => "'fun'"
  | ifKw => "'if'"
  | elseKw => "'else'"
  | whileKw => "'while'"
  | breakKw => "'break'"
  | continueKw => "'continue'"
  | labelKw => "'label'"
  | gotoKw => "'goto'"
  | intKw => "'int'"
  | floatKw => "'float'"
  | byteKw => "'byte'"
  | voidKw => "'void'"
  | name => "identifier"
  | builtin => "builtin name"
  | real => "float literal"
  | byte => "byte literal"
  | integer => "integer literal"
  | char => "character literal"
  | assign => "':='"
  | comma => "','"
  | semicolon => "';'"
  | openBrace => "'\x7b'"
  | closeBrace => "'\x7d'"
  | closeBracket => "']'"
  | closeParen => "')'"
  | spacedBracket | bracket => "'['"
  | spacedParen | paren => "'('"
  | spacedStar | star => "'*'"
  | endOfInput => "end of input"
  | space => "'(?:[ \t\x0c\r\n])+'"
  | comment => "'\\/\\/[^\n]*'"

/-- The keyword a word spells, if it is one. -/
def ofKeyword? : String → Option Kind
  | "const" => some constKw
  | "var" => some varKw
  | "struct" => some structKw
  | "fun" => some funKw
  | "if" => some ifKw
  | "else" => some elseKw
  | "while" => some whileKw
  | "break" => some breakKw
  | "continue" => some continueKw
  | "label" => some labelKw
  | "goto" => some gotoKw
  | "int" => some intKw
  | "float" => some floatKw
  | "byte" => some byteKw
  | "void" => some voidKw
  | _ => none

/-- White space and comments stand between tokens. -/
def isGap : Kind → Bool
  | space | comment => true
  | _ => false

/-- The kind says that the lexeme touches the token before it. -/
def touches : Kind → Bool
  | bracket | paren | star => true
  | _ => false

/-- The kind for a lexeme that touches the token before it. -/
def touching : Kind → Kind
  | spacedBracket => bracket
  | spacedParen => paren
  | spacedStar => star
  | k => k

/-- The spaced form of a kind that also has a touching one. -/
def isSpaced (k : Kind) : Bool := k.touching ≠ k

end Kind

end FlatScope
