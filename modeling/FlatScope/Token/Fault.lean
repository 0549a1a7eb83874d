/-
  Lexical faults: characters no lexeme starts with, literals whose value is out of range, and, in tokens made by
  hand, literals without a value. Where no lexeme stands at a single quote, the fault is found by looking for the
  closing quote in the rest of the source.
-/
import FlatScope.Diagnostic
import FlatScope.Token.Literal

namespace FlatScope

/-- A fault in the characters of a source. -/
inductive LexFault
  | realOutOfRange (lexeme : String)
  | byteOutOfRange (lexeme : String)
  | wideCharacter (lexeme : String)
  | unknownEscape (body : String)
  | unterminatedCharacter
  | notOneCharacter
  | loneMinus
  | loneUnderscore
  | invalidCharacter (c : Char)
  | valueless (fault : LiteralFault)
deriving DecidableEq, Repr

/-- The wording of a lexical fault. -/
def LexFault.message : LexFault → String
  | .realOutOfRange lexeme => "malformed float literal " ++ lexeme ++ ": value is out of range"
  | .byteOutOfRange lexeme => "byte literal " ++ lexeme ++ " is out of range 0..255"
  | .wideCharacter lexeme => "character literal " ++ lexeme ++ " is not a single byte"
  | .unknownEscape body => "unknown escape sequence '" ++ body ++ "' in character literal"
  | .unterminatedCharacter => "unterminated character literal"
  | .notOneCharacter => "character literal must contain exactly one character"
  | .loneMinus => "'-' must be followed by digits"
  | .loneUnderscore => "identifiers must start with a letter"
  | .invalidCharacter c => "invalid character " ++ quoted c.toString
  | .valueless fault => fault.message

/-- A lexical fault and where it is. -/
structure LexError where
  fault : LexFault
  span : Span
deriving DecidableEq, Repr

/-- What a user is told about a lexical fault. -/
def LexError.diagnostic (e : LexError) : Diagnostic where
  message := e.fault.message
  kind := .lexError
  phase := some "lexer"
  span := e.span

namespace LexFault

/-- What is wrong with a character literal, from the characters behind its opening quote. Its body ends at the
next quote, on whatever line, or else at the end of the line. -/
def ofQuote (rest : List Char) : LexFault :=
  let isClosed := rest.contains '\''
  let body := rest.takeWhile fun c => if isClosed then c ≠ '\'' else c ≠ '\n'
  match body with
  | ['\\', c] => .unknownEscape (String.ofList ['\\', c])
  | _ => if isClosed then .notOneCharacter else .unterminatedCharacter

/-- What is wrong where no lexeme starts with `c`. -/
def ofCharacter (c : Char) (rest : List Char) : LexFault :=
  if c = '\'' then ofQuote rest
  else if c = '-' then .loneMinus
  else if c = '_' then .loneUnderscore
  else .invalidCharacter c

end LexFault

/-- What is wrong with the value of a literal, if anything. -/
def Token.fault? (t : Token) : Option LexFault :=
  match t.kind with
  | .real => if t.realValue.isFinite then none else some (.realOutOfRange t.lexeme)
  | .byte => if t.byteValue ≤ 255 then none else some (.byteOutOfRange t.lexeme)
  | .char => if t.byteValue ≤ 255 then none else some (.wideCharacter t.lexeme)
  | _ => none

end FlatScope
