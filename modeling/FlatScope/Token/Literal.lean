/-
  The values of literal tokens. Tokens that are made by hand may have any text, so a literal can lack a value; then a
  `LiteralFault` says why. The literals of a scanned source all have values.
-/
import FlatScope.Number.Numeral
import FlatScope.Number.Shortest
import FlatScope.Token.Basic

namespace FlatScope

/-- Why the text of a literal has no value. -/
inductive LiteralFault
  /-- A text that is no integer, as complaints show it. -/
  | notInteger (shown : String)
  /-- A text that is no floating-point number, as complaints show it. -/
  | notReal (shown : String)
  /-- A backslash in front of a character that is no escape. -/
  | noEscape (c : Char)
  /-- A backslash in front of nothing. -/
  | loneBackslash
  /-- None or several characters between quotes. -/
  | characterCount (count : Nat)
deriving DecidableEq, Repr

/-- The wording for a literal without a value. Only the first 200 characters of a text that is no integer are
shown. -/
def LiteralFault.message : LiteralFault → String
  | notInteger shown => "invalid literal for int() with base 10: " ++ String.ofList (shown.toList.take 200)
  | notReal shown => "could not convert string to float: " ++ shown
  | noEscape c => quoted c.toString
  | loneBackslash => "string index out of range"
  | characterCount count =>
    "ord() expected a character, but string of length " ++ toString count ++ " found"

/-- A floating-point value from a text. -/
def Binary64.ofText (s : String) : Except LiteralFault Binary64 :=
  match Numeral.real? s.toList with
  | some x => .ok x
  | none => .error (.notReal (quoted s))

namespace Token

/-- A token as complaints show it. -/
def shown (t : Token) : String := "Token(" ++ quoted t.kind.code ++ ", " ++ quoted t.lexeme ++ ")"

/-- Reads an integer literal. -/
def readInt (t : Token) : Except LiteralFault Int :=
  match Numeral.int? t.lexeme.toList with
  | some n => .ok n
  | none => .error (.notInteger t.shown)

/-- Reads a float literal. -/
def readReal (t : Token) : Except LiteralFault Binary64 :=
  match Numeral.real? t.lexeme.toList with
  | some x => .ok x
  | none => .error (.notReal t.shown)

/-- The code point of what stands between the quotes of a character literal. -/
def readCharacter : List Char → Except LiteralFault Int
  | ['\\'] => .error .loneBackslash
  | '\\' :: c :: _ =>
    match Lexeme.escapes.lookup c with
    | some d => .ok d.toNat
    | none => .error (.noEscape c)
  | [c] => .ok c.toNat
  | body => .error (.characterCount body.length)

/-- Reads a byte literal: a quoted character, or an integer in front of a letter. -/
def readByte (t : Token) : Except LiteralFault Int :=
  match t.lexeme.toList with
  | '\'' :: cs => readCharacter cs.dropLast
  | cs =>
    match Numeral.int? cs.dropLast with
    | some n => .ok n
    | none => .error (.notInteger (quoted (String.ofList cs.dropLast)))

/-- What is read, or a value to go on with. -/
def orDefault {α : Type} [Inhabited α] : Except LiteralFault α → α
  | .ok a => a
  | .error _ => default

/-- The value of an integer literal. -/
def intValue (t : Token) : Int := orDefault t.readInt

/-- The value of a float literal. -/
def realValue (t : Token) : Binary64 := orDefault t.readReal

/-- The value of a byte literal. -/
def byteValue (t : Token) : Int := orDefault t.readByte

/-- Why a literal has no value, if it has none. -/
def literalFault? (t : Token) : Option LiteralFault :=
  let fault {α : Type} (read : Except LiteralFault α) : Option LiteralFault :=
    match read with
    | .ok _ => none
    | .error e => some e
  match t.kind with
  | .integer => fault t.readInt
  | .real => fault t.readReal
  | .byte | .char => fault t.readByte
  | _ => none

end Token

end FlatScope
