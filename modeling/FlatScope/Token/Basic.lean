/-
  Tokens: a kind, the text, and where the text stands.
-/
import FlatScope.Text.Position
import FlatScope.Text.Quoted
import FlatScope.Token.Lexeme

namespace FlatScope

/-- A token of a source. -/
structure Token where
  kind : Kind
  lexeme : String
  file : Option String := none
  start : Position
  stop : Position
deriving DecidableEq, Repr, Inhabited

namespace Token

/-- The stretch of the source a token covers. -/
def span (t : Token) : Span := ⟨t.file, t.start.point, t.stop.point⟩

/-- The token touches the one before it. Only openers and stars are marked so. -/
def isAdjacent (t : Token) : Bool := t.kind.touches

/-- The token spells a keyword. -/
def isKeyword (t : Token) : Bool := (Kind.ofKeyword? t.lexeme).isSome && t.kind ≠ .name

/-- The token on one line, with its place, kind and quoted text. -/
def text (t : Token) : String := t.span.place ++ " " ++ t.kind.code ++ " " ++ quoted t.lexeme

end Token

end FlatScope
