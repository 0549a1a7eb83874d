/-
  Faults of a list of tokens: a token that cannot stand where it stands, an expression that is misused, and, in tokens
  made by hand, a literal without a value. `SourceError` is all that can keep a source from having a tree.
-/
import FlatScope.Token.Fault

namespace FlatScope

/-- A fault in the order of the tokens. -/
inductive SyntaxFault
  /-- A token that cannot stand where it stands, and what can. -/
  | unexpected (found : Kind) (lexeme : String) (expected : List Kind)
  /-- An opener or star that could stand there if it touched the token before it. -/
  | spaceBefore (found : Kind) (expected : List Kind)
  | bareExpression
  | badTarget
deriving DecidableEq, Repr

namespace SyntaxFault

/-- The fault of a token that is not among the expected ones. -/
def ofRejection (found : Kind) (lexeme : String) (expected : List Kind) : SyntaxFault :=
  if found.isSpaced ∧ found.touching ∈ expected then spaceBefore found expected
  else unexpected found lexeme expected

/-- The kinds that could stand at the place of the fault. -/
def expected : SyntaxFault → List Kind
  | unexpected _ _ expected | spaceBefore _ expected => expected
  | bareExpression => [.assign, .paren]
  | badTarget => [.name]

/-- The kind that stands there, if the fault is about a single token. -/
def found? : SyntaxFault → Option Kind
  | unexpected found .. | spaceBefore found _ => some found
  | bareExpression | badTarget => none

/-- How a complaint shows a token: names are shown with their text. -/
def displayFound (kind : Kind) (lexeme : String) : String :=
  match kind with
  | .name | .builtin => kind.display ++ " '" ++ lexeme ++ "'"
  | _ => kind.display

/-- Texts in order, each once. -/
def sortedOnce (texts : List String) : List String := (texts.mergeSort fun a b => a ≤ b).eraseDups

/-- The wording of a syntax fault. -/
def message : SyntaxFault → String
  | unexpected found lexeme expected =>
    "unexpected " ++ displayFound found lexeme ++ "; expected one of: "
      ++ ", ".intercalate (sortedOnce (expected.map Kind.display))
  | spaceBefore found _ => "whitespace is not permitted before " ++ found.display
  | bareExpression => "expected ':=' or a call; a bare expression is not a statement"
  | badTarget => "assignment target must be a variable optionally followed by [selectors]"

end SyntaxFault

/-- A syntax fault and where it is. -/
structure SyntaxError where
  fault : SyntaxFault
  span : Span
deriving DecidableEq, Repr

namespace SyntaxError

/-- What a user is told about a syntax fault. -/
def diagnostic (e : SyntaxError) : Diagnostic where
  message := e.fault.message
  kind := .syntaxError
  phase := some "parser"
  span := e.span

/-- The codes of the expected kinds, in order. -/
def expectedCodes (e : SyntaxError) : List String := SyntaxFault.sortedOnce (e.fault.expected.map Kind.code)

/-- The error for a rejected token among `tokens`. The end of the input is shown at the last token. -/
def ofRejection (file : Option String) (tokens : List Token) (rejected : Option Token)
    (expected : List Kind) : SyntaxError :=
  match rejected with
  | some t => ⟨.ofRejection t.kind t.lexeme expected, t.span⟩
  | none =>
    let start : Point := Position.point {}
    ⟨.ofRejection .endOfInput "" expected, (tokens.getLast?.map Token.span).getD ⟨file, start, start⟩⟩

end SyntaxError

/-- What keeps a source from having a tree. -/
inductive SourceError
  | lexical (e : LexError)
  | syntactic (e : SyntaxError)
deriving DecidableEq, Repr

/-- What a user is told about such a fault. -/
def SourceError.diagnostic : SourceError → Diagnostic
  | lexical e => e.diagnostic
  | syntactic e => e.diagnostic

end FlatScope
