/-
  Diagnostics: what a user is told about a fault. Every fault of a source, of whatever stage, becomes a
  `Diagnostic`, which is shown on one line or as a JSON object.
-/
import FlatScope.Text.Position
import FlatScope.Text.Json

namespace FlatScope

/-- What sort of fault a diagnostic reports. -/
inductive Diagnostic.Kind
  | lexError
  | syntaxError
  | duplicate
  | undefined
  | undefinedLabel
  | undefinedType
  | assignmentMismatch
  | argumentMismatch
  | compositeShapeMismatch
  | compositeWithoutContext
  | invalidArraySize
  | nonIntCondition
  | selfContainingStruct
  | invalidVoid
  | invalidSelector
  | notAssignable
  | notAddressable
  | notCallable
  | notAValue
  | notInLoop
deriving DecidableEq, Repr, Inhabited

namespace Diagnostic.Kind

/-- The broad group a kind belongs to. -/
def category : Kind → String
  | lexError => "LexError"
  | syntaxError => "SyntaxError"
  | duplicate | undefined | undefinedLabel | undefinedType => "NameError"
  | assignmentMismatch | argumentMismatch | compositeShapeMismatch | compositeWithoutContext
  | invalidArraySize | nonIntCondition | selfContainingStruct | invalidVoid | invalidSelector
  | notAssignable | notAddressable | notCallable | notAValue => "TypeError"
  | notInLoop => "ControlFlowError"

/-- The name of a kind within its group; lexical and syntax errors are not divided further. -/
def detail : Kind → Option String
  | lexError | syntaxError => none
  | duplicate => some "Duplicate"
  | undefined => some "Undefined"
  | undefinedLabel => some "UndefinedLabel"
  | undefinedType => some "UndefinedType"
  | assignmentMismatch => some "AssignmentMismatch"
  | argumentMismatch => some "ArgumentMismatch"
  | compositeShapeMismatch => some "CompositeShapeMismatch"
  | compositeWithoutContext => some "CompositeWithoutContext"
  | invalidArraySize => some "InvalidArraySize"
  | nonIntCondition => some "NonIntCondition"
  | selfContainingStruct => some "SelfContainingStruct"
  | invalidVoid => some "InvalidVoid"
  | invalidSelector => some "InvalidSelector"
  | notAssignable => some "NotAssignable"
  | notAddressable => some "NotAddressable"
  | notCallable => some "NotCallable"
  | notAValue => some "NotAValue"
  | notInLoop => some "NotInLoop"

/-- The kind as it is shown. -/
def text (k : Kind) : String :=
  match k.detail with
  | some d => k.category ++ "::" ++ d
  | none => k.category

end Diagnostic.Kind

/-- What a user is told about one fault. -/
structure Diagnostic where
  message : String
  kind : Diagnostic.Kind
  /-- The stage that found the fault. -/
  phase : Option String := none
  severity : String := "error"
  span : Span := {}
  notes : List String := []
deriving DecidableEq, Repr, Inhabited

/-- A name that is there and not empty. -/
def nonempty? : Option String → Option String
  | some "" => none
  | name => name

/-- A message behind the place it is about. -/
def located (span : Span) (message : String) : String := span.place ++ ": " ++ message

namespace Diagnostic

/-- The diagnostic on one line. A span that knows its file names it, otherwise `source` does. -/
def format (d : Diagnostic) (source : Option String) : String :=
  let file := (nonempty? d.span.file <|> nonempty? source).getD "<input>"
  file ++ ":" ++ d.span.place ++ ": " ++ d.severity ++ ": " ++ d.message ++ " [" ++ d.kind.text ++ "]"

/-- The diagnostic as a JSON object; `source` stands in for a file that the span does not know. -/
def json (d : Diagnostic) (source : Option String) : Json :=
  .obj [
    ("phase", .ofString? d.phase),
    ("kind", .str d.kind.text),
    ("message", .str d.message),
    ("severity", .str d.severity),
    ("file", .ofString? (d.span.file <|> source)),
    ("line", .ofInt? d.span.start.line),
    ("column", .ofInt? d.span.start.column),
    ("notes", .arr (d.notes.map .str))]

/-- The text of the error a diagnostic reports. -/
def text (d : Diagnostic) : String := located d.span d.message

end Diagnostic

end FlatScope
