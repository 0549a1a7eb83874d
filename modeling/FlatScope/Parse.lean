/-
  Parsing: from a source to its tree. A source is scanned as a whole before its tokens are parsed, so a lexical
  fault anywhere comes first. The grammar allows any name with suffixes as a statement and in front of `:=`;
  that such a statement is a call, and such a target a variable with selectors, is checked on the finished
  derivation, and so is that the literals have values. These faults come last, in the order of reading.
-/
import FlatScope.Grammar.Fault
import FlatScope.Grammar.Parser
import FlatScope.Grammar.Reading
import FlatScope.Grammar.Rows
import FlatScope.Token.Scan

namespace FlatScope

namespace Expr

/-- The expression is a variable, perhaps with selectors behind it. -/
def isPlace : Expr → Bool
  | .ident name _ _ => !isBuiltinName name
  | .index base _ _ => base.isPlace
  | _ => false

def isCall : Expr → Bool
  | .call .. => true
  | _ => false

/-- An expression that stands alone as a statement is a call. -/
def bareFault? (e : Expr) : Option SourceError :=
  if e.isCall then none else some (.syntactic ⟨.bareExpression, e.span⟩)

/-- The target of an assignment is a place. -/
def targetFault? (e : Expr) : Option SourceError :=
  if e.isPlace then none else some (.syntactic ⟨.badTarget, e.span⟩)

end Expr

namespace Grammar

/-! ## Faults of derivations -/

/-- A literal has a value. -/
def literalFault? (t : Token) : Option SourceError := t.literalFault?.map fun f => .lexical ⟨.valueless f, t.span⟩

/-- The first fault of a phrase, from those of its parts. The size of an array is read before its elements, and a
target is checked before the value is read. -/
def Production.fault? : (p : Production) → Forest p.rhs → List (Option SourceError) → Option SourceError
  | .typeArray, _, faults | .typeArgArray, _, faults => faults.reverse.findSome? id
  | .callChain, .cons e .nil, faults => faults.findSome? id <|> Expr.bareFault? e.value
  | .assignTo, .cons target _, faults =>
    (faults.take 1).findSome? id <|> Expr.targetFault? target.value <|> (faults.drop 1).findSome? id
  | _, _, faults => faults.findSome? id

mutual

/-- The first fault in reading a derivation. -/
def Derivation.fault? : {s : Sym} → Derivation s → Option SourceError
  | _, .leaf token => literalFault? token
  | _, .node p children => p.fault? children children.faults

/-- The first faults of derivations, one by one. -/
def Forest.faults : {ss : List Sym} → Forest ss → List (Option SourceError)
  | _, .nil => []
  | _, .cons head tail => head.fault? :: tail.faults

end

end Grammar

namespace Program

/-- Parses tokens. The tree is that of the file; its spans are those of the tokens, and lie in the file that these come from.
The tokens of a source come from the file that it is parsed as, so the two are one there. -/
def ofTokens (file : Option String) (tokens : List Token) : Except SourceError Program :=
  match Grammar.parseTokens Grammar.table tokens with
  | .accepted unit =>
    match unit.fault? with
    | some e => .error e
    | none => .ok { decls := unit.value, file }
  | .rejected token expected => .error (.syntactic (.ofRejection file tokens token expected))
  | .stuck => .error (.syntactic (.ofRejection file tokens none []))

/-- Parses a source. -/
def ofSource (source : String) (file : Option String := none) : Except SourceError Program :=
  match (scan source file).toExcept with
  | .error e => .error (.lexical e)
  | .ok tokens => ofTokens file tokens

end Program

end FlatScope
