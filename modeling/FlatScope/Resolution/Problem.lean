/-
  Problems: what can be wrong with a unit whose source has a tree. A `Problem` is a cause and a place; the causes are
  grouped by what they are about. A check halts either at a problem of the unit or at a misplaced node, which
  is no problem of the unit.
-/
import FlatScope.Catalog
import FlatScope.Diagnostic
import FlatScope.Tree.Misplaced

namespace FlatScope

/-- What a call calls, as complaints name it: a name, or just a call. -/
def calleeText : Option String → String
  | some name => "'" ++ name ++ "'"
  | none => "call"

/-- What can be wrong with a unit. -/
inductive Problem.Cause
  /- Names. -/
  | duplicate (d : Duplicate)
  | duplicateField (field struct : String)
  | undefined (name : String)
  | usedBeforeDeclaration (name : String) (declaration : Span)
  | undefinedLabel (label function : String)
  /- Types. -/
  | unknownType (name : String)
  | notType (name : String) (kind : Symbol.Kind)
  | unresolvedType (name : String) (kind : Symbol.Kind)
  | misusedVoid
  | sizeNotConstant (name : String)
  | sizeNotPositive (size : Int)
  | selfContaining (struct : String) (cycle : List String)
  /- Constants. -/
  | notConstant (constant name : String) (kind : Symbol.Kind)
  | constantTooLate (name constant : String)
  /- Values. -/
  | builtinValue (name : String)
  | functionValue (name : String)
  | notValue (name : String) (kind : Symbol.Kind)
  | typeValue
  /- Selectors. -/
  | structIndex (struct : String)
  | indexNotInt (ty : Ty)
  | notIndexed (ty : Ty)
  | notStruct (field : String) (ty : Ty)
  | invalidStruct (struct : String)
  | unknownField (field struct : String)
  /- Calls. -/
  | invalidCallee (function : String)
  | symbolNotCallable (name : String) (kind : Symbol.Kind)
  | notCallable (ty : Ty)
  | unknownBuiltin (name : String)
  | argumentCount (callee : Option String) (expected actual : Nat)
  | argumentType (callee : Option String) (position : Nat) (expected actual : Ty)
  | addressOperand
  | allocOperands (actual : Nat)
  | allocType
  | freedType (ty : Ty)
  /- Addresses. -/
  | invalidTarget (function : String)
  | builtinAddress (name : String)
  | notAddressable
  /- Composite literals. -/
  | compositeContext
  | compositeStruct (struct : String)
  | compositeTarget (ty : Ty)
  | elementCount (ty : Ty) (expected : Int) (actual : Nat)
  | elementType (position : Nat) (ty expected actual : Ty)
  /- Statements. -/
  | notAssignable (name : String) (kind : Symbol.Kind)
  | assignedType (value target : Ty)
  | conditionType (ty : Ty)
  | breakOutsideLoop
  | continueOutsideLoop
deriving DecidableEq, Repr

namespace Problem.Cause

/-- The kind of diagnostic that reports a cause. -/
def kind : Cause → Diagnostic.Kind
  | duplicate _ | duplicateField .. => .duplicate
  | undefined _ | usedBeforeDeclaration .. | constantTooLate .. | unknownBuiltin _ => .undefined
  | undefinedLabel .. => .undefinedLabel
  | unknownType _ | notType .. | unresolvedType .. => .undefinedType
  | misusedVoid => .invalidVoid
  | sizeNotConstant _ | sizeNotPositive _ => .invalidArraySize
  | selfContaining .. => .selfContainingStruct
  | notConstant .. | builtinValue _ | functionValue _ | notValue .. => .notAValue
  | structIndex _ | indexNotInt _ | notIndexed _ | notStruct .. | invalidStruct _ | unknownField .. =>
    .invalidSelector
  | invalidCallee _ | symbolNotCallable .. | notCallable _ => .notCallable
  | typeValue | argumentCount .. | argumentType .. | addressOperand | allocOperands _ | allocType
  | freedType _ => .argumentMismatch
  | invalidTarget _ | builtinAddress _ | notAddressable => .notAddressable
  | compositeContext => .compositeWithoutContext
  | compositeStruct _ | compositeTarget _ | elementCount .. | elementType .. => .compositeShapeMismatch
  | notAssignable .. => .notAssignable
  | assignedType .. => .assignmentMismatch
  | conditionType _ => .nonIntCondition
  | breakOutsideLoop | continueOutsideLoop => .notInLoop

/-- The wording of a cause. -/
def message : Cause → String
  | duplicate d => d.message
  | duplicateField field struct => "field '" ++ field ++ "' is already declared in struct '" ++ struct ++ "'"
  | undefined name => "undefined name '" ++ name ++ "'"
  | usedBeforeDeclaration name declaration =>
    "'" ++ name ++ "' is used before its declaration at " ++ declaration.place
  | undefinedLabel label function =>
    "label '" ++ label ++ "' is not declared in function '" ++ function ++ "'"
  | unknownType name => "unknown type '" ++ name ++ "'"
  | notType name kind => "'" ++ name ++ "' is a " ++ kind.text ++ ", not a type"
  | unresolvedType name kind => "the type of " ++ kind.text ++ " '" ++ name ++ "' could not be resolved"
  | misusedVoid => "'void' is only valid as a function return type"
  | sizeNotConstant name => "array size '" ++ name ++ "' is not an integer constant"
  | sizeNotPositive size => "array size must be positive, got " ++ toString size
  | selfContaining struct cycle =>
    "struct '" ++ struct ++ "' contains itself by value (" ++ " -> ".intercalate cycle ++ "); use a pointer"
  | notConstant constant name kind =>
    "constant '" ++ constant ++ "' must be initialized with a literal or another constant, not " ++ kind.text
      ++ " '" ++ name ++ "'"
  | constantTooLate name constant =>
    "constant '" ++ name ++ "' must be declared before '" ++ constant ++ "'"
  | builtinValue name => "builtin '" ++ name ++ "' can only be called"
  | functionValue name =>
    "function '" ++ name ++ "' is not a value; use _addr(" ++ name ++ ") for a function pointer"
  | notValue name kind => kind.text ++ " '" ++ name ++ "' is not a value"
  | typeValue => "a type is only accepted as the first argument of _alloc"
  | structIndex struct => "a value of struct type " ++ struct ++ " is selected by field name"
  | indexNotInt ty => "index must be int, got " ++ ty.text
  | notIndexed ty => "cannot index a value of type " ++ ty.text
  | notStruct field ty => "cannot select field '" ++ field ++ "' from a value of type " ++ ty.text
  | invalidStruct struct | compositeStruct struct => "struct '" ++ struct ++ "' has an invalid declaration"
  | unknownField field struct => "struct '" ++ struct ++ "' has no field '" ++ field ++ "'"
  | invalidCallee function | invalidTarget function => "function '" ++ function ++ "' has an invalid signature"
  | symbolNotCallable name kind => kind.text ++ " '" ++ name ++ "' is not callable"
  | notCallable ty => "a value of type " ++ ty.text ++ " is not callable"
  | unknownBuiltin name => "unknown builtin '" ++ name ++ "'"
  | argumentCount callee expected actual =>
    calleeText callee ++ " expects " ++ toString expected ++ " argument(s), got " ++ toString actual
  | argumentType callee position expected actual =>
    "argument " ++ toString position ++ " of " ++ calleeText callee ++ ": expected " ++ expected.text ++ ", got "
      ++ actual.text
  | addressOperand => "_addr expects exactly one addressable value or function name"
  | allocOperands actual =>
    "_alloc expects a type and an optional int count, got " ++ toString actual ++ " argument(s)"
  | allocType => "the first argument of _alloc must be a type"
  | freedType ty => "argument 1 of '_free': expected a pointer, got " ++ ty.text
  | builtinAddress name => "builtin '" ++ name ++ "' has no address"
  | notAddressable => "_addr needs an addressable value or a function name"
  | compositeContext =>
    "a composite literal needs a known target type (assignment value or nested literal)"
  | compositeTarget ty => "a composite literal cannot initialize a value of type " ++ ty.text
  | elementCount ty expected actual =>
    ty.text ++ " needs " ++ toString expected ++ " element(s), got " ++ toString actual
  | elementType position ty expected actual =>
    "element " ++ toString position ++ " of a " ++ ty.text ++ " literal: expected " ++ expected.text ++ ", got "
      ++ actual.text
  | notAssignable name kind => "cannot assign to " ++ kind.text ++ " '" ++ name ++ "'"
  | assignedType value target =>
    "cannot assign a value of type " ++ value.text ++ " to a target of type " ++ target.text
  | conditionType ty => "condition must be int, got " ++ ty.text
  | breakOutsideLoop => "'break' outside of a while loop"
  | continueOutsideLoop => "'continue' outside of a while loop"

/-- What is said beside the message. -/
def notes : Cause → List String
  | duplicate d => d.notes
  | _ => []

end Problem.Cause

/-- A problem of a unit. -/
structure Problem where
  cause : Problem.Cause
  span : Span
deriving DecidableEq, Repr

/-- What a user is told about a problem. -/
def Problem.diagnostic (p : Problem) : Diagnostic where
  message := p.cause.message
  kind := p.cause.kind
  phase := some "resolve"
  span := p.span
  notes := p.cause.notes

/-- Why a check does not go on. -/
inductive Halt
  | problem (p : Problem)
  | misplaced (m : Misplaced)
deriving DecidableEq, Repr

/-- A halt at a problem. -/
def Halt.at (span : Span) (cause : Problem.Cause) : Halt := .problem ⟨cause, span⟩

/-- A halt at a problem with an expression that need not be checked, so that any node may stand there. A node that
is nowhere cannot be complained about. -/
def Halt.atExpr (e : Expr) (cause : Problem.Cause) : Halt :=
  match e with
  | .foreign node =>
    match node.part "span" node.span with
    | .ok span => .at span cause
    | .error m => .misplaced m
  | e => .at e.span cause

end FlatScope
