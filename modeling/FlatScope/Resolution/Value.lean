/-
  Names where values, callees and types are wanted. What is decided about a name or a type alone is decided here;
  `Expr.check` puts these decisions together.
-/
import FlatScope.Builtin
import FlatScope.Resolution.TypeExpr
import FlatScope.Tree.Basic

namespace FlatScope

/-- Where an expression stands: in which surroundings, and in the statement of which number. -/
structure Site where
  builtins : Builtins
  catalog : Catalog
  index : Nat

namespace Site

/-- The symbol that a name stands for. -/
def lookup (site : Site) (name : String) : Option Symbol := site.catalog.lookup name (some site.index)

/-- The value that a name stands for. A variable of the function that is declared further on is not seen. -/
def value (site : Site) (name : String) : Except Problem.Cause (Symbol × Ty) :=
  match site.lookup name with
  | none =>
    if isBuiltinName name then .error (.builtinValue name)
    else
      match site.catalog.current.bind fun scope => scope.get? name with
      | some later => .error (.usedBeforeDeclaration name later.span)
      | none => .error (.undefined name)
  | some s =>
    match s.kind, s.ty with
    | .func, _ => .error (.functionValue name)
    | .struct, _ | .label, _ => .error (.notValue name s.kind)
    | _, none => .error (.unresolvedType name s.kind)
    | _, some t => .ok (s, t)

/-- The type of a field of a value. -/
def fieldType (site : Site) (t : Ty) (field : String) : Except Problem.Cause Ty :=
  match t with
  | .struct name =>
    match (site.catalog.struct? name).filter StructInfo.isComplete with
    | none => .error (.invalidStruct name)
    | some info =>
      match info.fields.lookup field with
      | none => .error (.unknownField field name)
      | some t => .ok t
  | _ => .error (.notStruct field t)

end Site

/-- The type of what is behind an index. -/
def Ty.element? : Ty → Option Ty
  | .array t _ | .pointer t => some t
  | _ => none

/-! ## Operands -/

/-- What an operand is for. -/
inductive Slot
  | argument (callee : Option String) (position : Nat) (ty : Ty)
  | element (literal : Ty) (position : Nat) (ty : Ty)
  /-- A type to allocate. -/
  | allocated
  /-- A pointer to be freed. -/
  | freed
deriving DecidableEq, Repr

namespace Slot

/-- The type a composite literal is given by its slot. Only elements of literals give one. -/
def context : Slot → Option Ty
  | element _ _ t => some t
  | _ => none

/-- What is wrong with an operand of type `t`, if anything. -/
def refusal? (t : Ty) : Slot → Option Problem.Cause
  | argument callee position expected =>
    if t = expected then none else some (.argumentType callee position expected t)
  | element literal position expected =>
    if t = expected then none else some (.elementType position literal expected t)
  | allocated => none
  | freed =>
    match t with
    | .pointer _ => none
    | _ => some (.freedType t)

/-- Slots for types in order, numbered from 1. -/
def numbered (slot : Nat → Ty → Slot) (types : List Ty) : List Slot :=
  types.mapIdx fun k t => slot (k + 1) t

end Slot

/-- The slots for the elements of a composite literal of a type. -/
def Catalog.elementSlots (c : Catalog) (t : Ty) (count : Nat) : Except Problem.Cause (List Slot) :=
  match t with
  | .array element size =>
    if (count : Int) = size then .ok (Slot.numbered (.element t) (.replicate count element))
    else .error (.elementCount t size count)
  | .struct name =>
    match (c.struct? name).filter StructInfo.isComplete with
    | none => .error (.compositeStruct name)
    | some info =>
      if count = info.fields.length then .ok (Slot.numbered (.element t) (info.fields.map (·.2)))
      else .error (.elementCount t info.fields.length count)
  | _ => .error (.compositeTarget t)

/-! ## Calls -/

/-- What sort of call it is: one by a signature, of a callee with or without a name, or a special form. -/
inductive CallForm
  | fixed (callee : Option String) (signature : Signature)
  | alloc
  | free
deriving DecidableEq, Repr

namespace CallForm

/-- The slots for the operands of a call. -/
def slots (count : Nat) : CallForm → Except Problem.Cause (List Slot)
  | fixed callee s =>
    if count = s.params.length then .ok (Slot.numbered (.argument callee) s.params)
    else .error (.argumentCount callee s.params.length count)
  | alloc =>
    match count with
    | 1 => .ok [.allocated]
    | 2 => .ok [.allocated, .argument (some SpecialForm.alloc.name) 2 .int]
    | _ => .error (.allocOperands count)
  | free => if count = 1 then .ok [.freed] else .error (.argumentCount (some SpecialForm.free.name) 1 count)

/-- The type of a call whose operands have the given types. -/
def result (operands : List Ty) : CallForm → Ty
  | fixed _ s => s.result
  | alloc => .pointer (operands.headD .void)
  | free => .void

/-- The callee of a call that is in order. A special form gets a type of its own from its operands. -/
def noteCallee (operands : List Ty) (callee : Expr) : CallForm → Expr
  | fixed .. => callee
  | form => callee.withTy (.func operands (form.result operands))

end CallForm

namespace Site

/-- The call form of a callee that is a name, unless the name stands for a value: then, and for all other
callees, the callee has to be checked as a value. `span` is where the call is. -/
def callForm? (site : Site) (span : Span) : Expr → Except Halt (Option (Expr × CallForm))
  | .ident name symbol info =>
    if isBuiltinName name then
      match SpecialForm.ofName? name with
      | some .alloc => .ok (some (.ident name symbol info, .alloc))
      | some .free => .ok (some (.ident name symbol info, .free))
      | some .addr => .error (.at span .addressOperand)
      | none =>
        match site.builtins.lookup name with
        | some s => .ok (some (.ident name symbol { info with ty := some s.ty }, .fixed (some name) s))
        | none => .error (.at info.span (.unknownBuiltin name))
    else
      match site.lookup name with
      | none => .ok none
      | some s =>
        match s.kind, s.ty with
        | .func, some (.func params result) =>
          .ok (some (.ident name (some s) { info with ty := s.ty }, .fixed (some name) { params, result }))
        | .func, _ => .error (.at info.span (.invalidCallee name))
        | .struct, _ | .label, _ => .error (.at info.span (.symbolNotCallable name s.kind))
        | _, _ => .ok none
  | _ => .ok none

/-- The address of a function, if that is what an operand of the address form names. -/
def functionAddress? (site : Site) : Expr → Except Halt (Option (Expr × Ty))
  | .ident name _ info =>
    match (site.lookup name).filter fun s => s.kind = .func with
    | some s =>
      match s.ty with
      | some t => .ok (some (.ident name (some s) { info with ty := some t }, t))
      | none => .error (.at info.span (.invalidTarget name))
    | none => if isBuiltinName name then .error (.at info.span (.builtinAddress name)) else .ok none
  | _ => .ok none

end Site

namespace Expr

/-- The name that an expression consists of. -/
def ident? : Expr → Option String
  | .ident name _ _ => some name
  | _ => none

/-- A checked expression names a place that holds a value. What is behind a pointer is a place. -/
def isAddressable : Expr → Bool
  | .ident _ symbol _ => symbol.any fun s => s.kind.isStorage
  | .index base _ _ =>
    match base.info.ty with
    | some (.pointer _) => true
    | _ => base.isAddressable
  | .field base _ _ => base.isAddressable
  | _ => false

/-! ## Types written as expressions -/

/-- The array size that an expression spells. -/
def size? : Expr → Option ArraySize
  | .int n _ => some (.int n)
  | .ident name _ _ => some (.name name)
  | _ => none

/-- The type that an expression spells: a name, perhaps with array sizes behind it. -/
def asType? : Expr → Option TypeExpr
  | .ident name _ info => some (.named name info.span)
  | .index base i info => do
    let element ← base.asType?
    let size ← i.size?
    return .array element size info.span
  | _ => none

end Expr

end FlatScope
