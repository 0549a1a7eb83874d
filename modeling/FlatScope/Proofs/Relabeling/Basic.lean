/-
  Units in other labels. A `Relabeling` gives every name another name and every place another place; the words that the
  language itself knows stay. Nothing that is built in is named like anything that is declared, so a relabelling takes
  declared names to declared names. Relabelled are types, symbols and trees, and what resolving makes of them: problems,
  operands' slots, scopes, functions, and the resolution as a whole. A problem keeps its kind (`Problem.Cause.kind_relabel`)
  and a statement its size.
-/
import FlatScope.Proofs.Tree.WellFormed
import FlatScope.Resolution.Body
import FlatScope.Resolution.Unit

namespace FlatScope

/-- A name with a meaning of its own: a word for a type, the result of a function, or a builtin. -/
def IsReserved (s : String) : Prop := IsTypeWord s ∨ s = resultName ∨ isBuiltinName s = true

/-- Other names and places for the names and places of a unit. -/
structure Relabeling where
  name : String → String
  place : Span → Span
  injective : Function.Injective name
  reserved : ∀ s, IsReserved s → name s = s
  nowhere : place {} = {}

theorem Relabeling.id_nowhere : id ({} : Span) = {} := rfl

variable (φ : Relabeling)

/-! ## Types and symbols -/

namespace Ty

mutual

/-- A type in other labels. -/
def relabel : Ty → Ty
  | .primitive p => .primitive p
  | .void => .void
  | .pointer t => .pointer t.relabel
  | .array t n => .array t.relabel n
  | .struct s => .struct (φ.name s)
  | .func ps r => .func (relabelAll ps) r.relabel

def relabelAll : List Ty → List Ty
  | [] => []
  | t :: ts => t.relabel :: relabelAll ts

end

@[simp] theorem relabelAll_eq_map (ts : List Ty) : relabelAll φ ts = ts.map (relabel φ) := by
  induction ts with
  | nil => rfl
  | cons t ts ih => simp [relabelAll, ih]

end Ty

def Signature.relabel (s : Signature) : Signature := ⟨s.params.map (Ty.relabel φ), s.result.relabel φ⟩

def Builtins.relabel (b : Builtins) : Builtins := b.map fun f => (φ.name f.1, f.2.relabel φ)

/-- A symbol in other labels. -/
def Symbol.relabel (s : Symbol) : Symbol :=
  { s with name := φ.name s.name, ty := s.ty.map (Ty.relabel φ), span := φ.place s.span, owner := s.owner.map φ.name }

def StructInfo.relabel (s : StructInfo) : StructInfo :=
  { s with name := φ.name s.name, fields := s.fields.map fun f => (φ.name f.1, f.2.relabel φ), span := φ.place s.span }

def LocalScope.relabel (s : LocalScope) : LocalScope := ⟨φ.name s.function, s.symbols.map (Symbol.relabel φ)⟩

/-- A catalog in other labels. -/
def Catalog.relabel (c : Catalog) : Catalog where
  globals := c.globals.map (Symbol.relabel φ)
  structs := c.structs.map (StructInfo.relabel φ)
  finished := c.finished.map (LocalScope.relabel φ)
  current := c.current.map (LocalScope.relabel φ)

/-! ## Trees -/

def Foreign.relabel (n : Foreign) : Foreign := { n with name := n.name.map φ.name, span := n.span.map φ.place }

def ArraySize.relabel : ArraySize → ArraySize
  | int n => int n
  | name s => name (φ.name s)

namespace TypeExpr

mutual

/-- A written type in other labels. -/
def relabel : TypeExpr → TypeExpr
  | .named name span => .named (φ.name name) (φ.place span)
  | .pointer e span => .pointer e.relabel (φ.place span)
  | .array e size span => .array e.relabel (size.relabel φ) (φ.place span)
  | .func r ps span => .func r.relabel (relabelAll ps) (φ.place span)
  | .foreign n => .foreign (n.relabel φ)

def relabelAll : List TypeExpr → List TypeExpr
  | [] => []
  | t :: ts => t.relabel :: relabelAll ts

end

end TypeExpr

def Info.relabel (i : Info) : Info := ⟨φ.place i.span, i.ty.map (Ty.relabel φ)⟩

namespace Expr

mutual

/-- An expression in other labels. -/
def relabel : Expr → Expr
  | .int n i => .int n (i.relabel φ)
  | .real x i => .real x (i.relabel φ)
  | .byte n i => .byte n (i.relabel φ)
  | .ident name s i => .ident (φ.name name) (s.map (Symbol.relabel φ)) (i.relabel φ)
  | .index b e i => .index b.relabel e.relabel (i.relabel φ)
  | .field b name i => .field b.relabel (φ.name name) (i.relabel φ)
  | .call c args i => .call c.relabel (relabelAll args) (i.relabel φ)
  | .composite es i => .composite (relabelAll es) (i.relabel φ)
  | .addrOf e i => .addrOf e.relabel (i.relabel φ)
  | .typeArg t i => .typeArg (t.relabel φ) (i.relabel φ)
  | .foreign n => .foreign (n.relabel φ)

def relabelAll : List Expr → List Expr
  | [] => []
  | e :: es => e.relabel :: relabelAll es

end

end Expr

def VarDecl.relabel (d : VarDecl) : VarDecl := ⟨φ.name d.name, d.type.relabel φ, φ.place d.span⟩

def Braces.relabel : Braces → Braces
  | around span => around (φ.place span)
  | missing n => missing (n.relabel φ)

namespace Stmt

mutual

/-- A statement in other labels. -/
def relabel : Stmt → Stmt
  | .var d => .var (d.relabel φ)
  | .assign t v span => .assign (t.relabel φ) (v.relabel φ) (φ.place span)
  | .call c span => .call (c.relabel φ) (φ.place span)
  | .ifThen c body braces otherwise span =>
    .ifThen (c.relabel φ) (relabelAll body) (braces.relabel φ) (relabelElse otherwise) (φ.place span)
  | .whileDo c body braces span => .whileDo (c.relabel φ) (relabelAll body) (braces.relabel φ) (φ.place span)
  | .breakLoop span => .breakLoop (φ.place span)
  | .continueLoop span => .continueLoop (φ.place span)
  | .label name index span => .label (φ.name name) index (φ.place span)
  | .goto name target span => .goto (φ.name name) target (φ.place span)
  | .block body span => .block (relabelAll body) (φ.place span)
  | .foreign n => .foreign (n.relabel φ)

def relabelElse : Option Stmt → Option Stmt
  | some s => some s.relabel
  | none => none

def relabelAll : List Stmt → List Stmt
  | [] => []
  | s :: ss => s.relabel :: relabelAll ss

end

end Stmt

def ConstDecl.relabel (d : ConstDecl) : ConstDecl := ⟨φ.name d.name, d.value.relabel φ, φ.place d.span⟩

def Param.relabel (d : Param) : Param := ⟨φ.name d.name, d.type.relabel φ, φ.place d.span⟩

def Member.relabel : Member → Member
  | var d => var (d.relabel φ)
  | param d => param (d.relabel φ)
  | foreign n t => foreign (n.relabel φ) (t.map (TypeExpr.relabel φ))

def StructDecl.relabel (d : StructDecl) : StructDecl :=
  ⟨φ.name d.name, d.fields.map (Member.relabel φ), φ.place d.span⟩

def FuncDecl.relabel (d : FuncDecl) : FuncDecl where
  name := φ.name d.name
  result := d.result.relabel φ
  params := d.params.map (Member.relabel φ)
  body := Stmt.relabelAll φ d.body
  braces := d.braces.relabel φ
  span := φ.place d.span

/-- A declaration in other labels. -/
def Decl.relabel : Decl → Decl
  | const d => const (d.relabel φ)
  | var d => var (d.relabel φ)
  | struct d => struct (d.relabel φ)
  | func d => func (d.relabel φ)
  | foreign n => foreign (n.relabel φ)

/-- A unit in other labels. -/
def Program.relabel (p : Program) : Program := { p with decls := p.decls.map (Decl.relabel φ) }

/-! ## Lists -/

@[simp] theorem TypeExpr.relabelAll_eq_map (ts : List TypeExpr) : relabelAll φ ts = ts.map (relabel φ) := by
  induction ts with
  | nil => rfl
  | cons t ts ih => simp [relabelAll, ih]

@[simp] theorem Expr.relabelAll_eq_map (es : List Expr) : relabelAll φ es = es.map (relabel φ) := by
  induction es with
  | nil => rfl
  | cons e es ih => simp [relabelAll, ih]

@[simp] theorem Stmt.relabelAll_eq_map (ss : List Stmt) : relabelAll φ ss = ss.map (relabel φ) := by
  induction ss with
  | nil => rfl
  | cons s ss ih => simp [relabelAll, ih]

/-! ## Names and types -/

namespace Relabeling

variable {φ}

theorem name_inj {s t : String} : φ.name s = φ.name t ↔ s = t := φ.injective.eq_iff

theorem name_builtin {s : String} (h : isBuiltinName s = true) : φ.name s = s := φ.reserved s (.inr (.inr h))

@[simp] theorem name_result : φ.name resultName = resultName := φ.reserved _ (.inr (.inl rfl))

@[simp] theorem name_special (f : SpecialForm) : φ.name f.name = f.name := by
  cases f <;> exact name_builtin rfl

/-- Only a reserved name has a reserved name for another. -/
theorem name_eq_iff {s t : String} (ht : IsReserved t) : φ.name s = t ↔ s = t := by
  constructor
  · intro h
    exact φ.injective (h.trans (φ.reserved t ht).symm)
  · rintro rfl
    exact φ.reserved s ht

@[simp] theorem isBuiltinName_name (s : String) : isBuiltinName (φ.name s) = isBuiltinName s := by
  rw [Bool.eq_iff_iff]
  constructor
  · intro h
    rwa [φ.injective (name_builtin h)] at h
  · intro h
    rwa [name_builtin h]

@[simp] theorem ofName?_name (s : String) : SpecialForm.ofName? (φ.name s) = SpecialForm.ofName? s := by
  unfold SpecialForm.ofName?
  congr 1
  funext f
  have h : f.name = φ.name s ↔ f.name = s := by rw [← name_special (φ := φ) f, name_inj, name_special]
  simp [h]

@[simp] theorem primitive?_name (s : String) : Primitive.ofName? (φ.name s) = Primitive.ofName? s := by
  have hword : ∀ p : Primitive, φ.name s = p.text ↔ s = p.text := fun p =>
    name_eq_iff (.inl (by cases p <;> simp [IsTypeWord, Primitive.text]))
  have hint := hword .int
  have hfloat := hword .float
  have hbyte := hword .byte
  simp only [Primitive.text] at hint hfloat hbyte
  unfold Primitive.ofName?
  split <;> split <;> simp_all

theorem name_eq_void {s : String} : φ.name s = "void" ↔ s = "void" := name_eq_iff (.inl (.inr (.inr (.inr rfl))))

end Relabeling

namespace Ty

variable {φ}

mutual

/-- Different types stay different. -/
theorem relabel_inj : {t u : Ty} → (t.relabel φ = u.relabel φ ↔ t = u)
  | .primitive _, u => by cases u <;> simp [relabel]
  | .void, u => by cases u <;> simp [relabel]
  | .pointer t, u => by cases u <;> simp [relabel, relabel_inj (t := t)]
  | .array t _, u => by cases u <;> simp [relabel, relabel_inj (t := t)]
  | .struct _, u => by cases u <;> simp [relabel, Relabeling.name_inj]
  | .func ps r, u => by
    cases u
    case func qs s =>
      have hps : relabelAll φ ps = relabelAll φ qs ↔ ps = qs := relabelAll_inj
      simp only [relabel, Ty.func.injEq, hps, relabel_inj (t := r)]
    all_goals simp [relabel]

theorem relabelAll_inj : {ts us : List Ty} → (relabelAll φ ts = relabelAll φ us ↔ ts = us)
  | [], us => by cases us <;> simp [relabelAll]
  | t :: ts, us => by
    cases us with
    | nil => simp [relabelAll]
    | cons u us =>
      have hts : relabelAll φ ts = relabelAll φ us ↔ ts = us := relabelAll_inj
      simp only [relabelAll, List.cons.injEq, relabel_inj (t := t), hts]

end

@[simp] theorem relabel_int : (Ty.int).relabel φ = .int := rfl

theorem relabel_eq_int {t : Ty} : t.relabel φ = .int ↔ t = .int := relabel_inj (u := .int)

theorem relabel_eq_void {t : Ty} : t.relabel φ = .void ↔ t = .void := relabel_inj (u := .void)

@[simp] theorem innermost_relabel : (t : Ty) → (t.relabel φ).innermost = t.innermost.relabel φ
  | .array t _ => by rw [relabel, innermost, innermost, innermost_relabel t]
  | .primitive _ | .void | .pointer _ | .struct _ | .func .. => by simp [relabel, innermost]

@[simp] theorem element?_relabel (t : Ty) : (t.relabel φ).element? = t.element?.map (relabel φ) := by
  cases t <;> simp [relabel, element?]

end Ty

variable (φ : Relabeling)

/-! ## Problems -/

def Duplicate.relabel (d : Duplicate) : Duplicate :=
  ⟨φ.name d.name, d.previous.relabel φ, d.function.map φ.name⟩

namespace Problem

/-- A cause in other labels. -/
def Cause.relabel : Cause → Cause
  | duplicate d => duplicate (d.relabel φ)
  | duplicateField field struct => duplicateField (φ.name field) (φ.name struct)
  | undefined name => undefined (φ.name name)
  | usedBeforeDeclaration name declaration => usedBeforeDeclaration (φ.name name) (φ.place declaration)
  | undefinedLabel label function => undefinedLabel (φ.name label) (φ.name function)
  | unknownType name => unknownType (φ.name name)
  | notType name kind => notType (φ.name name) kind
  | unresolvedType name kind => unresolvedType (φ.name name) kind
  | misusedVoid => misusedVoid
  | sizeNotConstant name => sizeNotConstant (φ.name name)
  | sizeNotPositive size => sizeNotPositive size
  | selfContaining struct cycle => selfContaining (φ.name struct) (cycle.map φ.name)
  | notConstant constant name kind => notConstant (φ.name constant) (φ.name name) kind
  | constantTooLate name constant => constantTooLate (φ.name name) (φ.name constant)
  | builtinValue name => builtinValue (φ.name name)
  | functionValue name => functionValue (φ.name name)
  | notValue name kind => notValue (φ.name name) kind
  | typeValue => typeValue
  | structIndex struct => structIndex (φ.name struct)
  | indexNotInt ty => indexNotInt (ty.relabel φ)
  | notIndexed ty => notIndexed (ty.relabel φ)
  | notStruct field ty => notStruct (φ.name field) (ty.relabel φ)
  | invalidStruct struct => invalidStruct (φ.name struct)
  | unknownField field struct => unknownField (φ.name field) (φ.name struct)
  | invalidCallee function => invalidCallee (φ.name function)
  | symbolNotCallable name kind => symbolNotCallable (φ.name name) kind
  | notCallable ty => notCallable (ty.relabel φ)
  | unknownBuiltin name => unknownBuiltin (φ.name name)
  | argumentCount callee expected actual => argumentCount (callee.map φ.name) expected actual
  | argumentType callee position expected actual =>
    argumentType (callee.map φ.name) position (expected.relabel φ) (actual.relabel φ)
  | addressOperand => addressOperand
  | allocOperands actual => allocOperands actual
  | allocType => allocType
  | freedType ty => freedType (ty.relabel φ)
  | invalidTarget function => invalidTarget (φ.name function)
  | builtinAddress name => builtinAddress (φ.name name)
  | notAddressable => notAddressable
  | compositeContext => compositeContext
  | compositeStruct struct => compositeStruct (φ.name struct)
  | compositeTarget ty => compositeTarget (ty.relabel φ)
  | elementCount ty expected actual => elementCount (ty.relabel φ) expected actual
  | elementType position ty expected actual =>
    elementType position (ty.relabel φ) (expected.relabel φ) (actual.relabel φ)
  | notAssignable name kind => notAssignable (φ.name name) kind
  | assignedType value target => assignedType (value.relabel φ) (target.relabel φ)
  | conditionType ty => conditionType (ty.relabel φ)
  | breakOutsideLoop => breakOutsideLoop
  | continueOutsideLoop => continueOutsideLoop

@[simp] theorem Cause.kind_relabel (c : Cause) : (c.relabel φ).kind = c.kind := by cases c <;> rfl

def relabel (p : Problem) : Problem := ⟨p.cause.relabel φ, φ.place p.span⟩

end Problem

/-- A halt in other labels. What is said of a misplaced node stays. -/
def Halt.relabel : Halt → Halt
  | problem p => problem (p.relabel φ)
  | misplaced m => misplaced m

@[simp] theorem Halt.relabel_at (span : Span) (cause : Problem.Cause) :
    (Halt.at span cause).relabel φ = .at (φ.place span) (cause.relabel φ) := rfl

/-! ## Operands -/

def Slot.relabel : Slot → Slot
  | argument callee position ty => argument (callee.map φ.name) position (ty.relabel φ)
  | element literal position ty => element (literal.relabel φ) position (ty.relabel φ)
  | allocated => allocated
  | freed => freed

def CallForm.relabel : CallForm → CallForm
  | fixed callee s => fixed (callee.map φ.name) (s.relabel φ)
  | alloc => alloc
  | free => free

/-- The outcome of a check in other labels, where `left` and `done` relabel what it leaves behind and what it gives. -/
def Relabeling.checked {α β : Type} (left : α → α) (done : β → β) : Checked α β → Checked α β
  | .error (halt, a) => .error (halt.relabel φ, left a)
  | .ok b => .ok (done b)

/-! ## Bodies and units -/

def Collected.relabel (c : Collected) : Collected :=
  ⟨c.scope.relabel φ, c.count, c.halt.map (Halt.relabel φ)⟩

def Entered.relabel (e : Entered) : Entered :=
  ⟨e.scope.relabel φ, e.statements.map (Stmt.relabel φ), e.problem.map (Problem.relabel φ)⟩

def Initializer.relabel (i : Initializer) : Initializer := ⟨i.value.relabel φ, i.ty.relabel φ, i.constant⟩

def FunctionInfo.relabel (f : FunctionInfo) : FunctionInfo :=
  ⟨φ.name f.name, f.signature.map (Signature.relabel φ), f.entered.map (Entered.relabel φ)⟩

def Entry.relabel (e : Entry) : Entry :=
  ⟨e.decl.relabel φ, e.failure.map fun f => (f.1, f.2.relabel φ)⟩

def Progress.relabel (p : Progress) : Progress :=
  ⟨p.catalog.relabel φ, p.functions.map (FunctionInfo.relabel φ), p.onCycle.map φ.name⟩

/-- A resolution in other labels. -/
def Resolution.relabel (r : Resolution) : Resolution where
  entries := r.entries.map (Entry.relabel φ)
  file := r.file
  catalog := r.catalog.relabel φ
  functions := r.functions.map (FunctionInfo.relabel φ)

/-! ## What no label changes -/

section
variable {φ}

attribute [local simp] TypeExpr.relabel Expr.relabel Stmt.relabel

@[simp] theorem Foreign.span_relabel (n : Foreign) : (n.relabel φ).span.getD {} = φ.place (n.span.getD {}) := by
  obtain ⟨className, text, name, span⟩ := n
  cases span <;> simp [relabel, φ.nowhere]

@[simp] theorem TypeExpr.span_relabel (t : TypeExpr) : (t.relabel φ).span = φ.place t.span := by
  cases t <;> simp [relabel, span]

@[simp] theorem Expr.info_relabel (e : Expr) : (e.relabel φ).info = e.info.relabel φ := by
  cases e <;> simp [relabel, info, Info.relabel]

@[simp] theorem Expr.span_relabel (e : Expr) : (e.relabel φ).span = φ.place e.span := by
  simp [span, Info.relabel]

@[simp] theorem Expr.withTy_relabel (t : Ty) (e : Expr) :
    (e.withTy t).relabel φ = (e.relabel φ).withTy (t.relabel φ) := by
  cases e <;> simp [withTy, relabel, Info.relabel]

@[simp] theorem Member.span_relabel (m : Member) : (m.relabel φ).span = φ.place m.span := by
  cases m <;> simp [relabel, span, VarDecl.relabel, Param.relabel]

namespace Stmt

mutual

@[simp] theorem size_relabel : (s : Stmt) → (s.relabel φ).size = s.size
  | .ifThen _ body _ otherwise _ => by
    rw [relabel, size, size, sizes_relabelAll body, elseSize_relabelElse otherwise]
  | .whileDo _ body _ _ => by rw [relabel, size, size, sizes_relabelAll body]
  | .block body _ => by rw [relabel, size, size, sizes_relabelAll body]
  | .var _ | .assign .. | .call .. | .breakLoop _ | .continueLoop _ | .label .. | .goto .. | .foreign _ => rfl

theorem elseSize_relabelElse : (o : Option Stmt) → elseSize (relabelElse φ o) = elseSize o
  | some (.ifThen _ body _ otherwise _) => by
    rw [relabelElse, relabel, elseSize, elseSize, sizes_relabelAll body, elseSize_relabelElse otherwise]
  | some (.block body _) => by rw [relabelElse, relabel, elseSize, elseSize, sizes_relabelAll body]
  | some (.var _) | some (.assign ..) | some (.call ..) | some (.whileDo ..) | some (.breakLoop _)
  | some (.continueLoop _) | some (.label ..) | some (.goto ..) | some (.foreign _) | none => rfl

theorem sizes_relabelAll : (ss : List Stmt) → sizes (relabelAll φ ss) = sizes ss
  | [] => rfl
  | s :: ss => by rw [relabelAll, sizes, sizes, size_relabel s, sizes_relabelAll ss]

end

mutual

theorem flatten_relabel : (s : Stmt) → (s.relabel φ).flatten = s.flatten.map (relabel φ)
  | .ifThen _ body _ otherwise _ => by
    rw [relabel, flatten, flatten, flattenAll_relabelAll body, flattenElse_relabelElse otherwise, List.map_append,
      List.map_cons, relabel]
  | .whileDo _ body _ _ => by rw [relabel, flatten, flatten, flattenAll_relabelAll body, List.map_cons, relabel]
  | .block body _ => by rw [relabel, flatten, flatten, flattenAll_relabelAll body, List.map_cons, relabel]
  | .var _ | .assign .. | .call .. | .breakLoop _ | .continueLoop _ | .label .. | .goto .. | .foreign _ => rfl

theorem flattenElse_relabelElse : (o : Option Stmt) → flattenElse (relabelElse φ o) = (flattenElse o).map (relabel φ)
  | some (.ifThen _ body _ otherwise _) => by
    rw [relabelElse, relabel, flattenElse, flattenElse, flattenAll_relabelAll body, flattenElse_relabelElse otherwise,
      List.map_append, List.map_cons, relabel]
  | some (.block body _) => by rw [relabelElse, relabel, flattenElse, flattenElse, flattenAll_relabelAll body]
  | some (.var _) | some (.assign ..) | some (.call ..) | some (.whileDo ..) | some (.breakLoop _)
  | some (.continueLoop _) | some (.label ..) | some (.goto ..) | some (.foreign _) | none => rfl

theorem flattenAll_relabelAll : (ss : List Stmt) → flattenAll (relabelAll φ ss) = (flattenAll ss).map (relabel φ)
  | [] => rfl
  | s :: ss => by
    rw [relabelAll, flattenAll, flattenAll, flatten_relabel s, flattenAll_relabelAll ss, List.map_append]

end

mutual

theorem number_relabel (bound n : Nat) : (s : Stmt) → (s.relabel φ).number bound n = (s.number bound n).relabel φ
  | .ifThen _ body _ otherwise _ => by
    rw [relabel, number, number, relabel, numberAll_relabelAll bound _ body, numberElse_relabelElse bound _ otherwise,
      sizes_relabelAll]
  | .whileDo _ body _ _ => by rw [relabel, number, number, relabel, numberAll_relabelAll bound _ body]
  | .block body _ => by rw [relabel, number, number, relabel, numberAll_relabelAll bound _ body]
  | .var _ | .assign .. | .call .. | .breakLoop _ | .continueLoop _ | .label .. | .goto .. | .foreign _ => rfl

theorem numberElse_relabelElse (bound n : Nat) : (o : Option Stmt) →
    numberElse bound n (relabelElse φ o) = relabelElse φ (numberElse bound n o)
  | some (.ifThen _ body _ otherwise _) => by
    rw [relabelElse, relabel, numberElse, numberElse, relabelElse, relabel, numberAll_relabelAll bound _ body,
      numberElse_relabelElse bound _ otherwise, sizes_relabelAll]
  | some (.block body _) => by
    rw [relabelElse, relabel, numberElse, numberElse, relabelElse, relabel, numberAll_relabelAll bound _ body]
  | some (.var _) | some (.assign ..) | some (.call ..) | some (.whileDo ..) | some (.breakLoop _)
  | some (.continueLoop _) | some (.label ..) | some (.goto ..) | some (.foreign _) | none => rfl

theorem numberAll_relabelAll (bound n : Nat) : (ss : List Stmt) →
    numberAll bound n (relabelAll φ ss) = relabelAll φ (numberAll bound n ss)
  | [] => rfl
  | s :: ss => by
    rw [relabelAll, numberAll, numberAll, relabelAll, number_relabel bound n s, size_relabel,
      numberAll_relabelAll bound _ ss]

end

end Stmt

end

end FlatScope
