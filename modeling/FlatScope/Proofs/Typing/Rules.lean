/-
  The type system. `HasType` gives expressions their types, `Conforms` says what can be put in a place of a type, and
  `Stmt.IsTyped` what a statement has to be like. These rules know nothing of checking: a name means the symbol that
  a statement sees by it, and no tree is changed. `FuncDecl.IsTyped` puts them together to a body in order.
-/
import FlatScope.Proofs.Tree.WellFormed
import FlatScope.Resolution.Body

namespace FlatScope

/-- A kind stands for values. -/
def Symbol.Kind.IsValue (kind : Symbol.Kind) : Prop := kind = .const ∨ kind = .var ∨ kind = .param ∨ kind = .result

/-- A local symbol is seen by the statement with number `n`. A variable is not seen before its declaration. -/
def Symbol.IsSeen (s : Symbol) (n : Nat) : Prop := s.kind ≠ .var ∨ s.order ≤ n

/-- An expression is a name of a builtin. -/
def Expr.IsBuiltinName : Expr → Prop
  | ident name _ _ => isBuiltinName name = true
  | _ => False

/-- What the statements of a function are typed in. -/
structure Context where
  builtins : Builtins
  globals : List Symbol
  structs : List StructInfo
  /-- All that the function declares, wherever. -/
  locals : List Symbol

namespace Context

/-! ## Names and types -/

/-- What a name means to the statement with number `n`: a local symbol that it sees, or else a global one. -/
inductive Means (Γ : Context) (n : Nat) (name : String) : Symbol → Prop
  | ofLocal {s : Symbol} (hm : s ∈ Γ.locals) (hn : s.name = name) (hs : s.IsSeen n) : Means Γ n name s
  | ofGlobal {s : Symbol} (hl : ∀ s ∈ Γ.locals, s.name = name → ¬s.IsSeen n)
      (hg : Symbol.find? Γ.globals name = some s) : Means Γ n name s

/-- The length that a written length is: a number or an integer constant. -/
def IsLength (Γ : Context) (n : Nat) : ArraySize → Int → Prop
  | .int k, size => k = size
  | .name name, size =>
    ∃ s, Γ.Means n name s ∧ s.kind = .const ∧ s.ty = some .int ∧ s.value = some (.int size)

mutual

/-- The type that a written type denotes. Only a result can be `void`. -/
inductive Denotes (Γ : Context) (n : Nat) : (isResult : Bool) → TypeExpr → Ty → Prop
  | void {name : String} {span : Span} (hw : name = "void") : Denotes Γ n true (.named name span) .void
  | primitive {isResult : Bool} {name : String} {p : Primitive} {span : Span} (hw : name = p.text) :
    Denotes Γ n isResult (.named name span) (.primitive p)
  | struct {isResult : Bool} {name : String} {s : Symbol} {span : Span} (hw : ¬IsTypeWord name)
      (hg : Symbol.find? Γ.globals name = some s) (hk : s.kind = .struct) :
    Denotes Γ n isResult (.named name span) (.struct name)
  | pointer {isResult : Bool} {e : TypeExpr} {t : Ty} {span : Span} (he : Denotes Γ n false e t) :
    Denotes Γ n isResult (.pointer e span) (.pointer t)
  | array {isResult : Bool} {e : TypeExpr} {t : Ty} {size : ArraySize} {k : Int} {span : Span}
      (he : Denotes Γ n false e t) (hl : Γ.IsLength n size k) (hk : 0 < k) :
    Denotes Γ n isResult (.array e size span) (.array t k)
  | func {isResult : Bool} {r : TypeExpr} {ps : List TypeExpr} {t : Ty} {ts : List Ty} {span : Span}
      (hp : DenoteAll Γ n ps ts) (hr : Denotes Γ n true r t) :
    Denotes Γ n isResult (.func r ps span) (.func ts t)

/-- The types that written parameters denote. -/
inductive DenoteAll (Γ : Context) (n : Nat) : List TypeExpr → List Ty → Prop
  | nil : DenoteAll Γ n [] []
  | cons {e : TypeExpr} {es : List TypeExpr} {t : Ty} {ts : List Ty} (he : Denotes Γ n false e t)
      (hes : DenoteAll Γ n es ts) : DenoteAll Γ n (e :: es) (t :: ts)

end

/-- The first operand of an allocation is a type, or an expression that spells one. -/
def Allocates (Γ : Context) (n : Nat) (e : Expr) (t : Ty) : Prop :=
  ∃ w, Γ.Denotes n false w t ∧ ((∃ info, e = .typeArg w info) ∨ e.asType? = some w)

/-- The fields of a struct, if all of them are in order. -/
def HasFields (Γ : Context) (name : String) (fields : List (String × Ty)) : Prop :=
  ∃ info, Γ.structs.find? (fun s => s.name = name) = some info ∧ info.isComplete = true ∧ info.fields = fields

/-! ## Expressions -/

mutual

/-- The types of expressions in the statement with number `n`. -/
inductive HasType (Γ : Context) (n : Nat) : Expr → Ty → Prop
  | int {value : Int} {info : Info} : HasType Γ n (.int value info) .int
  | real {value : Binary64} {info : Info} : HasType Γ n (.real value info) .float
  | byte {value : Int} {info : Info} : HasType Γ n (.byte value info) .byte
  | ident {name : String} {symbol : Option Symbol} {info : Info} {s : Symbol} {t : Ty} (hs : Γ.Means n name s)
      (hk : s.kind.IsValue) (ht : s.ty = some t) : HasType Γ n (.ident name symbol info) t
  | ofArray {b i : Expr} {info : Info} {t : Ty} {size : Int} (hb : HasType Γ n b (.array t size))
      (hi : HasType Γ n i .int) : HasType Γ n (.index b i info) t
  | ofPointer {b i : Expr} {info : Info} {t : Ty} (hb : HasType Γ n b (.pointer t)) (hi : HasType Γ n i .int) :
    HasType Γ n (.index b i info) t
  | ofStruct {b : Expr} {name struct : String} {symbol : Option Symbol} {info info' : Info} {t : Ty}
      {fields : List (String × Ty)} (hb : HasType Γ n b (.struct struct)) (hs : Γ.HasFields struct fields)
      (hf : fields.lookup name = some t) : HasType Γ n (.index b (.ident name symbol info) info') t
  | field {b : Expr} {name struct : String} {info : Info} {t : Ty} {fields : List (String × Ty)}
      (hb : HasType Γ n b (.struct struct)) (hs : Γ.HasFields struct fields) (hf : fields.lookup name = some t) :
    HasType Γ n (.field b name info) t
  | callFunction {name : String} {symbol : Option Symbol} {info info' : Info} {args : List Expr} {s : Symbol}
      {params : List Ty} {result : Ty} (hn : isBuiltinName name = false) (hs : Γ.Means n name s)
      (hk : s.kind = .func) (ht : s.ty = some (.func params result)) (ha : HaveTypes Γ n args params) :
    HasType Γ n (.call (.ident name symbol info) args info') result
  | callBuiltin {name : String} {symbol : Option Symbol} {info info' : Info} {args : List Expr} {s : Signature}
      (hn : isBuiltinName name = true) (hf : SpecialForm.ofName? name = none) (hs : Γ.builtins.lookup name = some s)
      (ha : HaveTypes Γ n args s.params) : HasType Γ n (.call (.ident name symbol info) args info') s.result
  | callPointer {callee : Expr} {args : List Expr} {info : Info} {params : List Ty} {result : Ty}
      (hn : ¬callee.IsBuiltinName) (hc : HasType Γ n callee (.func params result)) (ha : HaveTypes Γ n args params) :
    HasType Γ n (.call callee args info) result
  | alloc {symbol : Option Symbol} {info info' : Info} {e : Expr} {t : Ty} (he : Γ.Allocates n e t) :
    HasType Γ n (.call (.ident SpecialForm.alloc.name symbol info) [e] info') (.pointer t)
  | allocMany {symbol : Option Symbol} {info info' : Info} {e count : Expr} {t : Ty} (he : Γ.Allocates n e t)
      (hc : HasType Γ n count .int) :
    HasType Γ n (.call (.ident SpecialForm.alloc.name symbol info) [e, count] info') (.pointer t)
  | free {symbol : Option Symbol} {info info' : Info} {e : Expr} {t : Ty} (he : HasType Γ n e (.pointer t)) :
    HasType Γ n (.call (.ident SpecialForm.free.name symbol info) [e] info') .void
  | addrFunction {name : String} {symbol : Option Symbol} {info info' : Info} {s : Symbol} {t : Ty}
      (hs : Γ.Means n name s) (hk : s.kind = .func) (ht : s.ty = some t) :
    HasType Γ n (.addrOf (.ident name symbol info) info') t
  | addrPlace {e : Expr} {info : Info} {t : Ty} (hn : ¬e.IsBuiltinName) (he : HasType Γ n e t)
      (hp : IsStored Γ n e) : HasType Γ n (.addrOf e info) (.pointer t)

/-- The types of arguments. -/
inductive HaveTypes (Γ : Context) (n : Nat) : List Expr → List Ty → Prop
  | nil : HaveTypes Γ n [] []
  | cons {e : Expr} {es : List Expr} {t : Ty} {ts : List Ty} (he : HasType Γ n e t) (hes : HaveTypes Γ n es ts) :
    HaveTypes Γ n (e :: es) (t :: ts)

/-- An expression is a place in storage: a variable, a part of such a place, or something behind a pointer. -/
inductive IsStored (Γ : Context) (n : Nat) : Expr → Prop
  | ident {name : String} {symbol : Option Symbol} {info : Info} {s : Symbol} (hs : Γ.Means n name s)
      (hk : s.kind.isStorage = true) : IsStored Γ n (.ident name symbol info)
  | behind {b i : Expr} {info : Info} {t : Ty} (hb : HasType Γ n b (.pointer t)) : IsStored Γ n (.index b i info)
  | part {b i : Expr} {info : Info} (hb : IsStored Γ n b) : IsStored Γ n (.index b i info)
  | field {b : Expr} {name : String} {info : Info} (hb : IsStored Γ n b) : IsStored Γ n (.field b name info)

end

mutual

/-- An expression can be put in a place of a type. A composite literal has no type of its own, but fits arrays and
structs with as many parts. -/
inductive Conforms (Γ : Context) (n : Nat) : Expr → Ty → Prop
  | value {e : Expr} {t : Ty} (h : Γ.HasType n e t) : Conforms Γ n e t
  | array {es : List Expr} {info : Info} {t : Ty} {size : Int} (hn : (es.length : Int) = size)
      (h : ∀ e ∈ es, Conforms Γ n e t) : Conforms Γ n (.composite es info) (.array t size)
  | struct {es : List Expr} {info : Info} {name : String} {fields : List (String × Ty)}
      (hs : Γ.HasFields name fields) (h : ConformAll Γ n es (fields.map (·.2))) :
    Conforms Γ n (.composite es info) (.struct name)

inductive ConformAll (Γ : Context) (n : Nat) : List Expr → List Ty → Prop
  | nil : ConformAll Γ n [] []
  | cons {e : Expr} {es : List Expr} {t : Ty} {ts : List Ty} (he : Conforms Γ n e t)
      (hes : ConformAll Γ n es ts) : ConformAll Γ n (e :: es) (t :: ts)

end

/-- An expression can be assigned to: it is a name of something stored, perhaps with selectors behind it. -/
def IsAssignable (Γ : Context) (n : Nat) : Expr → Prop
  | .ident name _ _ => ∃ s, Γ.Means n name s ∧ s.kind.isStorage = true
  | .index b _ _ => Γ.IsAssignable n b
  | .field b _ _ => Γ.IsAssignable n b
  | _ => False

end Context

/-! ## Statements -/

namespace Stmt

mutual

/-- The statement with number `n` is in order, inside a loop or not. -/
def IsTyped (Γ : Context) (inLoop : Bool) (n : Nat) : Stmt → Prop
  | .var _ | .label .. => True
  | .assign target value _ => Γ.IsAssignable n target ∧ ∃ t, Γ.HasType n target t ∧ Γ.Conforms n value t
  | .call e _ => e.isCall = true ∧ ∃ t, Γ.HasType n e t
  | .ifThen c body _ otherwise _ =>
    Γ.HasType n c .int ∧ AreTyped Γ inLoop (n + 1) body ∧ ElseTyped Γ inLoop (n + 1 + sizes body) otherwise
  | .whileDo c body _ _ => Γ.HasType n c .int ∧ AreTyped Γ true (n + 1) body
  | .breakLoop _ | .continueLoop _ => inLoop = true
  | .goto name _ _ => ∃ s ∈ Γ.locals, s.name = name ∧ s.kind = .label
  | .block body _ => AreTyped Γ inLoop (n + 1) body
  | .foreign _ => False

/-- What follows an `else` is in order. A block there has no number of its own. -/
def ElseTyped (Γ : Context) (inLoop : Bool) (n : Nat) : Option Stmt → Prop
  | none => True
  | some (.block body _) => AreTyped Γ inLoop n body
  | some (.ifThen c body _ otherwise _) =>
    Γ.HasType n c .int ∧ AreTyped Γ inLoop (n + 1) body ∧ ElseTyped Γ inLoop (n + 1 + sizes body) otherwise
  | some _ => False

def AreTyped (Γ : Context) (inLoop : Bool) (n : Nat) : List Stmt → Prop
  | [] => True
  | s :: ss => s.IsTyped Γ inLoop n ∧ AreTyped Γ inLoop (n + s.size) ss

end

/-- The name that a statement declares. -/
def declared? : Stmt → Option String
  | var d => some d.name
  | label name _ _ => some name
  | _ => none

/-- The symbol of a label in the statement with number `n`. -/
def labelSymbol (function name : String) (n : Nat) (span : Span) : Symbol :=
  { name, kind := .label, level := .local, span, owner := some function, order := n }

end Stmt

/-- The symbol of a variable of a function, declared by the statement with number `n`. -/
def VarDecl.symbol (d : VarDecl) (function : String) (n : Nat) (t : Ty) : Symbol :=
  { name := d.name, kind := .var, level := .local, ty := some t, span := d.span, owner := some function, order := n }

/-- What statements declare, the first of which has number `n`, behind what is declared before them: a type may use no
more than that. -/
inductive Stmt.Declare (Γ : Context) (function : String) : List Symbol → Nat → List Stmt → List Symbol → Prop
  | nil {before : List Symbol} {n : Nat} : Declare Γ function before n [] before
  | var {before locals : List Symbol} {n : Nat} {d : VarDecl} {ss : List Stmt} {t : Ty}
      (ht : Context.Denotes { Γ with locals := before } n false d.type t)
      (h : Declare Γ function (before ++ [d.symbol function n t]) (n + 1) ss locals) :
    Declare Γ function before n (.var d :: ss) locals
  | label {before locals : List Symbol} {n : Nat} {name : String} {index : Option Nat} {span : Span} {ss : List Stmt}
      (h : Declare Γ function (before ++ [labelSymbol function name n span]) (n + 1) ss locals) :
    Declare Γ function before n (.label name index span :: ss) locals
  | other {before locals : List Symbol} {n : Nat} {s : Stmt} {ss : List Stmt} (hs : s.declared? = none)
      (h : Declare Γ function before (n + 1) ss locals) : Declare Γ function before n (s :: ss) locals

/-! ## Bodies -/

namespace FuncDecl

/-- What a function declares before its body: its result, unless it is `void`, and its parameters. -/
def headLocals (d : FuncDecl) (s : Signature) : List Symbol :=
  ((d.headSymbols s).filterMap Except.toOption).map fun symbol => { symbol with owner := some d.name }

/-- The names that a function declares, in the order of their declarations. -/
def localNames (d : FuncDecl) (s : Signature) : List String :=
  (if s.result = .void then [] else [resultName]) ++ d.params.filterMap (fun m => m.name.toOption)
    ++ (Stmt.flattenAll d.body).filterMap Stmt.declared?

/-- A function with a signature is in order: its names are distinct, its variables have types, and its statements are
in order among these. -/
structure IsTyped (builtins : Builtins) (c : Catalog) (s : Signature) (d : FuncDecl) : Prop where
  distinct : (d.localNames s).Nodup
  body : ∃ locals,
    Stmt.Declare ⟨builtins, c.globals, c.structs, []⟩ d.name (d.headLocals s) 0 (Stmt.flattenAll d.body) locals
      ∧ Stmt.AreTyped ⟨builtins, c.globals, c.structs, locals⟩ false 0 d.body

end FuncDecl

end FlatScope
