/-
  Notes that are sound. A type is well formed if its arrays have positive sizes, its structs are known, and `void` is only the
  result of a function (`Ty.IsWellFormed`). A note is sound if it is a type that a value can have, or the `void` of a call; and
  if a field is noted to be selected or a literal to be put together, the struct has all its fields (`Expr.IsSound`). In an
  expression that is in order all parts have notes, and those that others are made of are values (`Expr.IsSettled`).

  Which types values can have depends on the builtins, whose types are whatever a table says. So the types of values are those
  of some class that is closed under all that is done with types (`Ty.IsClosed`).
-/
import FlatScope.Catalog
import FlatScope.Parse
import FlatScope.Proofs.Tree.Strip
import FlatScope.Resolution.Stmt

namespace FlatScope

/-! ## Types -/

namespace Ty

mutual

/-- A type that a value can have, where the structs have the given names. -/
def IsWellFormed (structs : List String) : Ty → Prop
  | .primitive _ => True
  | .void => False
  | .pointer t => t.IsWellFormed structs
  | .array t size => 0 < size ∧ t.IsWellFormed structs
  | .struct name => name ∈ structs
  | .func ps r => AreWellFormed structs ps ∧ (r = .void ∨ r.IsWellFormed structs)

def AreWellFormed (structs : List String) : List Ty → Prop
  | [] => True
  | t :: ts => t.IsWellFormed structs ∧ AreWellFormed structs ts

end

variable {structs structs' : List String} {t : Ty} {ts : List Ty}

theorem areWellFormed_iff : AreWellFormed structs ts ↔ ∀ t ∈ ts, t.IsWellFormed structs := by
  induction ts with
  | nil => exact iff_of_true trivial nofun
  | cons t ts ih => rw [AreWellFormed, ih, List.forall_mem_cons]

theorem IsWellFormed.ne_void (h : t.IsWellFormed structs) : t ≠ .void := by
  rintro rfl
  exact h

mutual

theorem IsWellFormed.mono (hs : structs ⊆ structs') : (t : Ty) → t.IsWellFormed structs → t.IsWellFormed structs'
  | .primitive _, _ => trivial
  | .pointer t, h => IsWellFormed.mono hs t h
  | .array t _, h => ⟨h.1, IsWellFormed.mono hs t h.2⟩
  | .struct _, h => hs h
  | .func ps r, h => ⟨AreWellFormed.mono hs ps h.1, h.2.imp_right (IsWellFormed.mono hs r)⟩

theorem AreWellFormed.mono (hs : structs ⊆ structs') : (ts : List Ty) → AreWellFormed structs ts → AreWellFormed structs' ts
  | [], _ => trivial
  | t :: ts, h => ⟨IsWellFormed.mono hs t h.1, AreWellFormed.mono hs ts h.2⟩

end

end Ty

/-- A class of types is closed under what the types of expressions are made by and taken apart by. The types that
values can have are such a class, and so are all types. -/
structure Ty.IsClosed (V : Ty → Prop) : Prop where
  primitive : ∀ p, V (.primitive p)
  pointer : ∀ t, V (.pointer t) ↔ V t
  element : ∀ t n, V (.array t n) → V t
  func : ∀ ps r, V (.func ps r) ↔ (∀ t ∈ ps, V t) ∧ (r = .void ∨ V r)

theorem Ty.isClosed_isWellFormed (structs : List String) : Ty.IsClosed (Ty.IsWellFormed structs) where
  primitive _ := trivial
  pointer _ := Iff.rfl
  element _ _ h := h.2
  func _ _ := and_congr_left' areWellFormed_iff

theorem Ty.isClosed_true : Ty.IsClosed fun _ => True where
  primitive _ := trivial
  pointer _ := Iff.rfl
  element _ _ _ := trivial
  func _ _ := iff_of_true trivial ⟨fun _ _ => trivial, .inr trivial⟩

/-- The type of a symbol is one of a class, as far as it is known. -/
def Symbol.IsSound (V : Ty → Prop) (s : Symbol) : Prop := ∀ t, s.ty = some t → V t

theorem Symbol.IsSound.mono {V V' : Ty → Prop} {s : Symbol} (h : s.IsSound V) (hV : ∀ t, V t → V' t) : s.IsSound V' :=
  fun t ht => hV t (h t ht)

/-! ## Expressions and their parts -/

namespace Expr

/-- The expressions that an expression is made of. -/
def children : Expr → List Expr
  | .index base i _ => [base, i]
  | .field base _ _ => [base]
  | .call callee args _ => callee :: args
  | .composite elements _ => elements
  | .addrOf target _ => [target]
  | _ => []

mutual

/-- An expression and everything that it is made of. -/
def parts : Expr → List Expr
  | .index base i info => .index base i info :: (base.parts ++ i.parts)
  | .field base name info => .field base name info :: base.parts
  | .call callee args info => .call callee args info :: (callee.parts ++ partsAll args)
  | .composite elements info => .composite elements info :: partsAll elements
  | .addrOf target info => .addrOf target info :: target.parts
  | e => [e]

def partsAll : List Expr → List Expr
  | [] => []
  | e :: es => e.parts ++ partsAll es

end

theorem forall_mem_partsAll {P : Expr → Prop} {es : List Expr} :
    (∀ x ∈ partsAll es, P x) ↔ ∀ e ∈ es, ∀ x ∈ e.parts, P x := by
  induction es with
  | nil => exact iff_of_true nofun nofun
  | cons e es ih => rw [partsAll, List.forall_mem_append, ih, List.forall_mem_cons]

/-- An expression without notes. -/
def IsBlank : Expr → Prop
  | .ident _ symbol info => symbol = none ∧ info.ty = none
  | e => e.info.ty = none

/-- The notes of an expression are sound, with types of values from a class `V`. -/
def IsSound (V : Ty → Prop) (structs : List StructInfo) : Expr → Prop
  | .ident _ symbol info => (∀ s, symbol = some s → s.IsSound V) ∧ ∀ t, info.ty = some t → V t
  | .call _ _ info => ∀ t, info.ty = some t → t = .void ∨ V t
  | .index base _ info => ∀ t, info.ty = some t → V t ∧ ∃ u, base.info.ty = some u ∧ u.element? = some t
  | .field base name info => ∀ t, info.ty = some t → V t
      ∧ ∃ i, base.info.ty = some (.struct i.name) ∧ structs.find? (fun s => s.name = i.name) = some i
        ∧ i.isComplete = true ∧ i.fields.lookup name = some t
  | .composite elements info => ∀ t, info.ty = some t → V t
      ∧ ∀ name, t = .struct name → ∃ i, structs.find? (fun s => s.name = name) = some i ∧ i.isComplete = true
        ∧ i.fields.length = elements.length
  | e => ∀ t, e.info.ty = some t → V t

/-- An expression is noted to be a value, with a type from a class. -/
def IsValued (V : Ty → Prop) (e : Expr) : Prop := ∃ t, e.info.ty = some t ∧ V t

/-- The notes of an expression are sound, and everything it is made of is noted to be a value. -/
structure IsSettled (V : Ty → Prop) (structs : List StructInfo) (e : Expr) : Prop where
  sound : e.IsSound V structs
  valued : ∀ child ∈ e.children, child.IsValued V

theorem IsSound.mono {V V' : Ty → Prop} {structs : List StructInfo} {e : Expr} (h : e.IsSound V structs) (hV : ∀ t, V t → V' t) :
    e.IsSound V' structs := by
  cases e with
  | ident _ _ _ => exact ⟨fun s hs => (h.1 s hs).mono hV, fun t ht => hV t (h.2 t ht)⟩
  | call _ _ _ => exact fun t ht => (h t ht).imp_right (hV t)
  | index _ _ _ | field _ _ _ | composite _ _ => exact fun t ht => (h t ht).imp_left (hV t)
  | int _ _ | real _ _ | byte _ _ | addrOf _ _ | typeArg _ _ | foreign _ => exact fun t ht => hV t (h t ht)

theorem IsBlank.isSound {V : Ty → Prop} {structs : List StructInfo} {e : Expr} (h : e.IsBlank) : e.IsSound V structs := by
  cases e with
  | ident name symbol info => exact ⟨fun s hs => (nomatch h.1.symm.trans hs), fun t ht => (nomatch h.2.symm.trans ht)⟩
  | int _ _ | real _ _ | byte _ _ | index _ _ _ | field _ _ _ | call _ _ _ | composite _ _ | addrOf _ _ | typeArg _ _
  | foreign _ => exact fun t ht => nomatch (show _ = none from h).symm.trans ht

end Expr

/-! ## Statements and declarations -/

/-- The expressions that stand in a statement, not counting those in the statements inside it. -/
def Stmt.exprs : Stmt → List Expr
  | .assign target value _ => [target, value]
  | .call e _ => [e]
  | .ifThen c _ _ _ _ | .whileDo c _ _ _ => [c]
  | _ => []

/-- The expressions that stand in statements, with everything that they are made of. -/
def Stmt.parts (ss : List Stmt) : List Expr := ss.flatMap fun s => Expr.partsAll s.exprs

/-- The expressions of a declaration, with everything that they are made of. -/
def Decl.parts : Decl → List Expr
  | .const d => d.value.parts
  | .func d => Stmt.parts (Stmt.flattenAll d.body)
  | _ => []

theorem Stmt.forall_mem_parts {P : Expr → Prop} {ss : List Stmt} :
    (∀ x ∈ parts ss, P x) ↔ ∀ s ∈ ss, ∀ e ∈ s.exprs, ∀ x ∈ e.parts, P x := by
  simp only [parts, List.forall_mem_flatMap, Expr.forall_mem_partsAll]

/-! ## Trees without notes -/

theorem kept_eq {α : Type} {note : Option α} (h : kept true note = kept false note) : note = none := h

theorem Info.ty_eq_none {i : Info} (h : i.strip true = i.strip false) : i.ty = none := congrArg Info.ty h

mutual

/-- A tree that stays the same when its notes are taken out has none. -/
theorem Expr.isBlank_of_strip : (e : Expr) → e.strip true = e.strip false → ∀ x ∈ e.parts, x.IsBlank
  | .int _ i, h => List.forall_mem_singleton.mpr (Info.ty_eq_none (Expr.int.inj h).2)
  | .real _ i, h => List.forall_mem_singleton.mpr (Info.ty_eq_none (Expr.real.inj h).2)
  | .byte _ i, h => List.forall_mem_singleton.mpr (Info.ty_eq_none (Expr.byte.inj h).2)
  | .ident name symbol info, h => by
    obtain ⟨-, hsymbol, hinfo⟩ := Expr.ident.inj h
    exact List.forall_mem_singleton.mpr ⟨Option.map_eq_none_iff.mp (kept_eq hsymbol), Info.ty_eq_none hinfo⟩
  | .index b i info, h => by
    obtain ⟨hb, hi, hinfo⟩ := Expr.index.inj h
    exact List.forall_mem_cons.mpr ⟨Info.ty_eq_none hinfo,
      List.forall_mem_append.mpr ⟨b.isBlank_of_strip hb, i.isBlank_of_strip hi⟩⟩
  | .field b name info, h => by
    obtain ⟨hb, -, hinfo⟩ := Expr.field.inj h
    exact List.forall_mem_cons.mpr ⟨Info.ty_eq_none hinfo, b.isBlank_of_strip hb⟩
  | .call c args info, h => by
    obtain ⟨hc, hargs, hinfo⟩ := Expr.call.inj h
    exact List.forall_mem_cons.mpr ⟨Info.ty_eq_none hinfo,
      List.forall_mem_append.mpr ⟨c.isBlank_of_strip hc, isBlank_of_stripAll args hargs⟩⟩
  | .composite es info, h => by
    obtain ⟨hes, hinfo⟩ := Expr.composite.inj h
    exact List.forall_mem_cons.mpr ⟨Info.ty_eq_none hinfo, isBlank_of_stripAll es hes⟩
  | .addrOf e info, h => by
    obtain ⟨he, hinfo⟩ := Expr.addrOf.inj h
    exact List.forall_mem_cons.mpr ⟨Info.ty_eq_none hinfo, e.isBlank_of_strip he⟩
  | .typeArg w info, h => List.forall_mem_singleton.mpr (Info.ty_eq_none (Expr.typeArg.inj h).2)
  | .foreign n, _ => List.forall_mem_singleton.mpr rfl

theorem Expr.isBlank_of_stripAll : (es : List Expr) → stripAll true es = stripAll false es → ∀ x ∈ partsAll es, x.IsBlank
  | [], _ => List.forall_mem_nil _
  | e :: es, h => by
    obtain ⟨he, hes⟩ := List.cons.inj h
    exact List.forall_mem_append.mpr ⟨e.isBlank_of_strip he, isBlank_of_stripAll es hes⟩

end

/-- Statements have no notes in their expressions. -/
def Stmt.AreBlank (ss : List Stmt) : Prop := ∀ x ∈ parts (flattenAll ss), x.IsBlank

/-- No expression of a declaration has notes. -/
def Decl.IsBlank (d : Decl) : Prop := ∀ x ∈ d.parts, x.IsBlank

namespace Stmt

mutual

theorem isBlank_of_strip : (s : Stmt) → s.strip true = s.strip false →
    ∀ x ∈ parts s.flatten, x.IsBlank
  | .var _, _ | .breakLoop _, _ | .continueLoop _, _ | .label .., _ | .goto .., _ | .foreign _, _ => nofun
  | .assign t v _, h => by
    obtain ⟨ht, hv, -⟩ := Stmt.assign.inj h
    refine forall_mem_parts.mpr (List.forall_mem_singleton.mpr (List.forall_mem_cons.mpr ⟨t.isBlank_of_strip ht, ?_⟩))
    exact List.forall_mem_singleton.mpr (v.isBlank_of_strip hv)
  | .call c _, h => by
    obtain ⟨hc, -⟩ := Stmt.call.inj h
    exact forall_mem_parts.mpr (List.forall_mem_singleton.mpr (List.forall_mem_singleton.mpr (c.isBlank_of_strip hc)))
  | .ifThen c body _ otherwise _, h => by
    obtain ⟨hc, hbody, -, hotherwise, -⟩ := Stmt.ifThen.inj h
    refine forall_mem_parts.mpr (List.forall_mem_cons.mpr ⟨List.forall_mem_singleton.mpr (c.isBlank_of_strip hc), ?_⟩)
    exact List.forall_mem_append.mpr ⟨forall_mem_parts.mp (isBlank_of_stripAll body hbody),
      forall_mem_parts.mp (isBlank_of_stripElse otherwise hotherwise)⟩
  | .whileDo c body _ _, h => by
    obtain ⟨hc, hbody, -⟩ := Stmt.whileDo.inj h
    refine forall_mem_parts.mpr (List.forall_mem_cons.mpr ⟨List.forall_mem_singleton.mpr (c.isBlank_of_strip hc), ?_⟩)
    exact forall_mem_parts.mp (isBlank_of_stripAll body hbody)
  | .block body _, h => by
    obtain ⟨hbody, -⟩ := Stmt.block.inj h
    exact forall_mem_parts.mpr (List.forall_mem_cons.mpr ⟨nofun, forall_mem_parts.mp (isBlank_of_stripAll body hbody)⟩)

theorem isBlank_of_stripElse : (o : Option Stmt) → stripElse true o = stripElse false o →
    ∀ x ∈ parts (flattenElse o), x.IsBlank
  | none, _ => nofun
  | some (.ifThen c body _ otherwise _), h => by
    obtain ⟨hc, hbody, -, hotherwise, -⟩ := Stmt.ifThen.inj (Option.some.inj h)
    refine forall_mem_parts.mpr (List.forall_mem_cons.mpr ⟨List.forall_mem_singleton.mpr (c.isBlank_of_strip hc), ?_⟩)
    exact List.forall_mem_append.mpr ⟨forall_mem_parts.mp (isBlank_of_stripAll body hbody),
      forall_mem_parts.mp (isBlank_of_stripElse otherwise hotherwise)⟩
  | some (.block body _), h => by
    obtain ⟨hbody, -⟩ := Stmt.block.inj (Option.some.inj h)
    exact isBlank_of_stripAll body hbody
  | some (.var _), _ | some (.assign ..), _ | some (.call ..), _ | some (.whileDo ..), _ | some (.breakLoop _), _
  | some (.continueLoop _), _ | some (.label ..), _ | some (.goto ..), _ | some (.foreign _), _ => nofun

theorem isBlank_of_stripAll : (ss : List Stmt) → stripAll true ss = stripAll false ss → AreBlank ss
  | [], _ => nofun
  | s :: ss, h => by
    obtain ⟨hs, hss⟩ := List.cons.inj h
    exact forall_mem_parts.mpr (List.forall_mem_append.mpr ⟨forall_mem_parts.mp (s.isBlank_of_strip hs),
      forall_mem_parts.mp (isBlank_of_stripAll ss hss)⟩)

end

end Stmt

theorem Decl.isBlank_of_strip {d : Decl} (h : d.strip true = d.strip false) : d.IsBlank := by
  cases d with
  | const d => exact d.value.isBlank_of_strip (congrArg ConstDecl.value (Decl.const.inj h))
  | func d => exact Stmt.isBlank_of_stripAll d.body (congrArg FuncDecl.body (Decl.func.inj h))
  | var _ | struct _ | foreign _ => exact nofun

end FlatScope
