/-
  Well-formed trees: those that can be written down so that they are read back. Names are words and no keywords, a base
  is something a suffix can be put behind, and a type stands among arguments only if it cannot be taken for an
  expression there. Notes are of no concern. A `field` is never well formed, since what is read back is an `index`.
-/
import FlatScope.Grammar.Reading
import FlatScope.Parse
import FlatScope.Proofs.Token.First
import FlatScope.Tree.Source

namespace FlatScope

/-- A word that is free to be a name. -/
def IsName (s : String) : Prop := Kind.name.Spells s.toList ∧ Kind.ofKeyword? s = none

/-- The name of a builtin. -/
def IsBuiltin (s : String) : Prop := Kind.builtin.Spells s.toList

/-- A word for a type that is no struct. -/
def IsTypeWord (s : String) : Prop := s = "int" ∨ s = "float" ∨ s = "byte" ∨ s = "void"

def ArraySize.IsWellFormed : ArraySize → Prop
  | int _ => True
  | name s => IsName s

namespace TypeExpr

mutual

def IsWellFormed : TypeExpr → Prop
  | .named name _ => IsTypeWord name ∨ IsName name
  | .pointer e _ => e.IsWellFormed
  | .array e size _ => e.IsWellFormed ∧ size.IsWellFormed
  | .func r ps _ => r.IsWellFormed ∧ AreWellFormed ps
  | .foreign _ => False

def AreWellFormed : List TypeExpr → Prop
  | [] => True
  | t :: ts => t.IsWellFormed ∧ AreWellFormed ts

end

/-- A type can be told from an expression: its innermost word is no name of a struct, or there is a star right behind
it. -/
def IsTelling : TypeExpr → Prop
  | named name _ => IsTypeWord name
  | pointer (named _ _) _ => True
  | pointer e _ => e.IsTelling
  | array e _ _ => e.IsTelling
  | func r _ _ => r.IsTelling
  | foreign _ => False

end TypeExpr

namespace Expr

/-- A suffix can be put behind an expression. -/
def IsChain : Expr → Prop
  | ident .. | index .. | call .. | addrOf .. => True
  | _ => False

/-- A callee and arguments that are read as an address instead of a call. -/
def IsAddressForm (callee : Expr) (args : List Expr) : Prop :=
  ∃ symbol info arg, callee = .ident SpecialForm.addr.name symbol info ∧ args = [arg] ∧ Grammar.isTypeArg arg = false

/-- A type in the place of an argument. -/
def IsTypeArgument : Expr → Prop
  | typeArg t _ => t.IsWellFormed ∧ t.IsTelling
  | _ => False

mutual

def IsWellFormed : Expr → Prop
  | .int _ _ => True
  | .real x _ => x.isFinite = true
  | .byte n _ => 0 ≤ n ∧ n ≤ 255
  | .ident name _ _ => IsName name ∨ IsBuiltin name
  | .index b i _ => b.IsChain ∧ b.IsWellFormed ∧ i.IsWellFormed
  | .call c args _ => c.IsChain ∧ c.IsWellFormed ∧ AreArguments args ∧ ¬c.IsAddressForm args
  | .composite es _ => AreWellFormed es
  | .addrOf t _ => t.IsWellFormed
  | .field .. | .typeArg .. | .foreign _ => False

def AreWellFormed : List Expr → Prop
  | [] => True
  | e :: es => e.IsWellFormed ∧ AreWellFormed es

/-- Arguments are expressions or types. -/
def AreArguments : List Expr → Prop
  | [] => True
  | e :: es => (e.IsWellFormed ∨ e.IsTypeArgument) ∧ AreArguments es

end

/-- A target of an assignment: a name, perhaps with indices behind it. -/
def IsTarget : Expr → Prop
  | ident name _ _ => IsName name
  | index b _ _ => b.IsTarget
  | _ => False

/-- The value of a constant: a literal or a name. -/
def IsConstant : Expr → Prop
  | int .. | real .. | byte .. => True
  | ident name _ _ => IsName name
  | _ => False

end Expr

/-- Arguments behind a callee are a call, unless they are the address form. -/
theorem Grammar.Suffix.applyTo_call {callee : Expr} {args : List Expr} (h : ¬callee.IsAddressForm args) (span : Span) :
    Suffix.applyTo callee (.call args span) = .call callee args { span := .join callee.span span } := by
  unfold applyTo
  dsimp only
  split
  · rename_i name symbol info arg
    rw [if_neg]
    rintro ⟨rfl, ha⟩
    rw [Bool.not_eq_true'] at ha
    exact h ⟨symbol, info, arg, rfl, rfl, ha⟩
  · rfl

def VarDecl.IsWellFormed (d : VarDecl) : Prop := IsName d.name ∧ d.type.IsWellFormed

def Param.IsWellFormed (p : Param) : Prop := IsName p.name ∧ p.type.IsWellFormed

/-- There are braces. -/
def Braces.AreThere : Braces → Prop
  | around _ => True
  | missing _ => False

namespace Stmt

/-- What can stand behind `else`. -/
def IsBranch : Stmt → Prop
  | ifThen .. | block .. => True
  | _ => False

mutual

def IsWellFormed : Stmt → Prop
  | .var d => d.IsWellFormed
  | .assign t v _ => t.IsTarget ∧ t.IsWellFormed ∧ v.IsWellFormed
  | .call c _ => c.isCall = true ∧ c.IsWellFormed
  | .ifThen c body braces otherwise _ =>
    c.IsWellFormed ∧ AreWellFormed body ∧ braces.AreThere ∧ IsElse otherwise
  | .whileDo c body braces _ => c.IsWellFormed ∧ AreWellFormed body ∧ braces.AreThere
  | .breakLoop _ | .continueLoop _ => True
  | .label name _ _ | .goto name _ _ => IsName name
  | .block body _ => AreWellFormed body
  | .foreign _ => False

def IsElse : Option Stmt → Prop
  | none => True
  | some s => s.IsBranch ∧ s.IsWellFormed

def AreWellFormed : List Stmt → Prop
  | [] => True
  | s :: ss => s.IsWellFormed ∧ AreWellFormed ss

end

end Stmt

def ConstDecl.IsWellFormed (d : ConstDecl) : Prop := IsName d.name ∧ d.value.IsConstant ∧ d.value.IsWellFormed

/-- A struct has at least one field. -/
def StructDecl.IsWellFormed (d : StructDecl) : Prop :=
  IsName d.name ∧ d.fields ≠ [] ∧ ∀ m ∈ d.fields, ∃ field : VarDecl, m = .var field ∧ field.IsWellFormed

def FuncDecl.IsWellFormed (d : FuncDecl) : Prop :=
  IsName d.name ∧ d.result.IsWellFormed ∧ (∀ m ∈ d.params, ∃ param : Param, m = .param param ∧ param.IsWellFormed)
    ∧ Stmt.AreWellFormed d.body ∧ d.braces.AreThere

def Decl.IsWellFormed : Decl → Prop
  | const d => d.IsWellFormed
  | var d => d.IsWellFormed
  | struct d => d.IsWellFormed
  | func d => d.IsWellFormed
  | foreign _ => False

/-- A unit whose declarations are all well formed. -/
def Program.IsWellFormed (p : Program) : Prop := ∀ d ∈ p.decls, d.IsWellFormed

/-! ## Lists -/

theorem TypeExpr.areWellFormed_iff {ts : List TypeExpr} : AreWellFormed ts ↔ ∀ t ∈ ts, t.IsWellFormed := by
  induction ts with
  | nil => exact iff_of_true trivial nofun
  | cons t ts ih => rw [AreWellFormed, List.forall_mem_cons, ih]

theorem Expr.areWellFormed_iff {es : List Expr} : AreWellFormed es ↔ ∀ e ∈ es, e.IsWellFormed := by
  induction es with
  | nil => exact iff_of_true trivial nofun
  | cons e es ih => rw [AreWellFormed, List.forall_mem_cons, ih]

theorem Expr.areArguments_iff {es : List Expr} : AreArguments es ↔ ∀ e ∈ es, e.IsWellFormed ∨ e.IsTypeArgument := by
  induction es with
  | nil => exact iff_of_true trivial nofun
  | cons e es ih => rw [AreArguments, List.forall_mem_cons, ih]

theorem Stmt.areWellFormed_iff {ss : List Stmt} : AreWellFormed ss ↔ ∀ s ∈ ss, s.IsWellFormed := by
  induction ss with
  | nil => exact iff_of_true trivial nofun
  | cons s ss ih => rw [AreWellFormed, List.forall_mem_cons, ih]

/-! ## Nothing is misplaced -/

theorem orElse_none {α : Type} {a b : Option α} (ha : a = none) (hb : b = none) : (a <|> b) = none := by
  rw [ha, hb]
  rfl

mutual

theorem TypeExpr.misplaced?_eq_none : (t : TypeExpr) → t.IsWellFormed → t.misplaced? = none
  | .named .., _ => rfl
  | .pointer e _, h => e.misplaced?_eq_none h
  | .array e _ _, h => e.misplaced?_eq_none h.1
  | .func r ps _, h => orElse_none (misplacedAny?_eq_none ps h.2) (r.misplaced?_eq_none h.1)
  | .foreign _, h => h.elim

theorem TypeExpr.misplacedAny?_eq_none : (ts : List TypeExpr) → AreWellFormed ts → misplacedAny? ts = none
  | [], _ => rfl
  | t :: ts, h => orElse_none (t.misplaced?_eq_none h.1) (misplacedAny?_eq_none ts h.2)

end

theorem Expr.IsTypeArgument.misplaced? {e : Expr} (h : e.IsTypeArgument) : e.misplaced? = none := by
  cases e
  case typeArg t info => exact t.misplaced?_eq_none h.1
  all_goals exact h.elim

mutual

theorem Expr.misplaced?_eq_none : (e : Expr) → e.IsWellFormed → e.misplaced? = none
  | .int .., _ | .real .., _ | .byte .., _ | .ident .., _ => rfl
  | .index b i _, h => orElse_none (b.misplaced?_eq_none h.2.1) (i.misplaced?_eq_none h.2.2)
  | .call c args _, h => orElse_none (misplacedArguments?_eq_none args h.2.2.1) (c.misplaced?_eq_none h.2.1)
  | .composite es _, h => misplacedAny?_eq_none es h
  | .addrOf t _, h => t.misplaced?_eq_none h
  | .field .., h | .typeArg .., h | .foreign _, h => h.elim

theorem Expr.misplacedAny?_eq_none : (es : List Expr) → AreWellFormed es → misplacedAny? es = none
  | [], _ => rfl
  | e :: es, h => orElse_none (e.misplaced?_eq_none h.1) (misplacedAny?_eq_none es h.2)

theorem Expr.misplacedArguments?_eq_none : (es : List Expr) → AreArguments es → misplacedAny? es = none
  | [], _ => rfl
  | e :: es, ⟨.inl h, hs⟩ => orElse_none (e.misplaced?_eq_none h) (misplacedArguments?_eq_none es hs)
  | _ :: es, ⟨.inr h, hs⟩ => orElse_none h.misplaced? (misplacedArguments?_eq_none es hs)

end

theorem Braces.AreThere.misplaced? {b : Braces} (h : b.AreThere) : b.misplaced? = none := by
  cases b with
  | around span => rfl
  | missing n => exact h.elim

mutual

theorem Stmt.misplaced?_eq_none : (s : Stmt) → s.IsWellFormed → s.misplaced? = none
  | .var d, h => d.type.misplaced?_eq_none h.2
  | .assign t v _, h => orElse_none (t.misplaced?_eq_none h.2.1) (v.misplaced?_eq_none h.2.2)
  | .call c _, h => c.misplaced?_eq_none h.2
  | .ifThen c body _ otherwise _, h =>
    orElse_none (c.misplaced?_eq_none h.1) (orElse_none h.2.2.1.misplaced?
      (orElse_none (misplacedAny?_eq_none body h.2.1) (misplacedElse?_eq_none otherwise h.2.2.2)))
  | .whileDo c body _ _, h =>
    orElse_none (c.misplaced?_eq_none h.1) (orElse_none h.2.2.misplaced? (misplacedAny?_eq_none body h.2.1))
  | .block body _, h => misplacedAny?_eq_none body h
  | .breakLoop _, _ | .continueLoop _, _ | .label .., _ | .goto .., _ => rfl
  | .foreign _, h => h.elim

theorem Stmt.misplacedElse?_eq_none : (o : Option Stmt) → IsElse o → misplacedElse? o = none
  | some (.ifThen c body _ otherwise _), ⟨_, h⟩ =>
    orElse_none (c.misplaced?_eq_none h.1) (orElse_none h.2.2.1.misplaced?
      (orElse_none (misplacedAny?_eq_none body h.2.1) (misplacedElse?_eq_none otherwise h.2.2.2)))
  | some (.block body _), ⟨_, h⟩ => misplacedAny?_eq_none body h
  | some (.var _), _ | some (.assign ..), _ | some (.call ..), _ | some (.whileDo ..), _
  | some (.breakLoop _), _ | some (.continueLoop _), _ | some (.label ..), _ | some (.goto ..), _
  | some (.foreign _), _ | none, _ => rfl

theorem Stmt.misplacedAny?_eq_none : (ss : List Stmt) → AreWellFormed ss → misplacedAny? ss = none
  | [], _ => rfl
  | s :: ss, h => orElse_none (s.misplaced?_eq_none h.1) (misplacedAny?_eq_none ss h.2)

end

theorem Decl.misplaced?_eq_none (d : Decl) (h : d.IsWellFormed) : d.misplaced? = none := by
  cases d with
  | const d => exact d.value.misplaced?_eq_none h.2.2
  | var d => exact d.type.misplaced?_eq_none h.2
  | struct d =>
    refine List.findSome?_eq_none_iff.mpr fun m hm => ?_
    obtain ⟨field, rfl, hf⟩ := h.2.2 m hm
    exact field.type.misplaced?_eq_none hf.2
  | func d =>
    obtain ⟨-, hr, hp, hb, ht⟩ := h
    have hparams : d.params.findSome? (·.misplaced?) = none := by
      refine List.findSome?_eq_none_iff.mpr fun m hm => ?_
      obtain ⟨param, rfl, hparam⟩ := hp m hm
      exact param.type.misplaced?_eq_none hparam.2
    exact orElse_none hparams (orElse_none (d.result.misplaced?_eq_none hr)
      (orElse_none ht.misplaced? (Stmt.misplacedAny?_eq_none d.body hb)))
  | foreign n => exact h.elim

/-- A well-formed unit has a source. -/
theorem Program.IsWellFormed.source? {p : Program} (h : p.IsWellFormed) : p.source? = .ok p.source := by
  have hm : p.misplaced? = none := List.findSome?_eq_none_iff.mpr fun d hd => d.misplaced?_eq_none (h d hd)
  rw [Program.source?, hm]
  rfl

end FlatScope
