/-
  What a check leaves of an expression reads like the expression (`Expr.isKept`). Whatever may become of it is written the
  same and stands at the same place (`Expr.Becomes.keeps`); a name is the same name, and a call is a call. Where the first
  operand of an allocation turns from an expression into a type, the type is written like the expression that spells it.
-/
import FlatScope.Proofs.Resolution.Placed
import FlatScope.Proofs.Rewriting.Expr
import Mathlib.Data.List.Forall2

namespace FlatScope

namespace Expr

/-- An expression reads the same as another one at its place. -/
structure ReadsAs (e e' : Expr) : Prop where
  span : e'.span = e.span
  source : e'.source = e.source
  placed : e.misplaced? = none → e'.misplaced? = none

/-- An expression reads the same as another one, and is one of the same sort. -/
structure Keeps (e e' : Expr) : Prop extends ReadsAs e e' where
  ident : e'.ident? = e.ident?
  rootName : e'.root.rootName = e.root.rootName
  isCall : e'.isCall = e.isCall

/-- An expression is kept by every check of it, and also where its replacement is not used. -/
structure IsKept (site : Site) (e : Expr) : Prop where
  after : ∀ context, e.Keeps ((e.check site context).after Prod.fst)
  behind : ∀ context e' t, e.check site context = .ok (e', t) → e.Keeps (leftBehind e e')

/-! ## Reading the same -/

attribute [local simp] source sources

theorem ReadsAs.refl (e : Expr) : e.ReadsAs e := ⟨rfl, rfl, id⟩

theorem Keeps.refl (e : Expr) : e.Keeps e := ⟨.refl e, rfl, rfl, rfl⟩

theorem sources_eq {es es' : List Expr} (h : List.Forall₂ ReadsAs es es') : sources es' = sources es := by
  induction h with
  | nil => rfl
  | cons he _ ih => rw [sources, sources, he.source, ih]

theorem misplacedAny?_eq {es es' : List Expr} (h : List.Forall₂ ReadsAs es es') (hm : misplacedAny? es = none) :
    misplacedAny? es' = none := by
  induction h with
  | nil => rfl
  | cons he _ ih =>
    obtain ⟨hm, hms⟩ := orElse_eq_none_iff.mp hm
    exact orElse_none (he.placed hm) (ih hms)

variable {base base' i i' : Expr} {info info' : Info}

theorem Keeps.index (hb : base.Keeps base') (hi : i.ReadsAs i') (hs : info'.span = info.span) :
    (Expr.index base i info).Keeps (.index base' i' info') where
  span := hs
  source := by rw [Expr.source, Expr.source, hb.source, hi.source]
  placed h := orElse_none (hb.placed (orElse_eq_none_iff.mp h).1) (hi.placed (orElse_eq_none_iff.mp h).2)
  ident := rfl
  rootName := hb.rootName
  isCall := rfl

/-- An index that becomes a field is written as before. -/
theorem Keeps.selected (hb : base.Keeps base') {name : String} (hi : i.ident? = some name) (hs : info'.span = info.span) :
    (Expr.index base i info).Keeps (.field base' name info') where
  span := hs
  source := by
    cases i
    case ident name' symbol info =>
      obtain rfl := Option.some.inj hi
      simp only [Expr.source, hb.source]
    all_goals cases hi
  placed h := hb.placed (orElse_eq_none_iff.mp h).1
  ident := rfl
  rootName := hb.rootName
  isCall := rfl

theorem Keeps.field (hb : base.Keeps base') {name : String} (hs : info'.span = info.span) :
    (Expr.field base name info).Keeps (.field base' name info') where
  span := hs
  source := by rw [Expr.source, Expr.source, hb.source]
  placed := hb.placed
  ident := rfl
  rootName := hb.rootName
  isCall := rfl

theorem Keeps.call (hb : base.ReadsAs base') {args args' : List Expr} (ha : List.Forall₂ ReadsAs args args')
    (hs : info'.span = info.span) : (Expr.call base args info).Keeps (.call base' args' info') where
  span := hs
  source := by rw [Expr.source, Expr.source, hb.source, sources_eq ha]
  placed h := orElse_none (misplacedAny?_eq ha (orElse_eq_none_iff.mp h).1) (hb.placed (orElse_eq_none_iff.mp h).2)
  ident := rfl
  rootName := rfl
  isCall := rfl

theorem Keeps.composite {es es' : List Expr} (h : List.Forall₂ ReadsAs es es') (hs : info'.span = info.span) :
    (Expr.composite es info).Keeps (.composite es' info') where
  span := hs
  source := by rw [Expr.source, Expr.source, sources_eq h]
  placed := misplacedAny?_eq h
  ident := rfl
  rootName := rfl
  isCall := rfl

theorem Keeps.addrOf (hb : base.ReadsAs base') (hs : info'.span = info.span) :
    (Expr.addrOf base info).Keeps (.addrOf base' info') where
  span := hs
  source := by rw [Expr.source, Expr.source, hb.source]
  placed := hb.placed
  ident := rfl
  rootName := rfl
  isCall := rfl

/-! ## Types that are spelled -/

theorem size?_source {size : ArraySize} (h : i.size? = some size) : size.source = i.source := by
  cases i
  case int | ident =>
    obtain rfl := Option.some.inj h
    rfl
  all_goals cases h

/-- A type is written like the expression that spells it. -/
theorem asType?_source : (e : Expr) → {w : TypeExpr} → e.asType? = some w → w.source = e.source
  | .ident .., _, h => by
    obtain rfl := Option.some.inj h
    rfl
  | .index base i _, _, h => by
    obtain ⟨element, helement, h⟩ := Option.bind_eq_some_iff.mp h
    obtain ⟨size, hsize, h⟩ := Option.bind_eq_some_iff.mp h
    obtain rfl := Option.some.inj h
    rw [TypeExpr.source, source, base.asType?_source helement, size?_source hsize]
  | .int .., _, h | .real .., _, h | .byte .., _, h | .field .., _, h | .call .., _, h | .composite .., _, h
  | .addrOf .., _, h | .typeArg .., _, h | .foreign _, _, h => nomatch h

theorem ReadsAs.spelled {e : Expr} {w : TypeExpr} (h : e.asType? = some w) (hs : info.span = e.span) :
    e.ReadsAs (.typeArg w info) where
  span := hs
  source := asType?_source e h
  placed _ := misplaced?_asType? e h

/-! ## All expressions -/

mutual

/-- What may become of an expression reads like the expression. -/
theorem Becomes.keeps : {e e' : Expr} → e.Becomes e' → e.Keeps e'
  | _, _, .int hs | _, _, .real hs | _, _, .byte hs | _, _, .ident hs | _, _, .typeArg hs => ⟨⟨hs, rfl, id⟩, rfl, rfl, rfl⟩
  | _, _, .index hb hi hs => .index hb.keeps hi.keeps.toReadsAs hs
  | _, _, .selected hb hs => .selected hb.keeps rfl hs
  | _, _, .field hb hs => .field hb.keeps hs
  | _, _, .call hc ha hs => .call hc.keeps.toReadsAs ha.readAs hs
  | _, _, .composite h hs => .composite h.readAs hs
  | _, _, .addrOf ht hs => .addrOf ht.keeps.toReadsAs hs
  | _, _, .foreign => .refl _

theorem OperandsBecome.readAs : {isAllocation : Bool} → {es es' : List Expr} → OperandsBecome isAllocation es es' →
    List.Forall₂ ReadsAs es es'
  | _, _, _, .nil => .nil
  | _, _, _, .cons he hes => .cons he.keeps.toReadsAs hes.readAs
  | _, _, _, .spelled hw hs hes => .cons (.spelled hw hs) hes.readAs

end

/-- What a check leaves of an expression reads like the expression. -/
theorem isKept (site : Site) (e : Expr) : e.IsKept site where
  after context := ((e.isTraced site).after context).keeps
  behind context e' t h := ((e.isTraced site).behind context e' t h).keeps

end Expr

end FlatScope
