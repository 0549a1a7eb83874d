/-
  Labels that keep the names. Where only places change, types stay as they are, and to take every place away is to strip a
  tree of its places and keep its notes (`Program.relabel_unplacing`).
-/
import FlatScope.Proofs.Relabeling.Basic
import FlatScope.Proofs.Tree.Strip

namespace FlatScope

namespace Relabeling

/-- Other places for everything that has one, under the same names. -/
def placing (place : Span → Span) (nowhere : place {} = {}) : Relabeling where
  name := id
  place
  injective := Function.injective_id
  reserved _ _ := rfl
  nowhere

/-- Everything is nowhere in particular. -/
def unplacing : Relabeling := placing (fun _ => {}) rfl

end Relabeling

/-! ## Types -/

section
variable {place : Span → Span} {nowhere : place {} = {}}

mutual

theorem Ty.relabel_placing : (t : Ty) → t.relabel (.placing place nowhere) = t
  | .primitive _ | .void => rfl
  | .pointer t => by rw [relabel, relabel_placing t]
  | .array t _ => by rw [relabel, relabel_placing t]
  | .struct _ => rfl
  | .func ps r => by rw [relabel, relabelAll_placing ps, relabel_placing r]

theorem Ty.relabelAll_placing : (ts : List Ty) → relabelAll (.placing place nowhere) ts = ts
  | [] => rfl
  | t :: ts => by rw [relabelAll, relabel_placing t, relabelAll_placing ts]

end

theorem Ty.map_relabel_placing (t : Option Ty) : t.map (Ty.relabel (.placing place nowhere)) = t := by
  cases t with
  | none => rfl
  | some t => rw [Option.map_some, relabel_placing]

theorem Signature.relabel_placing (s : Signature) : s.relabel (.placing place nowhere) = s := by
  obtain ⟨params, result⟩ := s
  rw [relabel, ← Ty.relabelAll_eq_map, Ty.relabelAll_placing, Ty.relabel_placing]

theorem Builtins.lookup_placing (b : Builtins) (place : Span → Span) (nowhere : place {} = {}) (name : String) :
    b.lookup ((Relabeling.placing place nowhere).name name)
      = (b.lookup name).map (Signature.relabel (.placing place nowhere)) := by
  rw [show Signature.relabel (.placing place nowhere) = id from funext Signature.relabel_placing, Option.map_id_apply]
  rfl

theorem Relabeling.map_name_placing (name : Option String) : name.map (placing place nowhere).name = name :=
  Option.map_id_apply

theorem ArraySize.relabel_placing (size : ArraySize) : size.relabel (.placing place nowhere) = size := by
  cases size <;> rfl

theorem Foreign.relabel_placing (n : Foreign) :
    n.relabel (.placing place nowhere) = { n with span := n.span.map place } := by
  rw [relabel, Relabeling.map_name_placing]
  rfl

end

/-! ## Without places -/

theorem Symbol.relabel_unplacing (s : Symbol) : s.relabel .unplacing = s.unplaced := by
  obtain ⟨name, kind, level, ty, span, owner, value, order⟩ := s
  simp only [relabel, unplaced, Relabeling.unplacing, Ty.map_relabel_placing, Relabeling.map_name_placing]
  rfl

theorem Foreign.relabel_unplacing (n : Foreign) : n.relabel .unplacing = n.unplaced := n.relabel_placing

theorem Info.relabel_unplacing (i : Info) : i.relabel .unplacing = i.strip true := by
  rw [relabel, Relabeling.unplacing, Ty.map_relabel_placing]
  rfl

mutual

theorem TypeExpr.relabel_unplacing : (t : TypeExpr) → t.relabel .unplacing = t.unplaced
  | .named .. => rfl
  | .pointer e _ => by rw [relabel, unplaced, relabel_unplacing e]; rfl
  | .array e size _ => by rw [relabel, unplaced, relabel_unplacing e, Relabeling.unplacing, size.relabel_placing]; rfl
  | .func r ps _ => by rw [relabel, unplaced, relabel_unplacing r, relabelAll_unplacing ps]; rfl
  | .foreign n => by rw [relabel, unplaced, n.relabel_unplacing]

theorem TypeExpr.relabelAll_unplacing : (ts : List TypeExpr) → relabelAll .unplacing ts = unplacedAll ts
  | [] => rfl
  | t :: ts => by rw [relabelAll, unplacedAll, relabel_unplacing t, relabelAll_unplacing ts]

end

mutual

theorem Expr.relabel_unplacing : (e : Expr) → e.relabel .unplacing = e.strip true
  | .int _ i | .real _ i | .byte _ i => by rw [relabel, strip, i.relabel_unplacing]
  | .ident name s i => by
    have hs : s.map (Symbol.relabel .unplacing) = s.map Symbol.unplaced :=
      congrArg (s.map ·) (funext Symbol.relabel_unplacing)
    rw [relabel, strip, i.relabel_unplacing, hs]
    rfl
  | .index b e i => by rw [relabel, strip, relabel_unplacing b, relabel_unplacing e, i.relabel_unplacing]
  | .field b _ i => by rw [relabel, strip, relabel_unplacing b, i.relabel_unplacing]; rfl
  | .call c args i => by rw [relabel, strip, relabel_unplacing c, relabelAll_unplacing args, i.relabel_unplacing]
  | .composite es i => by rw [relabel, strip, relabelAll_unplacing es, i.relabel_unplacing]
  | .addrOf e i => by rw [relabel, strip, relabel_unplacing e, i.relabel_unplacing]
  | .typeArg t i => by rw [relabel, strip, t.relabel_unplacing, i.relabel_unplacing]
  | .foreign n => by rw [relabel, strip, n.relabel_unplacing]

theorem Expr.relabelAll_unplacing : (es : List Expr) → relabelAll .unplacing es = stripAll true es
  | [] => rfl
  | e :: es => by rw [relabelAll, stripAll, relabel_unplacing e, relabelAll_unplacing es]

end

theorem VarDecl.relabel_unplacing (d : VarDecl) : d.relabel .unplacing = d.strip := by
  rw [relabel, strip, d.type.relabel_unplacing]
  rfl

theorem Braces.relabel_unplacing (b : Braces) : b.relabel .unplacing = b.strip := by
  cases b with
  | around _ => rfl
  | missing n => rw [relabel, strip, n.relabel_unplacing]

mutual

theorem Stmt.relabel_unplacing : (s : Stmt) → s.relabel .unplacing = s.strip true
  | .var d => by rw [relabel, strip, d.relabel_unplacing]
  | .assign t v _ => by rw [relabel, strip, t.relabel_unplacing, v.relabel_unplacing]; rfl
  | .call c _ => by rw [relabel, strip, c.relabel_unplacing]; rfl
  | .ifThen c body braces otherwise _ => by
    rw [relabel, strip, c.relabel_unplacing, relabelAll_unplacing body, braces.relabel_unplacing,
      relabelElse_unplacing otherwise]
    rfl
  | .whileDo c body braces _ => by
    rw [relabel, strip, c.relabel_unplacing, relabelAll_unplacing body, braces.relabel_unplacing]
    rfl
  | .breakLoop _ | .continueLoop _ | .label .. | .goto .. => rfl
  | .block body _ => by rw [relabel, strip, relabelAll_unplacing body]; rfl
  | .foreign n => by rw [relabel, strip, n.relabel_unplacing]

theorem Stmt.relabelElse_unplacing : (o : Option Stmt) → relabelElse .unplacing o = stripElse true o
  | none => rfl
  | some s => by rw [relabelElse, stripElse, relabel_unplacing s]

theorem Stmt.relabelAll_unplacing : (ss : List Stmt) → relabelAll .unplacing ss = stripAll true ss
  | [] => rfl
  | s :: ss => by rw [relabelAll, stripAll, relabel_unplacing s, relabelAll_unplacing ss]

end

theorem Member.relabel_unplacing (m : Member) : m.relabel .unplacing = m.strip := by
  cases m with
  | var d => rw [relabel, strip, d.relabel_unplacing]
  | param d =>
    rw [relabel, strip, Param.relabel, Param.strip, d.type.relabel_unplacing]
    rfl
  | foreign n t =>
    have ht : t.map (TypeExpr.relabel .unplacing) = t.map TypeExpr.unplaced :=
      congrArg (t.map ·) (funext TypeExpr.relabel_unplacing)
    rw [relabel, strip, n.relabel_unplacing, ht]

theorem Member.map_relabel_unplacing (ms : List Member) : ms.map (relabel .unplacing) = ms.map strip :=
  List.map_congr_left fun m _ => m.relabel_unplacing

theorem Decl.relabel_unplacing (d : Decl) : d.relabel .unplacing = d.strip true := by
  cases d with
  | const d =>
    rw [relabel, strip, ConstDecl.relabel, ConstDecl.strip, d.value.relabel_unplacing]
    rfl
  | var d => rw [relabel, strip, d.relabel_unplacing]
  | struct d =>
    rw [relabel, strip, StructDecl.relabel, StructDecl.strip, Member.map_relabel_unplacing]
    rfl
  | func d =>
    rw [relabel, strip, FuncDecl.relabel, FuncDecl.strip, d.result.relabel_unplacing, Member.map_relabel_unplacing,
      Stmt.relabelAll_unplacing, d.braces.relabel_unplacing]
    rfl
  | foreign n => rw [relabel, strip, n.relabel_unplacing]

/-- A unit whose places are taken away has its notes still. -/
theorem Program.relabel_unplacing (p : Program) : (p.relabel .unplacing).decls = (p.strip true).decls :=
  List.map_congr_left fun d _ => d.relabel_unplacing

end FlatScope
