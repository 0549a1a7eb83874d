/-
  The same labels. Where neither names nor places change, nothing does. So what resolving finds out in one catalog it finds
  out in every other one that gives the same answers (`Catalog.Agrees`), whatever the order of its symbols and the scopes
  that are finished: the value of a constant, the fields of a struct and its cycles, a type, a signature, and all that
  comes of a body (`Catalog.Agrees.resolveBody`).
-/
import FlatScope.Proofs.Relabeling.Body
import FlatScope.Proofs.Relabeling.Global
import FlatScope.Proofs.Relabeling.Places

namespace FlatScope

/-- Everything keeps its name and its place. -/
def Relabeling.same : Relabeling := placing id rfl

/-! ## What is in the same labels is the same -/

theorem Symbol.relabel_same (s : Symbol) : s.relabel .same = s := by
  obtain ⟨name, kind, level, ty, span, owner, value, order⟩ := s
  simp only [relabel, Relabeling.same, Ty.map_relabel_placing, Relabeling.map_name_placing]
  rfl

theorem Symbol.map_relabel_same (s : Option Symbol) : s.map (relabel .same) = s := by
  cases s with
  | none => rfl
  | some s => rw [Option.map_some, relabel_same]

theorem StructInfo.relabel_same (s : StructInfo) : s.relabel .same = s := by
  obtain ⟨name, fields, span, isComplete⟩ := s
  have hfields : fields.map (fun f => (Relabeling.same.name f.1, f.2.relabel .same)) = fields := by
    refine (List.map_congr_left fun f _ => ?_).trans (List.map_id fields)
    rw [Relabeling.same, Ty.relabel_placing]
    rfl
  rw [relabel, hfields]
  rfl

theorem LocalScope.relabel_same (s : LocalScope) : s.relabel .same = s := by
  obtain ⟨function, symbols⟩ := s
  rw [relabel, List.map_congr_left fun s _ => s.relabel_same, List.map_id']
  rfl

theorem Foreign.relabel_same (n : Foreign) : n.relabel .same = n := by
  rw [Relabeling.same, relabel_placing, Option.map_id_apply]

theorem Info.relabel_same (i : Info) : i.relabel .same = i := by
  rw [relabel, Relabeling.same, Ty.map_relabel_placing]
  rfl

mutual

theorem TypeExpr.relabel_same : (t : TypeExpr) → t.relabel .same = t
  | .named .. => rfl
  | .pointer e _ => by rw [relabel, relabel_same e]; rfl
  | .array e size _ => by rw [relabel, relabel_same e, Relabeling.same, size.relabel_placing]; rfl
  | .func r ps _ => by rw [relabel, relabel_same r, relabelAll_same ps]; rfl
  | .foreign n => by rw [relabel, n.relabel_same]

theorem TypeExpr.relabelAll_same : (ts : List TypeExpr) → relabelAll .same ts = ts
  | [] => rfl
  | t :: ts => by rw [relabelAll, relabel_same t, relabelAll_same ts]

end

mutual

theorem Expr.relabel_same : (e : Expr) → e.relabel .same = e
  | .int _ i | .real _ i | .byte _ i => by rw [relabel, i.relabel_same]
  | .ident name s i => by rw [relabel, Symbol.map_relabel_same, i.relabel_same]; rfl
  | .index b e i => by rw [relabel, relabel_same b, relabel_same e, i.relabel_same]
  | .field b _ i => by rw [relabel, relabel_same b, i.relabel_same]; rfl
  | .call c args i => by rw [relabel, relabel_same c, relabelAll_same args, i.relabel_same]
  | .composite es i => by rw [relabel, relabelAll_same es, i.relabel_same]
  | .addrOf e i => by rw [relabel, relabel_same e, i.relabel_same]
  | .typeArg t i => by rw [relabel, t.relabel_same, i.relabel_same]
  | .foreign n => by rw [relabel, n.relabel_same]

theorem Expr.relabelAll_same : (es : List Expr) → relabelAll .same es = es
  | [] => rfl
  | e :: es => by rw [relabelAll, relabel_same e, relabelAll_same es]

end

theorem VarDecl.relabel_same (d : VarDecl) : d.relabel .same = d := by
  rw [relabel, d.type.relabel_same]
  rfl

theorem Braces.relabel_same (b : Braces) : b.relabel .same = b := by
  cases b with
  | around _ => rfl
  | missing n => rw [relabel, n.relabel_same]

mutual

theorem Stmt.relabel_same : (s : Stmt) → s.relabel .same = s
  | .var d => by rw [relabel, d.relabel_same]
  | .assign t v _ => by rw [relabel, t.relabel_same, v.relabel_same]; rfl
  | .call c _ => by rw [relabel, c.relabel_same]; rfl
  | .ifThen c body braces otherwise _ => by
    rw [relabel, c.relabel_same, relabelAll_same body, braces.relabel_same, relabelElse_same otherwise]
    rfl
  | .whileDo c body braces _ => by
    rw [relabel, c.relabel_same, relabelAll_same body, braces.relabel_same]
    rfl
  | .breakLoop _ | .continueLoop _ | .label .. | .goto .. => rfl
  | .block body _ => by rw [relabel, relabelAll_same body]; rfl
  | .foreign n => by rw [relabel, n.relabel_same]

theorem Stmt.relabelElse_same : (o : Option Stmt) → relabelElse .same o = o
  | none => rfl
  | some s => by rw [relabelElse, relabel_same s]

theorem Stmt.relabelAll_same : (ss : List Stmt) → relabelAll .same ss = ss
  | [] => rfl
  | s :: ss => by rw [relabelAll, relabel_same s, relabelAll_same ss]

end

theorem Member.relabel_same (m : Member) : m.relabel .same = m := by
  cases m with
  | var d => rw [relabel, d.relabel_same]
  | param d =>
    rw [relabel, Param.relabel, d.type.relabel_same]
    rfl
  | foreign n t =>
    cases t with
    | none => rw [relabel, n.relabel_same, Option.map_none]
    | some t => rw [relabel, n.relabel_same, Option.map_some, t.relabel_same]

theorem Member.map_relabel_same (ms : List Member) : ms.map (relabel .same) = ms :=
  (List.map_congr_left fun m _ => m.relabel_same).trans (List.map_id ms)

theorem FuncDecl.relabel_same (d : FuncDecl) : d.relabel .same = d := by
  rw [relabel, d.result.relabel_same, Member.map_relabel_same, Stmt.relabelAll_same, d.braces.relabel_same]
  rfl

theorem Problem.Cause.relabel_same (c : Problem.Cause) : c.relabel .same = c := by
  cases c with
  | duplicate d =>
    obtain ⟨name, previous, function⟩ := d
    rw [relabel, Duplicate.relabel, previous.relabel_same, Relabeling.same, Relabeling.map_name_placing]
    rfl
  | selfContaining struct cycle => exact congrArg (selfContaining struct) (List.map_id cycle)
  | argumentCount callee _ _ => rw [relabel, Relabeling.same, Relabeling.map_name_placing]
  | argumentType callee _ expected actual =>
    rw [relabel, Relabeling.same, Relabeling.map_name_placing, Ty.relabel_placing, Ty.relabel_placing]
  | elementType _ t expected actual =>
    rw [relabel, Relabeling.same, Ty.relabel_placing, Ty.relabel_placing, Ty.relabel_placing]
  | assignedType value target => rw [relabel, Relabeling.same, Ty.relabel_placing, Ty.relabel_placing]
  | notStruct _ t =>
    rw [relabel, Relabeling.same, Ty.relabel_placing]
    rfl
  | indexNotInt t | notIndexed t | notCallable t | freedType t | compositeTarget t | elementCount t _ _
  | conditionType t => rw [relabel, Relabeling.same, Ty.relabel_placing]
  | _ => rfl

theorem Problem.relabel_same (p : Problem) : p.relabel .same = p := by
  rw [relabel, p.cause.relabel_same]
  rfl

theorem Problem.map_relabel_same (p : Option Problem) : p.map (relabel .same) = p := by
  cases p with
  | none => rfl
  | some p => rw [Option.map_some, relabel_same]

theorem Entered.relabel_same (e : Entered) : e.relabel .same = e := by
  rw [relabel, e.scope.relabel_same, ← Stmt.relabelAll_eq_map, Stmt.relabelAll_same, Problem.map_relabel_same]

/-! ## Catalogs that give the same answers -/

namespace Catalog

/-- A catalog answers what another one answers. -/
structure Agrees (c c' : Catalog) : Prop where
  globals : ∀ name, c'.lookupGlobal name = c.lookupGlobal name
  structs : ∀ name, c'.struct? name = c.struct? name
  current : c'.current = c.current

namespace Agrees

variable {c c' : Catalog} (h : c.Agrees c')
include h

theorem mirrors : c.Mirrors .same c' where
  globals name := by
    rw [Symbol.map_relabel_same]
    exact h.globals name
  structs name := by
    rw [show StructInfo.relabel .same = id from funext StructInfo.relabel_same, Option.map_id_apply]
    exact h.structs name
  current := by
    rw [show LocalScope.relabel .same = id from funext LocalScope.relabel_same, Option.map_id_apply]
    exact h.current

theorem initializer (d : ConstDecl) : d.initializer c' = d.initializer c := by
  obtain ⟨name, value, span⟩ := d
  cases value with
  | ident name symbol info => simp only [ConstDecl.initializer, h.globals]
  | _ => rfl

theorem cycle? (name : String) : c'.cycle? name = c.cycle? name := by
  have hcycle := h.mirrors.cycle? name
  rwa [show Relabeling.same.name = id from rfl, List.map_id_fun, Option.map_id_apply] at hcycle

theorem resolveBody (b : Builtins) (s : Signature) (d : FuncDecl) : d.resolveBody b c' s = d.resolveBody b c s := by
  have hbody := FuncDecl.resolveBody_relabel (φ := .same) (b.lookup_placing id rfl) h.mirrors s d
  rw [d.relabel_same, Relabeling.same, s.relabel_placing] at hbody
  rw [hbody]
  cases d.resolveBody b c s with
  | error m => rfl
  | ok r => exact congrArg Except.ok (Prod.ext r.1.relabel_same r.2.relabel_same)

end Agrees

end Catalog

end FlatScope
