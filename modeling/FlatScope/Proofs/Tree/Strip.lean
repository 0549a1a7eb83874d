/-
  Trees without places. `strip` takes every place out of a tree and, unless it is told to keep them, the notes that
  resolving writes down; `bare` is what is left without either, and two trees are the same as far as a user can
  see them if they are alike when bare. Stripping twice is stripping once, and the source of a tree shows neither
  places nor notes (`Program.source_strip`).
-/
import FlatScope.Tree.Source

namespace FlatScope

/-- A symbol that is declared nowhere in particular. -/
def Symbol.unplaced (s : Symbol) : Symbol := { s with span := {} }

/-- A leaf of another class that is nowhere in particular, if it can be somewhere. -/
def Foreign.unplaced (n : Foreign) : Foreign := { n with span := n.span.map fun _ => {} }

/-- A note, if notes are kept. -/
def kept {α : Type} (keep : Bool) (note : Option α) : Option α := if keep then note else none

/-- What an expression carries, without its place. -/
def Info.strip (keep : Bool) (i : Info) : Info := { ty := kept keep i.ty }

namespace TypeExpr

mutual

/-- A type without places. -/
def unplaced : TypeExpr → TypeExpr
  | .named name _ => .named name {}
  | .pointer e _ => .pointer e.unplaced {}
  | .array e size _ => .array e.unplaced size {}
  | .func r ps _ => .func r.unplaced (unplacedAll ps) {}
  | .foreign n => .foreign n.unplaced

def unplacedAll : List TypeExpr → List TypeExpr
  | [] => []
  | t :: ts => t.unplaced :: unplacedAll ts

end

end TypeExpr

namespace Expr

mutual

/-- An expression without places. -/
def strip (keep : Bool) : Expr → Expr
  | .int n i => .int n (i.strip keep)
  | .real x i => .real x (i.strip keep)
  | .byte n i => .byte n (i.strip keep)
  | .ident name s i => .ident name (kept keep (s.map Symbol.unplaced)) (i.strip keep)
  | .index b e i => .index (b.strip keep) (e.strip keep) (i.strip keep)
  | .field b name i => .field (b.strip keep) name (i.strip keep)
  | .call c args i => .call (c.strip keep) (stripAll keep args) (i.strip keep)
  | .composite es i => .composite (stripAll keep es) (i.strip keep)
  | .addrOf e i => .addrOf (e.strip keep) (i.strip keep)
  | .typeArg t i => .typeArg t.unplaced (i.strip keep)
  | .foreign n => .foreign n.unplaced

def stripAll (keep : Bool) : List Expr → List Expr
  | [] => []
  | e :: es => e.strip keep :: stripAll keep es

end

end Expr

def VarDecl.strip (d : VarDecl) : VarDecl := { name := d.name, type := d.type.unplaced }

def Braces.strip : Braces → Braces
  | around _ => around {}
  | missing n => missing n.unplaced

namespace Stmt

mutual

/-- A statement without places. -/
def strip (keep : Bool) : Stmt → Stmt
  | .var d => .var d.strip
  | .assign t v _ => .assign (t.strip keep) (v.strip keep) {}
  | .call c _ => .call (c.strip keep) {}
  | .ifThen c body braces otherwise _ =>
    .ifThen (c.strip keep) (stripAll keep body) braces.strip (stripElse keep otherwise) {}
  | .whileDo c body braces _ => .whileDo (c.strip keep) (stripAll keep body) braces.strip {}
  | .breakLoop _ => .breakLoop {}
  | .continueLoop _ => .continueLoop {}
  | .label name index _ => .label name (kept keep index) {}
  | .goto name target _ => .goto name (kept keep target) {}
  | .block body _ => .block (stripAll keep body) {}
  | .foreign n => .foreign n.unplaced

def stripElse (keep : Bool) : Option Stmt → Option Stmt
  | some s => some (s.strip keep)
  | none => none

def stripAll (keep : Bool) : List Stmt → List Stmt
  | [] => []
  | s :: ss => s.strip keep :: stripAll keep ss

end

end Stmt

def ConstDecl.strip (keep : Bool) (d : ConstDecl) : ConstDecl := { name := d.name, value := d.value.strip keep }

def Param.strip (d : Param) : Param := { name := d.name, type := d.type.unplaced }

def Member.strip : Member → Member
  | var d => var d.strip
  | param d => param d.strip
  | foreign n t => foreign n.unplaced (t.map TypeExpr.unplaced)

def StructDecl.strip (d : StructDecl) : StructDecl := { name := d.name, fields := d.fields.map Member.strip }

def FuncDecl.strip (keep : Bool) (d : FuncDecl) : FuncDecl where
  name := d.name
  result := d.result.unplaced
  params := d.params.map Member.strip
  body := Stmt.stripAll keep d.body
  braces := d.braces.strip

/-- A declaration without places. -/
def Decl.strip (keep : Bool) : Decl → Decl
  | const d => const (d.strip keep)
  | var d => var d.strip
  | struct d => struct d.strip
  | func d => func (d.strip keep)
  | foreign n => foreign n.unplaced

/-- A unit without places. -/
def Program.strip (keep : Bool) (p : Program) : Program := { decls := p.decls.map (Decl.strip keep) }

/-! ## Bare trees -/

abbrev Expr.bare : Expr → Expr := Expr.strip false

abbrev Stmt.bare : Stmt → Stmt := Stmt.strip false

abbrev Decl.bare : Decl → Decl := Decl.strip false

/-- A unit without places and notes. -/
abbrev Program.bare : Program → Program := Program.strip false

/-! ## Lists -/

theorem TypeExpr.unplacedAll_eq_map (ts : List TypeExpr) : unplacedAll ts = ts.map unplaced := by
  induction ts with
  | nil => rfl
  | cons t ts ih => rw [unplacedAll, ih, List.map_cons]

theorem Expr.stripAll_eq_map (keep : Bool) (es : List Expr) : stripAll keep es = es.map (strip keep) := by
  induction es with
  | nil => rfl
  | cons e es ih => rw [stripAll, ih, List.map_cons]

theorem Stmt.stripAll_eq_map (keep : Bool) (ss : List Stmt) : stripAll keep ss = ss.map (strip keep) := by
  induction ss with
  | nil => rfl
  | cons s ss ih => rw [stripAll, ih, List.map_cons]

/-! ## Stripping twice -/

theorem Foreign.unplaced_unplaced (n : Foreign) : n.unplaced.unplaced = n.unplaced := by
  simp only [unplaced, Option.map_map]
  rfl

theorem kept_kept {α : Type} (a b : Bool) (note : Option α) : kept a (kept b note) = kept (a && b) note := by
  cases a <;> cases b <;> rfl

theorem kept_map {α β : Type} (keep : Bool) (f : α → β) (note : Option α) :
    kept keep (note.map f) = (kept keep note).map f := by
  cases keep <;> rfl

theorem Info.strip_strip (a b : Bool) (i : Info) : (i.strip b).strip a = i.strip (a && b) := by
  rw [strip, strip, kept_kept, strip]

mutual

theorem TypeExpr.unplaced_unplaced : (t : TypeExpr) → t.unplaced.unplaced = t.unplaced
  | .named .. => rfl
  | .pointer e _ => by simp only [unplaced, e.unplaced_unplaced]
  | .array e _ _ => by simp only [unplaced, e.unplaced_unplaced]
  | .func r ps _ => by simp only [unplaced, r.unplaced_unplaced, unplacedAll_unplacedAll ps]
  | .foreign n => by simp only [unplaced, n.unplaced_unplaced]

theorem TypeExpr.unplacedAll_unplacedAll : (ts : List TypeExpr) → unplacedAll (unplacedAll ts) = unplacedAll ts
  | [] => rfl
  | t :: ts => by simp only [unplacedAll, t.unplaced_unplaced, unplacedAll_unplacedAll ts]

end

mutual

theorem Expr.strip_strip (a b : Bool) : (e : Expr) → (e.strip b).strip a = e.strip (a && b)
  | .int .. | .real .. | .byte .. => by simp only [strip, Info.strip_strip]
  | .ident name s i => by
    simp only [strip, Info.strip_strip, ← kept_map, kept_kept, Option.map_map]
    rfl
  | .index base e i => by simp only [strip, base.strip_strip, e.strip_strip, Info.strip_strip]
  | .field base name i => by simp only [strip, base.strip_strip, Info.strip_strip]
  | .call c args i => by simp only [strip, c.strip_strip, stripAll_stripAll a b args, Info.strip_strip]
  | .composite es i => by simp only [strip, stripAll_stripAll a b es, Info.strip_strip]
  | .addrOf e i => by simp only [strip, e.strip_strip, Info.strip_strip]
  | .typeArg t i => by simp only [strip, t.unplaced_unplaced, Info.strip_strip]
  | .foreign n => by simp only [strip, n.unplaced_unplaced]

theorem Expr.stripAll_stripAll (a b : Bool) : (es : List Expr) →
    stripAll a (stripAll b es) = stripAll (a && b) es
  | [] => rfl
  | e :: es => by simp only [stripAll, e.strip_strip, stripAll_stripAll a b es]

end

theorem VarDecl.strip_strip (d : VarDecl) : d.strip.strip = d.strip := by
  simp only [strip, d.type.unplaced_unplaced]

theorem Braces.strip_strip (b : Braces) : b.strip.strip = b.strip := by
  cases b with
  | around span => rfl
  | missing n => simp only [strip, n.unplaced_unplaced]

mutual

theorem Stmt.strip_strip (a b : Bool) : (s : Stmt) → (s.strip b).strip a = s.strip (a && b)
  | .var d => by simp only [strip, d.strip_strip]
  | .assign t v _ => by simp only [strip, t.strip_strip, v.strip_strip]
  | .call c _ => by simp only [strip, c.strip_strip]
  | .ifThen c body braces otherwise _ => by
    simp only [strip, c.strip_strip, stripAll_stripAll a b body, braces.strip_strip, stripElse_stripElse a b otherwise]
  | .whileDo c body braces _ => by
    simp only [strip, c.strip_strip, stripAll_stripAll a b body, braces.strip_strip]
  | .breakLoop _ | .continueLoop _ => rfl
  | .label .. | .goto .. => by simp only [strip, kept_kept]
  | .block body _ => by simp only [strip, stripAll_stripAll a b body]
  | .foreign n => by simp only [strip, n.unplaced_unplaced]

theorem Stmt.stripElse_stripElse (a b : Bool) : (o : Option Stmt) →
    stripElse a (stripElse b o) = stripElse (a && b) o
  | none => rfl
  | some s => by simp only [stripElse, s.strip_strip]

theorem Stmt.stripAll_stripAll (a b : Bool) : (ss : List Stmt) → stripAll a (stripAll b ss) = stripAll (a && b) ss
  | [] => rfl
  | s :: ss => by simp only [stripAll, s.strip_strip, stripAll_stripAll a b ss]

end

theorem Param.strip_strip (d : Param) : d.strip.strip = d.strip := by
  simp only [strip, d.type.unplaced_unplaced]

theorem Member.strip_strip (m : Member) : m.strip.strip = m.strip := by
  cases m with
  | var d => simp only [strip, d.strip_strip]
  | param d => simp only [strip, d.strip_strip]
  | foreign n t =>
    cases t with
    | none => simp only [strip, n.unplaced_unplaced, Option.map_none]
    | some t => simp only [strip, n.unplaced_unplaced, Option.map_some, t.unplaced_unplaced]

theorem Member.map_strip_strip (ms : List Member) : (ms.map strip).map strip = ms.map strip := by
  rw [List.map_map]
  exact List.map_congr_left fun m _ => m.strip_strip

theorem ConstDecl.strip_strip (a b : Bool) (d : ConstDecl) : (d.strip b).strip a = d.strip (a && b) := by
  simp only [strip, d.value.strip_strip]

theorem StructDecl.strip_strip (d : StructDecl) : d.strip.strip = d.strip := by
  simp only [strip, Member.map_strip_strip]

theorem FuncDecl.strip_strip (a b : Bool) (d : FuncDecl) : (d.strip b).strip a = d.strip (a && b) := by
  simp only [strip, d.result.unplaced_unplaced, Member.map_strip_strip, Stmt.stripAll_stripAll, d.braces.strip_strip]

theorem Decl.strip_strip (a b : Bool) (d : Decl) : (d.strip b).strip a = d.strip (a && b) := by
  cases d with
  | const d => simp only [strip, d.strip_strip]
  | var d => simp only [strip, d.strip_strip]
  | struct d => simp only [strip, d.strip_strip]
  | func d => simp only [strip, d.strip_strip]
  | foreign n => simp only [strip, n.unplaced_unplaced]

/-! ## Sources -/

mutual

theorem TypeExpr.source_unplaced : (t : TypeExpr) → t.unplaced.source = t.source
  | .named .. | .foreign _ => rfl
  | .pointer e _ => by rw [unplaced, source, source, e.source_unplaced]
  | .array e _ _ => by rw [unplaced, source, source, e.source_unplaced]
  | .func r ps _ => by rw [unplaced, source, source, r.source_unplaced, sources_unplacedAll ps]

theorem TypeExpr.sources_unplacedAll : (ts : List TypeExpr) → sources (unplacedAll ts) = sources ts
  | [] => rfl
  | t :: ts => by rw [unplacedAll, sources, sources, t.source_unplaced, sources_unplacedAll ts]

end

mutual

theorem Expr.source_strip (keep : Bool) : (e : Expr) → (e.strip keep).source = e.source
  | .int .. | .real .. | .byte .. | .ident .. | .foreign _ => rfl
  | .index b i _ => by rw [strip, source, source, b.source_strip, i.source_strip]
  | .field b _ _ => by rw [strip, source, source, b.source_strip]
  | .call c args _ => by rw [strip, source, source, c.source_strip, sources_stripAll keep args]
  | .composite es _ => by rw [strip, source, source, sources_stripAll keep es]
  | .addrOf t _ => by rw [strip, source, source, t.source_strip]
  | .typeArg t _ => by rw [strip, source, source, t.source_unplaced]

theorem Expr.sources_stripAll (keep : Bool) : (es : List Expr) → sources (stripAll keep es) = sources es
  | [] => rfl
  | e :: es => by rw [stripAll, sources, sources, e.source_strip, sources_stripAll keep es]

end

theorem VarDecl.source_strip (d : VarDecl) : d.strip.source = d.source := by
  rw [source, source, strip, d.type.source_unplaced]

mutual

theorem Stmt.lines_strip (keep : Bool) (depth : Nat) : (s : Stmt) → (s.strip keep).lines depth = s.lines depth
  | .var d => by rw [strip, lines, lines, d.source_strip]
  | .assign t v _ => by rw [strip, lines, lines, t.source_strip, v.source_strip]
  | .call c _ => by rw [strip, lines, lines, c.source_strip]
  | .ifThen c body _ otherwise _ => by
    rw [strip, lines, lines, c.source_strip, linesAll_stripAll keep (depth + 1) body,
      elseLines_stripElse keep depth otherwise]
  | .whileDo c body _ _ => by
    rw [strip, lines, lines, c.source_strip, linesAll_stripAll keep (depth + 1) body]
  | .breakLoop _ | .continueLoop _ | .label .. | .goto .. | .foreign _ => rfl
  | .block body _ => by rw [strip, lines, lines, linesAll_stripAll keep (depth + 1) body]

theorem Stmt.elseLines_stripElse (keep : Bool) (depth : Nat) : (o : Option Stmt) →
    elseLines depth (stripElse keep o) = elseLines depth o
  | some (.ifThen c body _ otherwise _) => by
    rw [stripElse, strip, elseLines, elseLines, c.source_strip, linesAll_stripAll keep (depth + 1) body,
      elseLines_stripElse keep depth otherwise]
  | some (.block body _) => by
    rw [stripElse, strip, elseLines, elseLines, linesAll_stripAll keep (depth + 1) body]
  | some (.var _) | some (.assign ..) | some (.call ..) | some (.whileDo ..) | some (.breakLoop _)
  | some (.continueLoop _) | some (.label ..) | some (.goto ..) | some (.foreign _) | none => rfl

theorem Stmt.linesAll_stripAll (keep : Bool) (depth : Nat) : (ss : List Stmt) →
    linesAll depth (stripAll keep ss) = linesAll depth ss
  | [] => rfl
  | s :: ss => by rw [stripAll, linesAll, linesAll, s.lines_strip keep depth, linesAll_stripAll keep depth ss]

end

theorem Member.source_strip (m : Member) : m.strip.source = m.source := by
  cases m with
  | var d => exact d.source_strip
  | param d => rw [strip, source, source, Param.source, Param.source, Param.strip, d.type.source_unplaced]
  | foreign n t => rfl

theorem Member.map_source_strip (ms : List Member) : (ms.map strip).map source = ms.map source := by
  rw [List.map_map]
  exact List.map_congr_left fun m _ => m.source_strip

theorem Decl.lines_strip (keep : Bool) (d : Decl) : (d.strip keep).lines = d.lines := by
  cases d with
  | const d => rw [strip, lines, lines, ConstDecl.strip, d.value.source_strip]
  | var d => rw [strip, lines, lines, d.source_strip]
  | struct d =>
    rw [strip, lines, lines, StructDecl.strip]
    exact congrArg (fun l => ["struct " ++ d.name ++ " [" ++ ", ".intercalate l ++ "]"]) (Member.map_source_strip d.fields)
  | func d =>
    rw [strip, lines, lines, FuncDecl.strip]
    dsimp only
    rw [d.result.source_unplaced, Stmt.linesAll_stripAll, Member.map_source_strip]
  | foreign n => rfl

theorem Decl.linesAfter_strip (keep : Bool) (before : List String) (d : Decl) :
    (d.strip keep).linesAfter before = d.linesAfter before := by
  have hl := d.lines_strip keep
  cases d with
  | const d | var d | struct d | foreign n => exact hl
  | func d =>
    show (if before.isEmpty then (Decl.strip keep (.func d)).lines else "" :: (Decl.strip keep (.func d)).lines) = _
    rw [hl]
    rfl

/-- The source of a unit shows neither places nor notes. -/
theorem Program.source_strip (keep : Bool) (p : Program) : (p.strip keep).source = p.source := by
  rw [source, source, lines, lines, strip, List.foldl_map]
  simp only [Decl.linesAfter_strip]

end FlatScope
