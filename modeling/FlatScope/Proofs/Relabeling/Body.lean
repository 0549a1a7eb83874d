/-
  Bodies are resolved in other labels as in the old ones (`FuncDecl.resolveBody_relabel`): the same symbols are declared
  in the new labels, and the statements are checked among them (`Stmt.check_relabel`). Numbers of statements and loops
  are the same on both sides.
-/
import FlatScope.Proofs.Relabeling.Expr
import FlatScope.Proofs.Resolution.Body

namespace FlatScope

variable {φ : Relabeling}

/-- Surroundings answer in other labels what other ones answer. -/
structure Surroundings.Mirrors (φ : Relabeling) (s s' : Surroundings) : Prop where
  builtins : ∀ name, s'.builtins.lookup (φ.name name) = (s.builtins.lookup name).map (Signature.relabel φ)
  catalog : s.catalog.Mirrors φ s'.catalog
  function : s'.function = φ.name s.function

/-! ## Simple statements -/

namespace Expr

theorem root_relabel : (e : Expr) → (e.relabel φ).root = e.root.relabel φ
  | .index base _ _ | .field base _ _ => by rw [relabel, root, root, base.root_relabel]
  | .int .. | .real .. | .byte .. | .ident .. | .call .. | .composite .. | .addrOf .. | .typeArg .. | .foreign _ => rfl

theorem rootName_relabel (e : Expr) : (e.relabel φ).rootName = e.rootName.map φ.name := by
  cases e with
  | foreign node =>
    obtain ⟨className, text, name, span⟩ := node
    cases name <;> rfl
  | int _ _ | real _ _ | byte _ _ | ident _ _ _ | index _ _ _ | field _ _ _ | call _ _ _ | composite _ _ | addrOf _ _
  | typeArg _ _ => rfl

end Expr

namespace Site.Mirrors

variable {site site' : Site}

theorem checkTarget (h : site.Mirrors φ site') (target : Expr) :
    site'.checkTarget (target.relabel φ) = φ.checked (Expr.relabel φ) φ.typed (site.checkTarget target) := by
  unfold Site.checkTarget
  rw [Expr.root_relabel, Expr.rootName_relabel, (target.check_relabel h).check_none]
  cases target.root.rootName with
  | error m => rfl
  | ok name =>
    simp only [Except.map, h.lookup]
    cases site.lookup name with
    | none => rfl
    | some s =>
      obtain ⟨_, kind, _, _, _, _, _, _⟩ := s
      cases kind <;>
        simp [Symbol.relabel, Symbol.Kind.isStorage, Option.filter, Relabeling.checked, Problem.Cause.relabel]

theorem checkAssign (h : site.Mirrors φ site') (target value : Expr) (span : Span) :
    site'.checkAssign (target.relabel φ) (value.relabel φ) (φ.place span)
      = φ.checked (Stmt.relabel φ) (Stmt.relabel φ) (site.checkAssign target value span) := by
  unfold Site.checkAssign
  rw [h.checkTarget]
  cases site.checkTarget target with
  | error left => rfl
  | ok r =>
    obtain ⟨target', t⟩ := r
    have hvalue := value.check_relabel h (some t)
    rw [Option.map_some] at hvalue
    simp only [Relabeling.checked, Relabeling.typed, hvalue]
    cases value.check site (some t) with
    | error left => rfl
    | ok r =>
      obtain ⟨value', u⟩ := r
      by_cases hu : u = t
      · simp [hu, Stmt.relabel]
      · simp [hu, Ty.relabel_inj, Stmt.relabel, Problem.Cause.relabel]

theorem checkCall (h : site.Mirrors φ site') (e : Expr) (span : Span) :
    site'.checkCall (e.relabel φ) (φ.place span)
      = φ.checked (Stmt.relabel φ) (Stmt.relabel φ) (site.checkCall e span) := by
  cases e with
  | call callee args info =>
    have hcall := ((Expr.call callee args info).check_relabel h).check_none
    rw [Expr.relabel] at hcall ⊢
    simp only [Site.checkCall, hcall]
    cases (Expr.call callee args info).check site none <;> rfl
  | int _ _ | real _ _ | byte _ _ | ident _ _ _ | index _ _ _ | field _ _ _ | composite _ _ | addrOf _ _ | typeArg _ _
  | foreign _ => rfl

theorem checkCondition (h : site.Mirrors φ site') (e : Expr) :
    site'.checkCondition (e.relabel φ) = φ.checked (Expr.relabel φ) (Expr.relabel φ) (site.checkCondition e) := by
  unfold Site.checkCondition
  rw [(e.check_relabel h).check_none]
  cases e.check site none with
  | error left => rfl
  | ok r =>
    obtain ⟨e', t⟩ := r
    by_cases ht : t = .int
    · simp [Relabeling.checked, Relabeling.typed, ht]
    · simp [Relabeling.checked, Relabeling.typed, ht, Ty.relabel_eq_int, Expr.leftBehind_relabel,
        Problem.Cause.relabel]

end Site.Mirrors

namespace Surroundings.Mirrors

variable {s s' : Surroundings}

theorem site (h : s.Mirrors φ s') (n : Nat) : (s.site n).Mirrors φ (s'.site n) where
  builtins := h.builtins
  catalog := h.catalog
  index := rfl

theorem checkGoto (h : s.Mirrors φ s') (label : String) (target : Option Nat) (span : Span) :
    s'.checkGoto (φ.name label) target (φ.place span)
      = φ.checked (Stmt.relabel φ) (Stmt.relabel φ) (s.checkGoto label target span) := by
  unfold Surroundings.checkGoto
  rw [h.catalog.label?, h.function]
  cases s.catalog.label? label <;> rfl

end Surroundings.Mirrors

/-! ## All statements -/

namespace Stmt

variable {s s' : Surroundings}

mutual

/-- A statement is checked in other labels as in the old ones. -/
theorem check_relabel (h : s.Mirrors φ s') (loops n : Nat) : (stmt : Stmt) →
    (stmt.relabel φ).check s' loops n = φ.checked (relabel φ) (relabel φ) (stmt.check s loops n)
  | .assign target value span => by rw [relabel, check, check, (h.site n).checkAssign]
  | .call e span => by rw [relabel, check, check, (h.site n).checkCall]
  | .ifThen c body braces otherwise span => by
    rw [relabel, check, check, (h.site n).checkCondition, checkAll_relabelAll h _ _ body, sizes_relabelAll,
      checkElse_relabelElse h _ _ otherwise]
    cases (s.site n).checkCondition c with
    | error left => rfl
    | ok c =>
      cases checkAll s loops (n + 1) body with
      | error left => rfl
      | ok body' => cases checkElse s loops (n + 1 + sizes body) otherwise <;> rfl
  | .whileDo c body braces span => by
    rw [relabel, check, check, (h.site n).checkCondition, checkAll_relabelAll h _ _ body]
    cases (s.site n).checkCondition c with
    | error left => rfl
    | ok c => cases checkAll s (loops + 1) (n + 1) body <;> rfl
  | .block body span => by
    rw [relabel, check, check, checkAll_relabelAll h _ _ body]
    cases checkAll s loops (n + 1) body <;> rfl
  | .breakLoop span | .continueLoop span => by
    rw [relabel, check, check]
    split <;> rfl
  | .goto name target span => by rw [relabel, check, check, h.checkGoto]
  | .var _ | .label .. | .foreign _ => rfl

theorem checkElse_relabelElse (h : s.Mirrors φ s') (loops n : Nat) : (o : Option Stmt) →
    checkElse s' loops n (relabelElse φ o) = φ.checked (relabelElse φ) (relabelElse φ) (checkElse s loops n o)
  | none => rfl
  | some (.block body span) => by
    rw [relabelElse, relabel, checkElse, checkElse, checkAll_relabelAll h _ _ body]
    cases checkAll s loops n body <;> rfl
  | some (.ifThen c body braces otherwise span) => by
    have hif := (ifThen c body braces otherwise span).check_relabel h loops n
    rw [relabel] at hif
    simp only [relabelElse, relabel, checkElse, isIf, if_true, hif]
    cases (ifThen c body braces otherwise span).check s loops n <;> rfl
  | some (.var _) | some (.assign ..) | some (.call ..) | some (.whileDo ..) | some (.breakLoop _)
  | some (.continueLoop _) | some (.label ..) | some (.goto ..) | some (.foreign _) => rfl

theorem checkAll_relabelAll (h : s.Mirrors φ s') (loops n : Nat) : (ss : List Stmt) →
    checkAll s' loops n (relabelAll φ ss) = φ.checked (relabelAll φ) (relabelAll φ) (checkAll s loops n ss)
  | [] => rfl
  | stmt :: rest => by
    rw [relabelAll, checkAll, checkAll, stmt.check_relabel h, size_relabel, checkAll_relabelAll h _ _ rest]
    cases stmt.check s loops n with
    | error left => rfl
    | ok stmt' => cases checkAll s loops (n + stmt.size) rest <;> rfl

end

end Stmt

variable {φ : Relabeling}

/-! ## Scopes -/

namespace LocalScope

theorem add_relabel (scope : LocalScope) (s : Symbol) :
    (scope.relabel φ).add (s.relabel φ) = φ.halted (relabel φ) (scope.add s) := by
  have hget : (scope.relabel φ).get? (s.relabel φ).name = (scope.get? s.name).map (Symbol.relabel φ) :=
    scope.get?_relabel s.name
  unfold add declare
  rw [hget]
  cases scope.get? s.name with
  | some previous => rfl
  | none => simp [Except.mapError, Relabeling.halted, relabel, Symbol.relabel]

theorem addAll_relabel (scope : LocalScope) (ss : List (Except Misplaced Symbol)) :
    (scope.relabel φ).addAll (ss.map (Except.map (Symbol.relabel φ)))
      = ((scope.addAll ss).1.relabel φ, (scope.addAll ss).2.map (Halt.relabel φ)) := by
  induction ss generalizing scope with
  | nil => rfl
  | cons s ss ih =>
    cases s with
    | error m => rfl
    | ok s =>
      have hstep : ∀ (scope : LocalScope) (s : Symbol), (Except.ok s).mapError Halt.misplaced >>= scope.add = scope.add s :=
        fun _ _ => rfl
      simp only [List.map_cons, Except.map, addAll, hstep, add_relabel]
      cases scope.add s with
      | error halt => rfl
      | ok scope' => exact ih scope'

end LocalScope

theorem Foreign.part_relabel {α : Type} (node : Foreign) (part : String) (value? : Option α) (f : α → α) :
    (node.relabel φ).part part (value?.map f) = (node.part part value?).map f := by
  cases value? <;> rfl

theorem Member.name_relabel (m : Member) : (m.relabel φ).name = m.name.map φ.name := by
  cases m with
  | var _ | param _ => rfl
  | foreign node _ => exact node.part_relabel "name" node.name φ.name

theorem FuncDecl.headSymbols_relabel (d : FuncDecl) (s : Signature) :
    (d.relabel φ).headSymbols (s.relabel φ) = (d.headSymbols s).map (Except.map (Symbol.relabel φ)) := by
  unfold headSymbols
  have hparams : ∀ (ms : List Member) (ts : List Ty),
      List.zipWith (fun (m : Member) (t : Ty) => m.name.map fun name =>
          ({ name, kind := .param, level := .local, ty := some t, span := m.span } : Symbol))
        (ms.map (Member.relabel φ)) (ts.map (Ty.relabel φ))
      = (List.zipWith (fun (m : Member) (t : Ty) => m.name.map fun name =>
          ({ name, kind := .param, level := .local, ty := some t, span := m.span } : Symbol)) ms ts).map
        (Except.map (Symbol.relabel φ)) := by
    intro ms ts
    induction ms generalizing ts with
    | nil => rfl
    | cons m ms ih =>
      cases ts with
      | nil => rfl
      | cons t ts =>
        simp only [List.map_cons, List.zipWith_cons_cons, ih, Member.name_relabel, Member.span_relabel]
        cases m.name <;> rfl
  dsimp only [Signature.relabel, FuncDecl.relabel]
  rw [hparams, List.map_append]
  congr 1
  by_cases hv : s.result = .void
  · simp [hv, Ty.relabel]
  · simp [hv, Ty.relabel_eq_void, Except.map, Symbol.relabel]

/-! ## Symbols of statements -/

theorem Braces.misplaced?_relabel (b : Braces) : (b.relabel φ).misplaced? = b.misplaced? := by cases b <;> rfl

namespace Stmt

variable {c c' : Catalog}

theorem symbol?_relabel (h : c.Mirrors φ c') (n : Nat) (s : Stmt) :
    (s.relabel φ).symbol? c' n = φ.halted (Option.map (Symbol.relabel φ)) (s.symbol? c n) := by
  cases s with
  | var d =>
    simp only [relabel, symbol?, VarDecl.relabel, d.type.resolve_relabel h]
    cases d.type.resolve c (some n) false <;> rfl
  | ifThen _ _ braces _ _ | whileDo _ _ braces _ => cases braces <;> rfl
  | assign _ _ _ | call _ _ | breakLoop _ | continueLoop _ | label _ _ _ | goto _ _ _ | block _ _ | foreign _ => rfl

theorem collect_relabel (h : c.Mirrors φ c') (scope : LocalScope) (n : Nat) (ss : List Stmt) :
    collect c' (scope.relabel φ) n (ss.map (relabel φ)) = (collect c scope n ss).relabel φ := by
  induction ss generalizing scope n with
  | nil => rfl
  | cons s ss ih =>
    rw [List.map_cons, collect, collect, symbol?_relabel (h.within scope)]
    cases s.symbol? (c.within scope) n with
    | error halt => rfl
    | ok symbol =>
      cases symbol with
      | none => exact ih scope (n + 1)
      | some symbol =>
        simp only [Relabeling.halted, Option.map_some, LocalScope.add_relabel]
        cases scope.add symbol with
        | error halt => rfl
        | ok scope' => exact ih scope' (n + 1)

end Stmt

/-! ## Bodies -/

def Worked.relabel (φ : Relabeling) (w : Worked) : Worked :=
  ⟨w.decl.relabel φ, w.scope.relabel φ, w.statements.map (Stmt.relabel φ), w.halt.map (Halt.relabel φ)⟩

theorem Worked.report_relabel (w : Worked) :
    (w.relabel φ).report = w.report.map fun r => (r.1.relabel φ, r.2.relabel φ) := by
  obtain ⟨d, scope, statements, halt⟩ := w
  cases halt with
  | none => rfl
  | some halt => cases halt <;> rfl

namespace FuncDecl

variable {b b' : Builtins} {c c' : Catalog}

theorem worked_relabel (d : FuncDecl) (collected : Collected) (body : List Stmt) (halt : Option Halt) :
    (d.relabel φ).worked (collected.relabel φ) (Stmt.relabelAll φ body) (halt.map (Halt.relabel φ))
      = (d.worked collected body halt).relabel φ := by
  unfold worked
  rw [Stmt.flattenAll_relabelAll, Collected.relabel, ← List.map_take]
  rfl

theorem workStatements_relabel
    (hb : ∀ name, b'.lookup (φ.name name) = (b.lookup name).map (Signature.relabel φ)) (hc : c.Mirrors φ c')
    (d : FuncDecl) (collected : Collected) :
    (d.relabel φ).workStatements b' c' (collected.relabel φ) = (d.workStatements b c collected).relabel φ := by
  have hs : (Surroundings.mk b (c.within collected.scope) d.name).Mirrors φ
      ⟨b', c'.within (collected.scope.relabel φ), φ.name d.name⟩ := ⟨hb, hc.within collected.scope, rfl⟩
  have hnumber : Stmt.numberAll collected.count 0 (Stmt.relabelAll φ d.body)
      = Stmt.relabelAll φ (Stmt.numberAll collected.count 0 d.body) := Stmt.numberAll_relabelAll _ _ _
  have hcheck := Stmt.checkAll_relabelAll hs 0 0 (Stmt.numberAll collected.count 0 d.body)
  have hworked := d.worked_relabel (φ := φ) collected
  unfold workStatements
  simp only [FuncDecl.relabel, Collected.relabel] at hworked ⊢
  rw [hnumber, hcheck]
  cases collected.halt with
  | some halt => exact hworked _ (some halt)
  | none =>
    cases Stmt.checkAll ⟨b, c.within collected.scope, d.name⟩ 0 0 (Stmt.numberAll collected.count 0 d.body) with
    | ok body => exact hworked body none
    | error left => exact hworked left.2 (some left.1)

/-- A body is worked on in other labels as in the old ones. -/
theorem work_relabel (hb : ∀ name, b'.lookup (φ.name name) = (b.lookup name).map (Signature.relabel φ))
    (hc : c.Mirrors φ c') (s : Signature) (d : FuncDecl) :
    (d.relabel φ).work b' c' (s.relabel φ) = (d.work b c s).relabel φ := by
  have hheads : LocalScope.addAll { function := φ.name d.name } ((d.relabel φ).headSymbols (s.relabel φ))
      = ((LocalScope.addAll { function := d.name } (d.headSymbols s)).1.relabel φ,
        (LocalScope.addAll { function := d.name } (d.headSymbols s)).2.map (Halt.relabel φ)) := by
    rw [headSymbols_relabel]
    exact LocalScope.addAll_relabel { function := d.name } (d.headSymbols s)
  unfold work
  simp only [FuncDecl.relabel] at hheads ⊢
  rw [hheads]
  cases LocalScope.addAll { function := d.name } (d.headSymbols s) with
  | mk scope halt =>
    cases halt with
    | some halt => rfl
    | none =>
      simp only [Option.map_none, Braces.misplaced?_relabel]
      cases d.braces.misplaced? with
      | some m => rfl
      | none =>
        simp only [Stmt.flattenAll_relabelAll, Stmt.collect_relabel hc]
        exact d.workStatements_relabel hb hc _

theorem resolveBody_relabel (hb : ∀ name, b'.lookup (φ.name name) = (b.lookup name).map (Signature.relabel φ))
    (hc : c.Mirrors φ c') (s : Signature) (d : FuncDecl) :
    (d.relabel φ).resolveBody b' c' (s.relabel φ)
      = (d.resolveBody b c s).map fun r => (r.1.relabel φ, r.2.relabel φ) := by
  rw [resolveBody_eq, resolveBody_eq, work_relabel hb hc, Worked.report_relabel]

end FuncDecl

end FlatScope
