/-
  Tables of builtins and units. Only the work on bodies asks the table, for the names that their statements call
  (`Program.tableNames`). So two tables that say the same of these names give the same resolution; and a unit without
  problems has only names in the table, so that a larger table says the same of them
  (`Program.resolve_tables`).
-/
import FlatScope.Proofs.Reordering.Unit
import FlatScope.Proofs.Rewriting.Unit
import FlatScope.Proofs.Scopes.Collected
import FlatScope.Proofs.Tables.Expr

namespace FlatScope

/-! ## Statements -/

namespace Stmt

/-- What holds of everything in the expressions of statements. -/
def Hold (P : Expr → Prop) (ss : List Stmt) : Prop := ∀ s ∈ ss, ∀ e ∈ s.exprs, ∀ x ∈ e.parts, P x

variable {P Q : Expr → Prop} {s : Stmt} {ss ts : List Stmt}

theorem hold_cons : Hold P (s :: ss) ↔ (∀ e ∈ s.exprs, ∀ x ∈ e.parts, P x) ∧ Hold P ss := List.forall_mem_cons

theorem hold_append : Hold P (ss ++ ts) ↔ Hold P ss ∧ Hold P ts := List.forall_mem_append

theorem Hold.imp (h : Hold P ss) (hPQ : ∀ x, P x → Q x) : Hold Q ss := fun s hs e he x hx => hPQ x (h s hs e he x hx)

/-- Numbers are in no expression. -/
theorem hold_numberAll {bound n : Nat} : Hold P (flattenAll (numberAll bound n ss)) ↔ Hold P (flattenAll ss) := by
  have hexprs (s : Stmt) (k : Nat) : (s.number bound k).exprs = s.exprs := by cases s <;> rfl
  rw [flattenAll_numberAll]
  simp only [Hold, List.forall_mem_map, hexprs]
  conv_rhs => rw [← List.zipIdx_map_fst n (flattenAll ss)]
  simp only [List.forall_mem_map]

end Stmt

/-- Surroundings with another table of builtins. -/
def Surroundings.withBuiltins (s : Surroundings) (b : Builtins) : Surroundings := { s with builtins := b }

namespace Site

variable (site : Site) {b : Builtins}

theorem checkTarget_withBuiltins {e : Expr} (he : e.check (site.withBuiltins b) none = e.check site none) :
    (site.withBuiltins b).checkTarget e = site.checkTarget e := by
  rw [checkTarget, checkTarget, he]
  rfl

theorem checkAssign_withBuiltins {target value : Expr} (ht : ∀ x ∈ target.parts, x.CallsAlike site.builtins b)
    (hv : ∀ x ∈ value.parts, x.CallsAlike site.builtins b) (span : Span) :
    (site.withBuiltins b).checkAssign target value span = site.checkAssign target value span := by
  rw [checkAssign, checkAssign, site.checkTarget_withBuiltins (target.check_withBuiltins ht none)]
  simp only [value.check_withBuiltins hv]

theorem checkCall_withBuiltins {e : Expr} (he : ∀ x ∈ e.parts, x.CallsAlike site.builtins b) (span : Span) :
    (site.withBuiltins b).checkCall e span = site.checkCall e span := by
  simp only [checkCall, e.check_withBuiltins he]

theorem checkCondition_withBuiltins {e : Expr} (he : ∀ x ∈ e.parts, x.CallsAlike site.builtins b) :
    (site.withBuiltins b).checkCondition e = site.checkCondition e := by
  simp only [checkCondition, e.check_withBuiltins he]

end Site

namespace Stmt

variable {s : Surroundings} {b : Builtins}

mutual

theorem check_withBuiltins (loops n : Nat) : (stmt : Stmt) → Hold (Expr.CallsAlike s.builtins b) stmt.flatten →
    stmt.check (s.withBuiltins b) loops n = stmt.check s loops n
  | .var _, _ | .label .., _ | .breakLoop _, _ | .continueLoop _, _ | .goto .., _ | .foreign _, _ => rfl
  | .assign target value span, h => by
    obtain ⟨ht, hv⟩ := List.forall_mem_cons.mp (hold_cons.mp h).1
    exact (s.site n).checkAssign_withBuiltins ht (List.forall_mem_singleton.mp hv) span
  | .call e span, h => (s.site n).checkCall_withBuiltins (List.forall_mem_singleton.mp (hold_cons.mp h).1) span
  | .ifThen c body _ otherwise _, h => by
    obtain ⟨hc, h⟩ := hold_cons.mp h
    obtain ⟨hbody, helse⟩ := hold_append.mp h
    have hcondition : ((s.withBuiltins b).site n).checkCondition c = (s.site n).checkCondition c :=
      (s.site n).checkCondition_withBuiltins (List.forall_mem_singleton.mp hc)
    rw [check, check, hcondition, checkAll_withBuiltins loops (n + 1) body hbody,
      checkElse_withBuiltins loops (n + 1 + sizes body) otherwise helse]
  | .whileDo c body _ _, h => by
    obtain ⟨hc, hbody⟩ := hold_cons.mp h
    have hcondition : ((s.withBuiltins b).site n).checkCondition c = (s.site n).checkCondition c :=
      (s.site n).checkCondition_withBuiltins (List.forall_mem_singleton.mp hc)
    rw [check, check, hcondition, checkAll_withBuiltins (loops + 1) (n + 1) body hbody]
  | .block body _, h => by
    rw [check, check, checkAll_withBuiltins loops (n + 1) body (hold_cons.mp h).2]

theorem checkElse_withBuiltins (loops n : Nat) : (o : Option Stmt) → Hold (Expr.CallsAlike s.builtins b) (flattenElse o) →
    checkElse (s.withBuiltins b) loops n o = checkElse s loops n o
  | some (.ifThen c body braces otherwise span), h => by
    rw [checkElse_of_isIf rfl, checkElse_of_isIf rfl, check_withBuiltins loops n (.ifThen c body braces otherwise span) h]
  | some (.block body _), h => by rw [checkElse, checkElse, checkAll_withBuiltins loops n body h]
  | none, _ | some (.var _), _ | some (.assign ..), _ | some (.call ..), _ | some (.whileDo ..), _ | some (.breakLoop _), _
  | some (.continueLoop _), _ | some (.label ..), _ | some (.goto ..), _ | some (.foreign _), _ => rfl

theorem checkAll_withBuiltins (loops n : Nat) : (ss : List Stmt) → Hold (Expr.CallsAlike s.builtins b) (flattenAll ss) →
    checkAll (s.withBuiltins b) loops n ss = checkAll s loops n ss
  | [], _ => rfl
  | stmt :: rest, h => by
    obtain ⟨hstmt, hrest⟩ := hold_append.mp h
    rw [checkAll, checkAll, check_withBuiltins loops n stmt hstmt, checkAll_withBuiltins loops (n + stmt.size) rest hrest]

end

end Stmt

/-! ## What the checks of statements know -/

namespace Site

variable {site : Site}

theorem isKnown_of_checkAssign {target value : Expr} {span : Span} {stmt : Stmt}
    (h : site.checkAssign target value span = .ok stmt) :
    (∀ x ∈ target.parts, x.IsKnown site.builtins) ∧ ∀ x ∈ value.parts, x.IsKnown site.builtins := by
  rw [checkAssign] at h
  split at h
  · cases h
  · rename_i htarget
    split at h
    · cases h
    · rename_i hvalue
      refine ⟨?_, value.isKnown_of_check hvalue⟩
      rw [checkTarget] at htarget
      split at htarget
      · cases htarget
      · split at htarget
        · cases htarget
        · exact target.isKnown_of_check htarget

theorem isKnown_of_checkCall {e : Expr} {span : Span} {stmt : Stmt} (h : site.checkCall e span = .ok stmt) :
    ∀ x ∈ e.parts, x.IsKnown site.builtins := by
  unfold checkCall at h
  split at h
  · split at h
    · cases h
    · rename_i hc
      exact Expr.isKnown_of_check _ hc
  · cases h

theorem isKnown_of_checkCondition {e e' : Expr} (h : site.checkCondition e = .ok e') :
    ∀ x ∈ e.parts, x.IsKnown site.builtins := by
  rw [checkCondition] at h
  split at h
  · cases h
  · rename_i hc
    exact e.isKnown_of_check hc

end Site

namespace Stmt

variable {s : Surroundings}

mutual

/-- Statements are in order only if the table has everything that they call. -/
theorem isKnown_of_check {loops n : Nat} : (stmt : Stmt) → {stmt' : Stmt} → stmt.check s loops n = .ok stmt' →
    Hold (Expr.IsKnown s.builtins) stmt.flatten
  | .var _, _, _ | .label .., _, _ | .breakLoop _, _, _ | .continueLoop _, _, _ | .goto .., _, _ | .foreign _, _, _ =>
    hold_cons.mpr ⟨nofun, nofun⟩
  | .assign target value span, _, h => by
    obtain ⟨ht, hv⟩ := Site.isKnown_of_checkAssign h
    exact hold_cons.mpr ⟨List.forall_mem_cons.mpr ⟨ht, List.forall_mem_singleton.mpr hv⟩, nofun⟩
  | .call e span, _, h => hold_cons.mpr ⟨List.forall_mem_singleton.mpr (Site.isKnown_of_checkCall h), nofun⟩
  | .ifThen c body _ otherwise _, _, h => by
    rw [check] at h
    split at h
    · cases h
    · rename_i hc
      split at h
      · cases h
      · rename_i hbody
        split at h
        · cases h
        · rename_i helse
          exact hold_cons.mpr ⟨List.forall_mem_singleton.mpr (Site.isKnown_of_checkCondition hc),
            hold_append.mpr ⟨isKnown_of_checkAll body hbody, isKnown_of_checkElse otherwise helse⟩⟩
  | .whileDo c body _ _, _, h => by
    rw [check] at h
    split at h
    · cases h
    · rename_i hc
      split at h
      · cases h
      · rename_i hbody
        exact hold_cons.mpr ⟨List.forall_mem_singleton.mpr (Site.isKnown_of_checkCondition hc), isKnown_of_checkAll body hbody⟩
  | .block body _, _, h => by
    rw [check] at h
    split at h
    · cases h
    · rename_i hbody
      exact hold_cons.mpr ⟨nofun, isKnown_of_checkAll body hbody⟩

theorem isKnown_of_checkElse {loops n : Nat} : (o : Option Stmt) → {o' : Option Stmt} → checkElse s loops n o = .ok o' →
    Hold (Expr.IsKnown s.builtins) (flattenElse o)
  | some (.ifThen c body braces otherwise span), _, h => by
    rw [checkElse_of_isIf rfl] at h
    split at h
    · cases h
    · rename_i hbranch
      exact isKnown_of_check (.ifThen c body braces otherwise span) hbranch
  | some (.block body _), _, h => by
    rw [checkElse] at h
    split at h
    · cases h
    · rename_i hbody
      exact isKnown_of_checkAll body hbody
  | none, _, _ | some (.var _), _, _ | some (.assign ..), _, _ | some (.call ..), _, _ | some (.whileDo ..), _, _
  | some (.breakLoop _), _, _ | some (.continueLoop _), _, _ | some (.label ..), _, _ | some (.goto ..), _, _
  | some (.foreign _), _, _ => nofun

theorem isKnown_of_checkAll {loops n : Nat} : (ss : List Stmt) → {ss' : List Stmt} → checkAll s loops n ss = .ok ss' →
    Hold (Expr.IsKnown s.builtins) (flattenAll ss)
  | [], _, _ => nofun
  | stmt :: rest, _, h => by
    rw [checkAll] at h
    split at h
    · cases h
    · rename_i hstmt
      split at h
      · cases h
      · rename_i hrest
        exact hold_append.mpr ⟨isKnown_of_check stmt hstmt, isKnown_of_checkAll rest hrest⟩

end

end Stmt

/-! ## Bodies -/

namespace FuncDecl

variable {b b' : Builtins} {c : Catalog} {s : Signature} {d d' : FuncDecl} {e : Entered}

/-- The work on a body comes to the same with a table that says the same of what the body calls. -/
theorem resolveBody_of_callAlike (h : Stmt.Hold (Expr.CallsAlike b b') (Stmt.flattenAll d.body)) (c : Catalog) (s : Signature) :
    d.resolveBody b' c s = d.resolveBody b c s := by
  have hstatements (collected : Collected) : d.workStatements b' c collected = d.workStatements b c collected := by
    have hcheck : Stmt.checkAll ⟨b', c.within collected.scope, d.name⟩ 0 0 (Stmt.numberAll collected.count 0 d.body)
        = Stmt.checkAll ⟨b, c.within collected.scope, d.name⟩ 0 0 (Stmt.numberAll collected.count 0 d.body) :=
      Stmt.checkAll_withBuiltins (s := ⟨b, c.within collected.scope, d.name⟩) 0 0 _ (Stmt.hold_numberAll.mpr h)
    rw [workStatements, workStatements, hcheck]
  rw [resolveBody_eq, resolveBody_eq, work, work]
  simp only [hstatements]

/-- What a body that is in order calls is in the table. -/
theorem isKnown_of_resolveBody (h : d.resolveBody b c s = .ok (d', e)) (hproblem : e.problem = none) :
    Stmt.Hold (Expr.IsKnown b) (Stmt.flattenAll d.body) := by
  obtain ⟨-, -, hcheck⟩ := resolveBody_eq_done h hproblem
  exact Stmt.hold_numberAll.mp (Stmt.isKnown_of_checkAll _ hcheck)

end FuncDecl

/-! ## Steps and phases -/

/-- The names that the functions of a unit call and that a table is asked for. -/
def Program.tableNames (p : Program) : List String := p.decls.flatMap fun d => d.parts.filterMap Expr.tableName?

namespace Step

variable {b b' : Builtins} {p p' : Progress} {d d' : Decl}

theorem body_of_callAlike (h : ∀ x ∈ d.parts, x.CallsAlike b b') (p : Progress) : body b' p d = body b p d := by
  cases d with
  | func d =>
    have hbody := d.resolveBody_of_callAlike (Stmt.forall_mem_parts.mp h)
    rw [body, body]
    simp only [hbody]
  | const _ | var _ | struct _ | foreign _ => rfl

/-- The work on a body that is in order comes to the same with every larger table. -/
theorem body_of_larger (hlarger : ∀ name s, b.lookup name = some s → b'.lookup name = some s)
    (h : body b p d = .ok (p', d', none)) : body b' p d = .ok (p', d', none) := by
  cases d with
  | func d =>
    obtain ⟨hs, rfl, rfl, -⟩ | ⟨s, f, e, hs, hbody, rfl, rfl, hproblem⟩ := body_eq_ok.mp h
    · exact body_eq_ok.mpr (.inl ⟨hs, rfl, rfl, rfl⟩)
    · have hknown := FuncDecl.isKnown_of_resolveBody hbody hproblem.symm
      have halike := hknown.imp fun x hx => hx.callsAlike hlarger
      exact body_eq_ok.mpr (.inr ⟨s, f, e, hs, (d.resolveBody_of_callAlike halike p.catalog s).trans hbody, rfl, rfl, hproblem⟩)
  | const _ | var _ | struct _ | foreign _ => exact h

end Step

/-- A phase does the same by a step that does the same with each declaration. -/
theorem Phase.run_congr {phase : Phase} {step step' : Step} {es : List Entry}
    (h : ∀ e ∈ es, ∀ p, step' p e.decl = step p e.decl) (p : Progress) : phase.run step' p es = phase.run step p es := by
  induction es generalizing p with
  | nil => rfl
  | cons e es ih =>
    obtain ⟨he, hes⟩ := List.forall_mem_cons.mp h
    rw [Phase.run, Phase.run, he p]
    simp only [ih hes]

theorem Step.Passes.imp {step step' : Step} {p p' : Progress} {ds ds' : List Decl} (h : step.Passes p ds p' ds')
    (himp : ∀ p d p' d', step p d = .ok (p', d', none) → step' p d = .ok (p', d', none)) : step'.Passes p ds p' ds' := by
  induction h with
  | nil p => exact .nil p
  | cons hone _ ih => exact .cons (himp _ _ _ _ hone) ih

theorem Entry.map_fresh {es : List Entry} (h : ∀ e ∈ es, e.failure = none) : (es.map Entry.decl).map Entry.fresh = es := by
  rw [List.map_map]
  refine (List.map_congr_left fun e he => ?_).trans (List.map_id es)
  exact congrArg (Entry.mk e.decl) (h e he).symm

/-! ## Units -/

namespace Program

variable {b b' : Builtins} {p : Program} {p₁ p₂ p₃ p₄ p₅ p₆ : Progress} {es₁ es₂ es₃ es₄ es₅ es₆ : List Entry}

/-- The phases before the bodies ask no table. -/
theorem Runs.withBuiltins (h : p.Runs b p₁ p₂ p₃ p₄ p₅ p₆ es₁ es₂ es₃ es₄ es₅ es₆)
    (hbodies : Phase.bodies.run (Step.body b') p₅ es₅ = .ok (p₆, es₆)) :
    p.Runs b' p₁ p₂ p₃ p₄ p₅ p₆ es₁ es₂ es₃ es₄ es₅ es₆ :=
  { h with bodies := hbodies }

/-- A function in front of the phase of bodies is one of the unit. -/
theorem Runs.func_mem (h : p.Runs b p₁ p₂ p₃ p₄ p₅ p₆ es₁ es₂ es₃ es₄ es₅ es₆) {d : FuncDecl}
    (hd : .func d ∈ es₅.map Entry.decl) : .func d ∈ p.decls := by
  rw [h.decls_headers] at hd
  have hconstants := h.constants_make
  generalize es₂.map Entry.decl = ds at hd hconstants
  generalize p.decls = ds₀ at hconstants ⊢
  induction hconstants with
  | nil => cases hd
  | cons hone _ ih =>
    obtain rfl | hd := List.mem_cons.mp hd
    · obtain rfl | ⟨k, value, -, hconst, -⟩ := hone
      · exact List.mem_cons_self
      · cases hconst
    · exact List.mem_cons_of_mem _ (ih hd)

/-- A table that says the same of the names that are called gives the same resolution. -/
theorem resolve_of_callAlike {r : Resolution} (h : p.resolve b = .ok r)
    (halike : ∀ name ∈ p.tableNames, b'.lookup name = b.lookup name) : p.resolve b' = .ok r := by
  obtain ⟨p₁, p₂, p₃, p₄, p₅, p₆, es₁, es₂, es₃, es₄, es₅, es₆, hruns, rfl⟩ := exists_runs h
  refine (hruns.withBuiltins ((Phase.run_congr (fun e he q => ?_) p₅).trans hruns.bodies)).resolve
  obtain ⟨d, failure⟩ := e
  cases d with
  | func d =>
    have hd : .func d ∈ p.decls := hruns.func_mem (List.mem_map_of_mem he)
    refine Step.body_of_callAlike (fun x hx name hname => halike name ?_) q
    exact List.mem_flatMap.mpr ⟨.func d, hd, List.mem_filterMap.mpr ⟨x, hx, hname⟩⟩
  | const _ | var _ | struct _ | foreign _ => rfl

/-- A unit without problems keeps its resolution in every larger table. -/
theorem resolve_of_larger {r : Resolution} (h : p.resolve b = .ok r) (hr : r.problems = [])
    (hlarger : ∀ name s, b.lookup name = some s → b'.lookup name = some s) : p.resolve b' = .ok r := by
  obtain ⟨p₁, p₂, p₃, p₄, p₅, p₆, es₁, es₂, es₃, es₄, es₅, es₆, hruns, rfl⟩ := exists_runs h
  have hfresh : ∀ e ∈ es₆, e.failure = none := Resolution.problems_eq_nil_iff.mp hr
  obtain ⟨ds, rfl⟩ : ∃ ds : List Decl, es₅ = ds.map Entry.fresh :=
    ⟨es₅.map Entry.decl, (Entry.map_fresh (Phase.failure_of_run hruns.bodies hfresh)).symm⟩
  obtain ⟨ds', rfl, hpasses⟩ := Phase.passes_of_run hruns.bodies hfresh
  have hpasses' := hpasses.imp fun _ _ _ _ hone => Step.body_of_larger hlarger hone
  exact (hruns.withBuiltins (Phase.run_of_passes hpasses')).resolve

/-- A name that a table is asked for, so no name of a special form. -/
def IsTableName (name : String) : Prop := isBuiltinName name = true ∧ SpecialForm.ofName? name = none

theorem isTableName_of_mem {name : String} (h : name ∈ p.tableNames) : IsTableName name := by
  obtain ⟨d, -, h⟩ := List.mem_flatMap.mp h
  obtain ⟨x, -, h⟩ := List.mem_filterMap.mp h
  unfold Expr.tableName? at h
  split at h
  · split at h
    · rename_i hcalled
      obtain rfl := Option.some.inj h
      obtain ⟨hb, hf⟩ := Bool.and_eq_true_iff.mp hcalled
      exact ⟨hb, Option.isNone_iff_eq_none.mp hf⟩
    · cases h
  · cases h

/-- A table of builtins acts only through the names that are called. Every parsed unit is resolved with any table, and it comes
to the same with every table that says the same of the names with an underscore in front that the unit calls, special forms
apart. So it does with every table that says the same of all such names, whatever else is in the tables; and, if it has no
problems, with every larger table. -/
theorem resolve_tables {source : String} {file : Option String} (h : ofSource source file = .ok p) (b : Builtins) :
    ∃ r, p.resolve b = .ok r
      ∧ (∀ b' : Builtins, (∀ name ∈ p.tableNames, b'.lookup name = b.lookup name) → p.resolve b' = .ok r)
      ∧ (∀ b' : Builtins, (∀ name, IsTableName name → b'.lookup name = b.lookup name) → p.resolve b' = .ok r)
      ∧ (r.problems = [] → ∀ b' : Builtins, (∀ name s, b.lookup name = some s → b'.lookup name = some s) →
        p.resolve b' = .ok r) := by
  obtain ⟨r, -, hr, -⟩ := exists_resolve (isWellFormed_of_ofSource h) b
  refine ⟨r, hr, fun b' halike => resolve_of_callAlike hr halike, fun b' halike => ?_, fun hnone b' hlarger => ?_⟩
  · exact resolve_of_callAlike hr fun name hname => halike name (isTableName_of_mem hname)
  · exact resolve_of_larger hr hnone hlarger

/-- The signature of a builtin that takes and gives an `int`. -/
def unaryInt : Signature := ⟨[.int], .int⟩

/-- A unit that calls one builtin comes to the same with a table of that one, with entries beside it that are no builtins of a
table, and with the standard table behind it. -/
theorem resolve_tables_inc :
    ∃ p r, ofSource "fun f int() \x7b result := _inc(2) \x7d" = .ok p ∧ p.resolve [("_inc", unaryInt)] = .ok r
      ∧ r.problems = [] ∧ p.tableNames = ["_inc"]
      ∧ p.resolve [("inc", unaryInt), ("_free", unaryInt), ("_inc", unaryInt)] = .ok r
      ∧ p.resolve (("_inc", unaryInt) :: Builtins.standard) = .ok r := by
  have hkinds : ((ofSource "fun f int() \x7b result := _inc(2) \x7d").toOption.bind fun p =>
      (p.resolve [("_inc", unaryInt)]).toOption.map fun r => (r.problems.map fun q => q.cause.kind, p.tableNames))
      = some ([], ["_inc"]) := bind_ofSource (by decide +kernel)
  obtain ⟨p, hp, hkinds⟩ := Option.bind_eq_some_iff.mp hkinds
  obtain ⟨r, hr, hkinds⟩ := Option.map_eq_some_iff.mp hkinds
  obtain ⟨hproblems, hnames⟩ := Prod.mk.inj hkinds
  have hnone : r.problems = [] := List.map_eq_nil_iff.mp hproblems
  obtain ⟨r', hr', halike, -, hlarger⟩ := resolve_tables (Except.toOption_eq_some_iff.mp hp) [("_inc", unaryInt)]
  obtain rfl := Except.ok.inj ((Except.toOption_eq_some_iff.mp hr).symm.trans hr')
  refine ⟨p, r, Except.toOption_eq_some_iff.mp hp, hr', hnone, hnames, halike _ ?_, hlarger hnone _ ?_⟩
  · rw [hnames]
    exact List.forall_mem_singleton.mpr rfl
  · intro name s hs
    rw [List.lookup_cons] at hs ⊢
    split at hs
    · exact hs
    · cases hs

end Program

end FlatScope
