/-
  Checks of well-formed trees halt at problems only. A tree without misplaced nodes gives no check a reason to give up, so
  whatever halts the work on a declaration is a problem of the unit, and the work on the others goes on.
-/
import FlatScope.Proofs.Resolution.Check
import FlatScope.Proofs.Resolution.Results
import FlatScope.Proofs.Tree.WellFormed
import FlatScope.Resolution.Unit

namespace FlatScope

namespace Halt

/-- A halt is one at a problem of the unit. -/
def IsProblem : Halt → Prop
  | problem _ => True
  | misplaced _ => False

theorem IsProblem.report {halt : Halt} (h : halt.IsProblem) : ∃ p, halt.report = .ok p := by
  cases halt with
  | problem p => exact ⟨p, rfl⟩
  | misplaced m => exact h.elim

theorem isProblem_atExpr {e : Expr} (h : e.misplaced? = none) (cause : Problem.Cause) : (atExpr e cause).IsProblem := by
  cases e
  case foreign node => cases h
  all_goals trivial

theorem isProblem_of_mapError {α : Type} {x : Except Problem.Cause α} {span : Span} {halt : Halt}
    (h : x.mapError (Halt.at span) = .error halt) : halt.IsProblem := by
  obtain ⟨cause, -, rfl⟩ := Except.mapError_eq_error.mp h
  trivial

end Halt

/-! ## Types -/

namespace TypeExpr

variable {c : Catalog} {at? : Option Int} {halt : Halt}

mutual

theorem isProblem_of_resolve : (w : TypeExpr) → w.misplaced? = none → {allowVoid : Bool} →
    w.resolve c at? allowVoid = .error halt → halt.IsProblem
  | .named name span, _, _, h => Halt.isProblem_of_mapError h
  | .pointer e _, hm, _, h => by
    rw [resolve] at h
    obtain h | ⟨t, -, h⟩ := Except.bind_eq_error.mp h
    · exact e.isProblem_of_resolve hm h
    · cases h
  | .array e size span, hm, _, h => by
    rw [resolve] at h
    obtain h | ⟨t, -, h⟩ := Except.bind_eq_error.mp h
    · exact e.isProblem_of_resolve hm h
    · obtain h | ⟨n, -, h⟩ := Except.bind_eq_error.mp h
      · exact Halt.isProblem_of_mapError h
      · cases h
  | .func r ps _, hm, _, h => by
    obtain ⟨hps, hr⟩ := orElse_eq_none_iff.mp hm
    rw [resolve] at h
    obtain h | ⟨ts, -, h⟩ := Except.bind_eq_error.mp h
    · exact isProblem_of_resolveAll ps hps h
    · obtain h | ⟨t, -, h⟩ := Except.bind_eq_error.mp h
      · exact r.isProblem_of_resolve hr h
      · cases h
  | .foreign _, hm, _, _ => nomatch hm

theorem isProblem_of_resolveAll : (ws : List TypeExpr) → misplacedAny? ws = none →
    resolveAll c at? ws = .error halt → halt.IsProblem
  | [], _, h => nomatch h
  | w :: ws, hm, h => by
    obtain ⟨hw, hws⟩ := orElse_eq_none_iff.mp hm
    rw [resolveAll] at h
    obtain h | ⟨t, -, h⟩ := Except.bind_eq_error.mp h
    · exact w.isProblem_of_resolve hw h
    · obtain h | ⟨ts, -, h⟩ := Except.bind_eq_error.mp h
      · exact isProblem_of_resolveAll ws hws h
      · cases h

end

end TypeExpr

/-! ## Expressions -/

namespace Expr

variable {site : Site} {halt : Halt} {left : Expr}

/-- What an expression spells as a type has no misplaced nodes. -/
theorem misplaced?_asType? : (e : Expr) → {w : TypeExpr} → e.asType? = some w → w.misplaced? = none
  | .ident name symbol info, w, h => by
    obtain rfl := Option.some.inj h
    rfl
  | .index b i info, w, h => by
    rw [asType?] at h
    obtain ⟨element, he, h⟩ := Option.bind_eq_some_iff.mp h
    obtain ⟨size, -, h⟩ := Option.bind_eq_some_iff.mp h
    obtain rfl := Option.some.inj h
    have hb := misplaced?_asType? b he
    exact hb
  | .int .., _, h | .real .., _, h | .byte .., _, h | .field .., _, h | .call .., _, h | .composite .., _, h
  | .addrOf .., _, h | .typeArg .., _, h | .foreign _, _, h => nomatch h

theorem isProblem_of_select {base : Expr} {t : Ty} {name : String} {span : Span} {e : Expr}
    (h : site.select base t name span e = .error (halt, left)) : halt.IsProblem := by
  unfold Site.select at h
  split at h
  · obtain ⟨rfl, -⟩ := Prod.mk.inj (Except.error.inj h)
    trivial
  · cases h

theorem isProblem_of_typeOperand {e : Expr} (hm : e.misplaced? = none)
    (h : site.typeOperand e = .error (halt, left)) : halt.IsProblem := by
  unfold Site.typeOperand at h
  dsimp only at h
  split at h
  · rename_i halt' hw
    obtain ⟨rfl, -⟩ := Prod.mk.inj (Except.error.inj h)
    split at hw
    · cases hw
    · split at hw
      · cases hw
      · obtain rfl := Except.error.inj hw
        exact Halt.isProblem_atExpr hm _
  · rename_i w info hw
    have hwritten : w.misplaced? = none := by
      split at hw
      · obtain ⟨rfl, -⟩ := Prod.mk.inj (Except.ok.inj hw)
        exact hm
      · split at hw
        · rename_i hs
          obtain ⟨rfl, -⟩ := Prod.mk.inj (Except.ok.inj hw)
          exact misplaced?_asType? _ hs
        · cases hw
    split at h
    · rename_i hr
      obtain ⟨rfl, -⟩ := Prod.mk.inj (Except.error.inj h)
      exact w.isProblem_of_resolve hwritten hr
    · cases h

theorem isProblem_of_callForm? {span : Span} {e : Expr} (h : site.callForm? span e = .error halt) : halt.IsProblem := by
  cases e
  case ident name symbol info =>
    rw [Site.callForm?] at h
    split at h
    · split at h
      · cases h
      · cases h
      · obtain rfl := Except.error.inj h
        trivial
      · split at h
        · cases h
        · obtain rfl := Except.error.inj h
          trivial
    · split at h
      · cases h
      · split at h
        all_goals first
          | (obtain rfl := Except.error.inj h; trivial)
          | cases h
  all_goals cases h

theorem isProblem_of_functionAddress? {e : Expr} (h : site.functionAddress? e = .error halt) : halt.IsProblem := by
  cases e
  case ident name symbol info =>
    rw [Site.functionAddress?] at h
    split at h
    · split at h
      · cases h
      · obtain rfl := Except.error.inj h
        trivial
    · split at h
      · obtain rfl := Except.error.inj h
        trivial
      · cases h
  all_goals cases h

mutual

/-- Where no node is misplaced the check of an expression halts at problems only. -/
theorem isProblem_of_check : (e : Expr) → e.misplaced? = none → {context : Option Ty} → {halt : Halt} → {left : Expr} →
    e.check site context = .error (halt, left) → halt.IsProblem
  | .int .., _, _, _, _, h | .real .., _, _, _, _, h | .byte .., _, _, _, _, h => nomatch h
  | .ident name symbol info, _, _, _, _, h => by
    rw [check] at h
    split at h
    · obtain ⟨rfl, -⟩ := Prod.mk.inj (Except.error.inj h)
      trivial
    · cases h
  | .index b i info, hm, _, _, _, h => by
    obtain ⟨hb, hi⟩ := orElse_eq_none_iff.mp hm
    rw [check] at h
    split at h
    · rename_i hbase
      obtain ⟨rfl, -⟩ := Prod.mk.inj (Except.error.inj h)
      exact b.isProblem_of_check hb hbase
    · split at h
      · split at h
        · obtain ⟨rfl, -⟩ := Prod.mk.inj (Except.error.inj h)
          exact Halt.isProblem_atExpr hi _
        · exact isProblem_of_select h
      · split at h
        · obtain ⟨rfl, -⟩ := Prod.mk.inj (Except.error.inj h)
          trivial
        · split at h
          · rename_i hindex
            obtain ⟨rfl, -⟩ := Prod.mk.inj (Except.error.inj h)
            exact i.isProblem_of_check hi hindex
          · split at h
            · cases h
            · obtain ⟨rfl, -⟩ := Prod.mk.inj (Except.error.inj h)
              trivial
  | .field b name info, hm, _, _, _, h => by
    rw [check] at h
    split at h
    · rename_i hbase
      obtain ⟨rfl, -⟩ := Prod.mk.inj (Except.error.inj h)
      exact b.isProblem_of_check hm hbase
    · exact isProblem_of_select h
  | .call callee args info, hm, _, _, _, h => by
    obtain ⟨hargs, hcallee⟩ := orElse_eq_none_iff.mp hm
    rw [check] at h
    split at h
    · rename_i hcalled
      obtain ⟨rfl, -⟩ := Prod.mk.inj (Except.error.inj h)
      split at hcalled
      · rename_i hform
        obtain ⟨rfl, -⟩ := Prod.mk.inj (Except.error.inj hcalled)
        exact isProblem_of_callForm? hform
      · cases hcalled
      · split at hcalled
        · rename_i hcheck
          obtain rfl := Except.error.inj hcalled
          exact callee.isProblem_of_check hcallee hcheck
        · cases hcalled
        · obtain ⟨rfl, -⟩ := Prod.mk.inj (Except.error.inj hcalled)
          trivial
    · split at h
      · obtain ⟨rfl, -⟩ := Prod.mk.inj (Except.error.inj h)
        trivial
      · split at h
        · rename_i hall
          obtain ⟨rfl, -⟩ := Prod.mk.inj (Except.error.inj h)
          exact isProblem_of_checkAll args hargs hall
        · cases h
  | .addrOf e info, hm, _, _, _, h => by
    rw [check] at h
    split at h
    · rename_i hf
      obtain ⟨rfl, -⟩ := Prod.mk.inj (Except.error.inj h)
      exact isProblem_of_functionAddress? hf
    · cases h
    · split at h
      · rename_i htarget
        obtain ⟨rfl, -⟩ := Prod.mk.inj (Except.error.inj h)
        exact e.isProblem_of_check hm htarget
      · split at h
        · cases h
        · obtain ⟨rfl, -⟩ := Prod.mk.inj (Except.error.inj h)
          trivial
  | .composite es info, hm, context, _, _, h => by
    cases context with
    | none =>
      obtain ⟨rfl, -⟩ := Prod.mk.inj (Except.error.inj h)
      trivial
    | some t =>
      rw [check] at h
      split at h
      · obtain ⟨rfl, -⟩ := Prod.mk.inj (Except.error.inj h)
        trivial
      · split at h
        · rename_i hall
          obtain ⟨rfl, -⟩ := Prod.mk.inj (Except.error.inj h)
          exact isProblem_of_checkAll es hm hall
        · cases h
  | .typeArg w info, _, _, _, _, h => by
    obtain ⟨rfl, -⟩ := Prod.mk.inj (Except.error.inj h)
    trivial
  | .foreign _, hm, _, _, _, _ => nomatch hm

theorem isProblem_of_checkAll : (es : List Expr) → misplacedAny? es = none → {slots : List Slot} → {halt : Halt} →
    {left : List Expr} → checkAll site slots es = .error (halt, left) → halt.IsProblem
  | [], _, _, _, _, h => by
    rw [checkAll] at h
    · cases h
    · exact nofun
  | e :: es, hm, slots, _, _, h => by
    obtain ⟨he, hes⟩ := orElse_eq_none_iff.mp hm
    cases slots with
    | nil =>
      rw [checkAll] at h
      · cases h
      · exact nofun
    | cons slot slots =>
      rw [checkAll] at h
      split at h
      · rename_i hoperand
        obtain ⟨rfl, -⟩ := Prod.mk.inj (Except.error.inj h)
        split at hoperand
        · exact isProblem_of_typeOperand he hoperand
        · exact e.isProblem_of_check he hoperand
      · split at h
        · obtain ⟨rfl, -⟩ := Prod.mk.inj (Except.error.inj h)
          trivial
        · split at h
          · rename_i hrest
            obtain ⟨rfl, -⟩ := Prod.mk.inj (Except.error.inj h)
            exact isProblem_of_checkAll es hes hrest
          · cases h

end

end Expr

/-! ## Statements -/

theorem Expr.rootName_of_isTarget : (e : Expr) → e.IsTarget → ∃ name, e.root.rootName = .ok name
  | .ident name _ _, _ => ⟨name, rfl⟩
  | .index b _ _, h => b.rootName_of_isTarget h
  | .int .., h | .real .., h | .byte .., h | .field .., h | .call .., h | .composite .., h | .addrOf .., h
  | .typeArg .., h | .foreign _, h => h.elim

namespace Site

variable {site : Site} {halt : Halt}

theorem isProblem_of_checkTarget {e left : Expr} (ht : e.IsTarget) (hm : e.misplaced? = none)
    (h : site.checkTarget e = .error (halt, left)) : halt.IsProblem := by
  obtain ⟨name, hn⟩ := e.rootName_of_isTarget ht
  rw [checkTarget, hn] at h
  dsimp only at h
  split at h
  · obtain ⟨rfl, -⟩ := Prod.mk.inj (Except.error.inj h)
    trivial
  · exact e.isProblem_of_check hm h

theorem isProblem_of_checkAssign {target value : Expr} {span : Span} {left : Stmt}
    (hs : (Stmt.assign target value span).IsWellFormed) (h : site.checkAssign target value span = .error (halt, left)) :
    halt.IsProblem := by
  obtain ⟨ht, htw, hv⟩ := hs
  unfold checkAssign at h
  split at h
  · rename_i htarget
    obtain ⟨rfl, -⟩ := Prod.mk.inj (Except.error.inj h)
    exact isProblem_of_checkTarget ht (target.misplaced?_eq_none htw) htarget
  · split at h
    · rename_i hvalue
      obtain ⟨rfl, -⟩ := Prod.mk.inj (Except.error.inj h)
      exact value.isProblem_of_check (value.misplaced?_eq_none hv) hvalue
    · split at h
      · cases h
      · obtain ⟨rfl, -⟩ := Prod.mk.inj (Except.error.inj h)
        trivial

theorem isProblem_of_checkCall {e : Expr} {span : Span} {left : Stmt} (hs : (Stmt.call e span).IsWellFormed)
    (h : site.checkCall e span = .error (halt, left)) : halt.IsProblem := by
  obtain ⟨hc, he⟩ := hs
  cases e
  case call callee args info =>
    rw [checkCall] at h
    split at h
    · rename_i hcheck
      obtain ⟨rfl, -⟩ := Prod.mk.inj (Except.error.inj h)
      exact Expr.isProblem_of_check _ (Expr.misplaced?_eq_none _ he) hcheck
    · cases h
  all_goals cases hc

theorem isProblem_of_checkCondition {e left : Expr} (he : e.IsWellFormed)
    (h : site.checkCondition e = .error (halt, left)) : halt.IsProblem := by
  unfold checkCondition at h
  split at h
  · rename_i hcheck
    obtain ⟨rfl, -⟩ := Prod.mk.inj (Except.error.inj h)
    exact e.isProblem_of_check (e.misplaced?_eq_none he) hcheck
  · split at h
    · cases h
    · obtain ⟨rfl, -⟩ := Prod.mk.inj (Except.error.inj h)
      trivial

end Site

namespace Stmt

variable {s : Surroundings}

mutual

/-- The check of a well-formed statement halts at problems only. -/
theorem isProblem_of_check : (stmt : Stmt) → stmt.IsWellFormed → {loops n : Nat} → {halt : Halt} → {left : Stmt} →
    stmt.check s loops n = .error (halt, left) → halt.IsProblem
  | .var _, _, _, _, _, _, h | .label .., _, _, _, _, _, h => nomatch h
  | .assign .., hw, _, _, _, _, h => Site.isProblem_of_checkAssign hw h
  | .call .., hw, _, _, _, _, h => Site.isProblem_of_checkCall hw h
  | .ifThen c body braces otherwise span, hw, _, _, _, _, h => by
    obtain ⟨hc, hbody, -, helse⟩ := hw
    rw [check] at h
    split at h
    · rename_i hcondition
      obtain ⟨rfl, -⟩ := Prod.mk.inj (Except.error.inj h)
      exact Site.isProblem_of_checkCondition hc hcondition
    · split at h
      · rename_i hall
        obtain ⟨rfl, -⟩ := Prod.mk.inj (Except.error.inj h)
        exact isProblem_of_checkAll body hbody hall
      · split at h
        · rename_i hotherwise
          obtain ⟨rfl, -⟩ := Prod.mk.inj (Except.error.inj h)
          exact isProblem_of_checkElse otherwise helse hotherwise
        · cases h
  | .whileDo c body braces span, hw, _, _, _, _, h => by
    obtain ⟨hc, hbody, -⟩ := hw
    rw [check] at h
    split at h
    · rename_i hcondition
      obtain ⟨rfl, -⟩ := Prod.mk.inj (Except.error.inj h)
      exact Site.isProblem_of_checkCondition hc hcondition
    · split at h
      · rename_i hall
        obtain ⟨rfl, -⟩ := Prod.mk.inj (Except.error.inj h)
        exact isProblem_of_checkAll body hbody hall
      · cases h
  | .breakLoop _, _, _, _, _, _, h | .continueLoop _, _, _, _, _, _, h => by
    rw [check] at h
    split at h
    · obtain ⟨rfl, -⟩ := Prod.mk.inj (Except.error.inj h)
      trivial
    · cases h
  | .goto name target span, _, _, _, _, _, h => by
    rw [check, Surroundings.checkGoto] at h
    split at h
    · obtain ⟨rfl, -⟩ := Prod.mk.inj (Except.error.inj h)
      trivial
    · cases h
  | .block body span, hw, _, _, _, _, h => by
    rw [check] at h
    split at h
    · rename_i hall
      obtain ⟨rfl, -⟩ := Prod.mk.inj (Except.error.inj h)
      exact isProblem_of_checkAll body hw hall
    · cases h
  | .foreign _, hw, _, _, _, _, _ => hw.elim

theorem isProblem_of_checkElse : (o : Option Stmt) → IsElse o → {loops n : Nat} → {halt : Halt} →
    {left : Option Stmt} → checkElse s loops n o = .error (halt, left) → halt.IsProblem
  | none, _, _, _, _, _, h => nomatch h
  | some (.block body span), hw, _, _, _, _, h => by
    rw [checkElse] at h
    split at h
    · rename_i hall
      obtain ⟨rfl, -⟩ := Prod.mk.inj (Except.error.inj h)
      exact isProblem_of_checkAll body hw.2 hall
    · cases h
  | some (.ifThen c body braces otherwise span), hw, _, _, _, _, h => by
    rw [checkElse_of_isIf rfl] at h
    split at h
    · rename_i hcheck
      obtain ⟨rfl, -⟩ := Prod.mk.inj (Except.error.inj h)
      exact isProblem_of_check (.ifThen c body braces otherwise span) hw.2 hcheck
    · cases h
  | some (.var _), hw, _, _, _, _, _ | some (.assign ..), hw, _, _, _, _, _ | some (.call ..), hw, _, _, _, _, _
  | some (.whileDo ..), hw, _, _, _, _, _ | some (.breakLoop _), hw, _, _, _, _, _
  | some (.continueLoop _), hw, _, _, _, _, _ | some (.label ..), hw, _, _, _, _, _
  | some (.goto ..), hw, _, _, _, _, _ | some (.foreign _), hw, _, _, _, _, _ => hw.1.elim

theorem isProblem_of_checkAll : (ss : List Stmt) → AreWellFormed ss → {loops n : Nat} → {halt : Halt} →
    {left : List Stmt} → checkAll s loops n ss = .error (halt, left) → halt.IsProblem
  | [], _, _, _, _, _, h => nomatch h
  | stmt :: ss, hw, _, _, _, _, h => by
    rw [checkAll] at h
    split at h
    · rename_i hcheck
      obtain ⟨rfl, -⟩ := Prod.mk.inj (Except.error.inj h)
      exact isProblem_of_check stmt hw.1 hcheck
    · split at h
      · rename_i hrest
        obtain ⟨rfl, -⟩ := Prod.mk.inj (Except.error.inj h)
        exact isProblem_of_checkAll ss hw.2 hrest
      · cases h

end

/-! ## Bodies -/

mutual

/-- What is inside a well-formed statement is well formed. -/
theorem isWellFormed_of_mem_flatten : (s : Stmt) → s.IsWellFormed → ∀ t ∈ s.flatten, t.IsWellFormed
  | .ifThen c body braces otherwise span, h => by
    rw [flatten]
    refine List.forall_mem_append.mpr ⟨List.forall_mem_cons.mpr ⟨h, isWellFormed_of_mem_flattenAll body h.2.1⟩, ?_⟩
    exact isWellFormed_of_mem_flattenElse otherwise h.2.2.2
  | .whileDo c body braces span, h => by
    rw [flatten]
    exact List.forall_mem_cons.mpr ⟨h, isWellFormed_of_mem_flattenAll body h.2.1⟩
  | .block body span, h => by
    rw [flatten]
    exact List.forall_mem_cons.mpr ⟨h, isWellFormed_of_mem_flattenAll body h⟩
  | .var _, h | .assign .., h | .call .., h | .breakLoop _, h | .continueLoop _, h | .label .., h | .goto .., h
  | .foreign _, h => List.forall_mem_singleton.mpr h

theorem isWellFormed_of_mem_flattenElse : (o : Option Stmt) → IsElse o → ∀ t ∈ flattenElse o, t.IsWellFormed
  | some (.ifThen c body braces otherwise span), h => by
    rw [flattenElse]
    refine List.forall_mem_append.mpr ⟨List.forall_mem_cons.mpr ⟨h.2, isWellFormed_of_mem_flattenAll body h.2.2.1⟩, ?_⟩
    exact isWellFormed_of_mem_flattenElse otherwise h.2.2.2.2
  | some (.block body span), h => isWellFormed_of_mem_flattenAll body h.2
  | none, _ => nofun
  | some (.var _), h | some (.assign ..), h | some (.call ..), h | some (.whileDo ..), h | some (.breakLoop _), h
  | some (.continueLoop _), h | some (.label ..), h | some (.goto ..), h | some (.foreign _), h => h.1.elim

theorem isWellFormed_of_mem_flattenAll : (ss : List Stmt) → AreWellFormed ss → ∀ t ∈ flattenAll ss, t.IsWellFormed
  | [], _ => nofun
  | s :: ss, h => by
    rw [flattenAll]
    exact List.forall_mem_append.mpr ⟨isWellFormed_of_mem_flatten s h.1, isWellFormed_of_mem_flattenAll ss h.2⟩

end

mutual

theorem isWellFormed_number (bound : Nat) : (n : Nat) → (s : Stmt) → s.IsWellFormed → (s.number bound n).IsWellFormed
  | n, .ifThen _ body _ otherwise _, h =>
    ⟨h.1, areWellFormed_numberAll bound (n + 1) body h.2.1, h.2.2.1,
      isElse_numberElse bound (n + 1 + sizes body) otherwise h.2.2.2⟩
  | n, .whileDo _ body _ _, h => ⟨h.1, areWellFormed_numberAll bound (n + 1) body h.2.1, h.2.2⟩
  | n, .block body _, h => areWellFormed_numberAll bound (n + 1) body h
  | _, .label .., h => h
  | _, .var _, h | _, .assign .., h | _, .call .., h | _, .breakLoop _, h | _, .continueLoop _, h | _, .goto .., h
  | _, .foreign _, h => h

theorem isElse_numberElse (bound : Nat) : (n : Nat) → (o : Option Stmt) → IsElse o → IsElse (numberElse bound n o)
  | n, some (.ifThen _ body _ otherwise _), h =>
    ⟨trivial, h.2.1, areWellFormed_numberAll bound (n + 1) body h.2.2.1, h.2.2.2.1,
      isElse_numberElse bound (n + 1 + sizes body) otherwise h.2.2.2.2⟩
  | n, some (.block body _), h => ⟨trivial, areWellFormed_numberAll bound n body h.2⟩
  | _, none, h => h
  | _, some (.var _), h | _, some (.assign ..), h | _, some (.call ..), h | _, some (.whileDo ..), h
  | _, some (.breakLoop _), h | _, some (.continueLoop _), h | _, some (.label ..), h | _, some (.goto ..), h
  | _, some (.foreign _), h => h.1.elim

theorem areWellFormed_numberAll (bound : Nat) : (n : Nat) → (ss : List Stmt) → AreWellFormed ss →
    AreWellFormed (numberAll bound n ss)
  | _, [], _ => trivial
  | n, s :: ss, h => ⟨isWellFormed_number bound n s h.1, areWellFormed_numberAll bound (n + s.size) ss h.2⟩

end

end Stmt

end FlatScope
