/-
  What resolving makes of a statement (`Stmt.Becomes`). Every statement keeps its form, its place, its braces and its
  statements in order; labels and jumps get numbers, and expressions become what they may become. Numbering keeps to this
  and so does a check, wherever it ends (`FuncDecl.becomes_work`).
-/
import FlatScope.Proofs.Resolution.Body
import FlatScope.Proofs.Rewriting.Expr

namespace FlatScope

namespace Stmt

mutual

/-- What may become of a statement. -/
inductive Becomes : Stmt → Stmt → Prop
  | var {d : VarDecl} : Becomes (.var d) (.var d)
  | assign {target target' value value' : Expr} {span : Span} (ht : target.Becomes target') (hv : value.Becomes value') :
    Becomes (.assign target value span) (.assign target' value' span)
  | call {e e' : Expr} {span : Span} (he : e.Becomes e') : Becomes (.call e span) (.call e' span)
  | ifThen {c c' : Expr} {body body' : List Stmt} {braces : Braces} {o o' : Option Stmt} {span : Span} (hc : c.Becomes c')
    (hb : AllBecome body body') (ho : ElseBecomes o o') :
    Becomes (.ifThen c body braces o span) (.ifThen c' body' braces o' span)
  | whileDo {c c' : Expr} {body body' : List Stmt} {braces : Braces} {span : Span} (hc : c.Becomes c')
    (hb : AllBecome body body') : Becomes (.whileDo c body braces span) (.whileDo c' body' braces span)
  | breakLoop {span : Span} : Becomes (.breakLoop span) (.breakLoop span)
  | continueLoop {span : Span} : Becomes (.continueLoop span) (.continueLoop span)
  | label {name : String} {index index' : Option Nat} {span : Span} :
    Becomes (.label name index span) (.label name index' span)
  | goto {label : String} {target target' : Option Nat} {span : Span} :
    Becomes (.goto label target span) (.goto label target' span)
  | block {body body' : List Stmt} {span : Span} (hb : AllBecome body body') : Becomes (.block body span) (.block body' span)
  | foreign {node : Foreign} : Becomes (.foreign node) (.foreign node)

/-- What may become of what follows an `else`. -/
inductive ElseBecomes : Option Stmt → Option Stmt → Prop
  | none : ElseBecomes none none
  | some {s s' : Stmt} (hs : Becomes s s') : ElseBecomes (some s) (some s')

/-- What may become of statements, one by one. -/
inductive AllBecome : List Stmt → List Stmt → Prop
  | nil : AllBecome [] []
  | cons {s s' : Stmt} {ss ss' : List Stmt} (hs : Becomes s s') (hss : AllBecome ss ss') :
    AllBecome (s :: ss) (s' :: ss')

end

/-! ## Becoming the same -/

mutual

theorem Becomes.refl : (s : Stmt) → s.Becomes s
  | .var _ => .var
  | .assign target value _ => .assign (.refl target) (.refl value)
  | .call e _ => .call (.refl e)
  | .ifThen c body _ o _ => .ifThen (.refl c) (.refl body) (.refl o)
  | .whileDo c body _ _ => .whileDo (.refl c) (.refl body)
  | .breakLoop _ => .breakLoop
  | .continueLoop _ => .continueLoop
  | .label .. => .label
  | .goto .. => .goto
  | .block body _ => .block (.refl body)
  | .foreign _ => .foreign

theorem ElseBecomes.refl : (o : Option Stmt) → ElseBecomes o o
  | none => .none
  | some s => .some (.refl s)

theorem AllBecome.refl : (ss : List Stmt) → AllBecome ss ss
  | [] => .nil
  | s :: ss => .cons (.refl s) (.refl ss)

end

/-! ## Numbering -/

mutual

/-- What becomes of a statement with the numbers of its labels may become of the statement. -/
theorem Becomes.of_number (bound n : Nat) (s : Stmt) {s' : Stmt} (h : (s.number bound n).Becomes s') : s.Becomes s' := by
  cases s with
  | var _ | assign _ _ _ | call _ _ | breakLoop _ | continueLoop _ | goto _ _ _ | foreign _ => exact h
  | label name index span =>
    rw [number] at h
    cases h
    exact .label
  | ifThen c body braces o span =>
    rw [number] at h
    cases h with
    | ifThen hc hb ho => exact .ifThen hc (.of_numberAll bound _ body hb) (.of_numberElse bound _ o ho)
  | whileDo c body braces span =>
    rw [number] at h
    cases h with
    | whileDo hc hb => exact .whileDo hc (.of_numberAll bound _ body hb)
  | block body span =>
    rw [number] at h
    cases h with
    | block hb => exact .block (.of_numberAll bound _ body hb)

theorem ElseBecomes.of_numberElse (bound n : Nat) (o : Option Stmt) {o' : Option Stmt}
    (h : ElseBecomes (numberElse bound n o) o') : ElseBecomes o o' := by
  match o with
  | some (.ifThen c body braces o span) =>
    rw [numberElse] at h
    cases h with
    | some h =>
      cases h with
      | ifThen hc hb ho => exact .some (.ifThen hc (.of_numberAll bound _ body hb) (.of_numberElse bound _ o ho))
  | some (.block body span) =>
    rw [numberElse] at h
    cases h with
    | some h =>
      cases h with
      | block hb => exact .some (.block (.of_numberAll bound _ body hb))
  | some (.var _) | some (.assign ..) | some (.call ..) | some (.whileDo ..) | some (.breakLoop _)
  | some (.continueLoop _) | some (.label ..) | some (.goto ..) | some (.foreign _) | none => exact h

theorem AllBecome.of_numberAll (bound n : Nat) (ss : List Stmt) {ss' : List Stmt}
    (h : AllBecome (numberAll bound n ss) ss') : AllBecome ss ss' := by
  cases ss with
  | nil => exact h
  | cons s ss =>
    rw [numberAll] at h
    cases h with
    | cons hs hss => exact .cons (.of_number bound n s hs) (.of_numberAll bound _ ss hss)

end

end Stmt

/-! ## Simple statements -/

namespace Site

variable (site : Site)

theorem checkTarget_becomes (target : Expr) : target.Becomes ((site.checkTarget target).after Prod.fst) := by
  unfold checkTarget
  split
  · exact .refl target
  · split
    · exact .refl target
    · exact (target.isTraced site).after none

theorem checkAssign_becomes (target value : Expr) (span : Span) :
    (Stmt.assign target value span).Becomes ((site.checkAssign target value span).after id) := by
  have htarget := site.checkTarget_becomes target
  unfold checkAssign
  cases ht : site.checkTarget target with
  | error left =>
    rw [ht] at htarget
    exact .assign htarget (.refl value)
  | ok r =>
    obtain ⟨target', t⟩ := r
    rw [ht] at htarget
    have hvalue := (value.isTraced site).after (some t)
    dsimp only
    cases hv : value.check site (some t) with
    | error left =>
      rw [hv] at hvalue
      exact .assign htarget hvalue
    | ok r =>
      rw [hv] at hvalue
      dsimp only
      split <;> exact .assign htarget hvalue

theorem checkCall_becomes (e : Expr) (span : Span) : (Stmt.call e span).Becomes ((site.checkCall e span).after id) := by
  have hcall := (e.isTraced site).after none
  unfold checkCall
  split
  · split
    all_goals
      rename_i hc
      rw [hc] at hcall
      exact .call hcall
  · exact .refl _

theorem checkCondition_becomes (e : Expr) : e.Becomes ((site.checkCondition e).after id) := by
  have hcheck := (e.isTraced site).after none
  have hbehind := (e.isTraced site).behind none
  unfold checkCondition
  cases hc : e.check site none with
  | error left =>
    rw [hc] at hcheck
    exact hcheck
  | ok r =>
    obtain ⟨e', t⟩ := r
    rw [hc] at hcheck
    dsimp only
    split
    · exact hcheck
    · exact hbehind e' t hc

end Site

/-! ## All statements -/

namespace Stmt

variable (s : Surroundings)

mutual

/-- A check of a statement leaves what may become of it. -/
theorem check_becomes (loops n : Nat) : (stmt : Stmt) → stmt.Becomes ((stmt.check s loops n).after id)
  | .assign target value span => (s.site n).checkAssign_becomes target value span
  | .call e span => (s.site n).checkCall_becomes e span
  | .ifThen c body braces otherwise span => by
    have hcondition := (s.site n).checkCondition_becomes c
    have hbody := checkAll_becomes loops (n + 1) body
    have helse := checkElse_becomes loops (n + 1 + sizes body) otherwise
    rw [check]
    cases hc : (s.site n).checkCondition c with
    | error left =>
      rw [hc] at hcondition
      exact .ifThen hcondition (.refl body) (.refl otherwise)
    | ok c' =>
      rw [hc] at hcondition
      cases hb : checkAll s loops (n + 1) body with
      | error left =>
        rw [hb] at hbody
        exact .ifThen hcondition hbody (.refl otherwise)
      | ok body' =>
        rw [hb] at hbody
        cases ho : checkElse s loops (n + 1 + sizes body) otherwise with
        | error left | ok otherwise' =>
          rw [ho] at helse
          exact .ifThen hcondition hbody helse
  | .whileDo c body braces span => by
    have hcondition := (s.site n).checkCondition_becomes c
    have hbody := checkAll_becomes (loops + 1) (n + 1) body
    rw [check]
    cases hc : (s.site n).checkCondition c with
    | error left =>
      rw [hc] at hcondition
      exact .whileDo hcondition (.refl body)
    | ok c' =>
      rw [hc] at hcondition
      cases hb : checkAll s (loops + 1) (n + 1) body with
      | error left | ok body' =>
        rw [hb] at hbody
        exact .whileDo hcondition hbody
  | .block body span => by
    have hbody := checkAll_becomes loops (n + 1) body
    rw [check]
    cases hb : checkAll s loops (n + 1) body with
    | error left | ok body' =>
      rw [hb] at hbody
      exact .block hbody
  | .breakLoop span | .continueLoop span => by
    rw [check]
    split <;> exact .refl _
  | .goto name target span => by
    rw [check]
    unfold Surroundings.checkGoto
    split <;> exact .goto
  | .var _ | .label .. | .foreign _ => .refl _

theorem checkElse_becomes (loops n : Nat) : (o : Option Stmt) → ElseBecomes o ((checkElse s loops n o).after id)
  | some (.ifThen c body braces otherwise span) => by
    have hcheck := check_becomes loops n (ifThen c body braces otherwise span)
    rw [checkElse_of_isIf rfl]
    cases hc : (ifThen c body braces otherwise span).check s loops n with
    | error left | ok branch =>
      rw [hc] at hcheck
      exact .some hcheck
  | some (.block body span) => by
    have hbody := checkAll_becomes loops n body
    rw [checkElse]
    cases hb : checkAll s loops n body with
    | error left | ok body' =>
      rw [hb] at hbody
      exact .some (.block hbody)
  | some (.var _) | some (.assign ..) | some (.call ..) | some (.whileDo ..) | some (.breakLoop _)
  | some (.continueLoop _) | some (.label ..) | some (.goto ..) | some (.foreign _) | none => .refl _

theorem checkAll_becomes (loops n : Nat) : (ss : List Stmt) → AllBecome ss ((checkAll s loops n ss).after id)
  | [] => .nil
  | stmt :: rest => by
    have hstmt := check_becomes loops n stmt
    have hrest := checkAll_becomes loops (n + stmt.size) rest
    rw [checkAll]
    cases hs : stmt.check s loops n with
    | error left =>
      rw [hs] at hstmt
      exact .cons hstmt (.refl rest)
    | ok stmt' =>
      rw [hs] at hstmt
      cases hr : checkAll s loops (n + stmt.size) rest with
      | error left | ok rest' =>
        rw [hr] at hrest
        exact .cons hstmt hrest

end

end Stmt

/-! ## Bodies -/

namespace FuncDecl

/-- What may become of a function: only its body may change. -/
def Becomes (d d' : FuncDecl) : Prop := ∃ body, d' = { d with body } ∧ Stmt.AllBecome d.body body

theorem Becomes.refl (d : FuncDecl) : d.Becomes d := ⟨d.body, rfl, .refl d.body⟩

variable (b : Builtins) (c : Catalog) (d : FuncDecl)

theorem becomes_workStatements (collected : Collected) : d.Becomes (d.workStatements b c collected).decl := by
  have hnumbered := Stmt.AllBecome.of_numberAll collected.count 0 d.body (.refl _)
  have hchecked := Stmt.AllBecome.of_numberAll collected.count 0 d.body
    (Stmt.checkAll_becomes ⟨b, c.within collected.scope, d.name⟩ 0 0 _)
  unfold workStatements
  cases collected.halt with
  | some halt => exact ⟨_, rfl, hnumbered⟩
  | none =>
    dsimp only
    split
    all_goals
      rename_i hc
      rw [hc] at hchecked
      exact ⟨_, rfl, hchecked⟩

/-- Work on a function leaves what may become of it, wherever the work ends. -/
theorem becomes_work (s : Signature) : d.Becomes (d.work b c s).decl := by
  unfold work
  split
  · exact .refl d
  · split
    · exact .refl d
    · exact d.becomes_workStatements b c _

end FuncDecl

end FlatScope
