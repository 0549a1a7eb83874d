/-
  Where problems with expressions are. What halts the check of a node points at the place of the node or of a node in it
  (`Halt.Points`, `Expr.points_of_check`). Of other places it names only that of a variable that the function declares further
  on (`Problem.Cause.IsSeen`).
-/
import FlatScope.Proofs.Delimiting.Node
import FlatScope.Proofs.Resolution.Results
import FlatScope.Proofs.Rewriting.Expr

namespace FlatScope

/-! ## Places -/

/-- A span is that of a node, or of a node in it. -/
inductive Node.Spans (span : Span) : Node → Prop
  | own {n : Node} (h : n.span? = some span) : Spans span n
  | inner {n c : Node} (h : c ∈ n.children) (hc : Spans span c) : Spans span n

namespace Problem.Cause

/-- The place that a cause names, besides the place where the problem is. -/
def place? : Cause → Option Span
  | duplicate d => some d.previous.span
  | usedBeforeDeclaration _ declaration => some declaration
  | _ => none

/-- The place that a cause names, if it names one, is that of a symbol which is declared behind the statement of a
site. -/
def IsSeen (site : Site) (cause : Cause) : Prop :=
  ∀ place, cause.place? = some place → ∃ name later, cause = .usedBeforeDeclaration name place
    ∧ (site.catalog.current.bind fun scope => scope.get? name) = some later ∧ later.isVisible (some site.index) = false
    ∧ later.span = place

theorem IsSeen.of_eq_none {site : Site} {cause : Cause} (h : cause.place? = none) : cause.IsSeen site := by
  intro place hplace
  cases h.symm.trans hplace

end Problem.Cause

/-- A halt at a problem points at a node or a node in it, for a cause that has a property. -/
def Halt.Points (P : Problem.Cause → Prop) (n : Node) : Halt → Prop
  | .problem q => n.Spans q.span ∧ P q.cause
  | .misplaced _ => True

namespace Halt

variable {P Q : Problem.Cause → Prop} {n c : Node} {halt : Halt}

theorem Points.imp (h : halt.Points P n) (hn : ∀ span, n.Spans span → c.Spans span) (hP : ∀ cause, P cause → Q cause) :
    halt.Points Q c := by
  cases halt with
  | problem q => exact ⟨hn q.span h.1, hP q.cause h.2⟩
  | misplaced m => trivial

theorem Points.inner (h : halt.Points P c) (hc : c ∈ n.children) : halt.Points P n :=
  h.imp (fun _ hspan => .inner hc hspan) fun _ hcause => hcause

theorem points_atExpr (e : Expr) {cause : Problem.Cause} (hcause : P cause) : (Halt.atExpr e cause).Points P (.expr e) := by
  cases e with
  | foreign node =>
    obtain ⟨className, text, name, span⟩ := node
    cases span with
    | none => trivial
    | some span => exact ⟨.own rfl, hcause⟩
  | _ => exact ⟨.own rfl, hcause⟩

end Halt

/-! ## Types -/

/-- A cause that names no place. -/
abbrev Problem.Cause.IsAlone (cause : Problem.Cause) : Prop := cause.place? = none

namespace Catalog

variable {c : Catalog} {cause : Problem.Cause}

theorem isAlone_of_namedType {allowVoid : Bool} {name : String} (h : c.namedType allowVoid name = .error cause) : cause.IsAlone := by
  unfold namedType at h
  split at h
  · split at h <;> cases h
    rfl
  · split at h
    · cases h
    · split at h
      · cases h
        rfl
      · split at h <;> cases h
        rfl

theorem isAlone_of_arraySize {at? : Option Int} {size : ArraySize} (h : c.arraySize at? size = .error cause) : cause.IsAlone := by
  have hpositive {n : Int} (h : (if 0 < n then pure n else throw (.sizeNotPositive n) : Except Problem.Cause Int) = .error cause) :
      cause.IsAlone := by
    split at h <;> cases h
    rfl
  cases size with
  | int n => exact hpositive h
  | name name =>
    rw [arraySize] at h
    cases hn : c.intConstant? name at? with
    | some n =>
      rw [hn] at h
      exact hpositive h
    | none =>
      rw [hn] at h
      cases h
      rfl

end Catalog

namespace TypeExpr

variable {c : Catalog} {at? : Option Int} {halt : Halt}

mutual

/-- A written type that stands for none has the problem in itself. -/
theorem points_of_resolve : (w : TypeExpr) → {allowVoid : Bool} → w.resolve c at? allowVoid = .error halt →
    halt.Points Problem.Cause.IsAlone (.type w)
  | .named name span, _, h => by
    obtain ⟨cause, hcause, rfl⟩ := Except.mapError_eq_error.mp h
    exact ⟨.own rfl, Catalog.isAlone_of_namedType hcause⟩
  | .pointer e _, _, h => by
    rw [resolve] at h
    obtain h | ⟨t, -, h⟩ := Except.bind_eq_error.mp h
    · exact (e.points_of_resolve h).inner List.mem_cons_self
    · cases h
  | .array e size span, _, h => by
    rw [resolve] at h
    obtain h | ⟨t, -, h⟩ := Except.bind_eq_error.mp h
    · exact (e.points_of_resolve h).inner List.mem_cons_self
    · obtain h | ⟨n, -, h⟩ := Except.bind_eq_error.mp h
      · obtain ⟨cause, hcause, rfl⟩ := Except.mapError_eq_error.mp h
        exact ⟨.own rfl, Catalog.isAlone_of_arraySize hcause⟩
      · cases h
  | .func r ps _, _, h => by
    rw [resolve] at h
    obtain h | ⟨ts, -, h⟩ := Except.bind_eq_error.mp h
    · obtain ⟨w, hw, hpoints⟩ := points_of_resolveAll ps h
      exact hpoints.inner (List.mem_cons_of_mem _ (List.mem_map_of_mem hw))
    · obtain h | ⟨t, -, h⟩ := Except.bind_eq_error.mp h
      · exact (r.points_of_resolve h).inner List.mem_cons_self
      · cases h
  | .foreign _, _, h => by
    obtain rfl := Except.error.inj h
    trivial

theorem points_of_resolveAll : (ws : List TypeExpr) → resolveAll c at? ws = .error halt →
    ∃ w ∈ ws, halt.Points Problem.Cause.IsAlone (.type w)
  | [], h => nomatch h
  | w :: ws, h => by
    rw [resolveAll] at h
    obtain h | ⟨t, -, h⟩ := Except.bind_eq_error.mp h
    · exact ⟨w, List.mem_cons_self, w.points_of_resolve h⟩
    · obtain h | ⟨ts, -, h⟩ := Except.bind_eq_error.mp h
      · obtain ⟨w', hw', hpoints⟩ := points_of_resolveAll ws h
        exact ⟨w', List.mem_cons_of_mem w hw', hpoints⟩
      · cases h

end

end TypeExpr

/-- The type that an expression spells has its places from the expression. -/
theorem Expr.spans_of_asType? {span : Span} : (e : Expr) → {w : TypeExpr} → e.asType? = some w → (Node.type w).Spans span →
    (Node.expr e).Spans span
  | .ident name symbol info, w, hw, h => by
    obtain rfl := Option.some.inj hw
    cases h with
    | own h => exact .own h
    | inner hc => cases hc
  | .index b i info, w, hw, h => by
    rw [asType?] at hw
    obtain ⟨element, helement, hw⟩ := Option.bind_eq_some_iff.mp hw
    obtain ⟨size, -, hw⟩ := Option.bind_eq_some_iff.mp hw
    obtain rfl := Option.some.inj hw
    cases h with
    | own h => exact .own h
    | inner hc h =>
      obtain rfl := List.mem_singleton.mp hc
      exact .inner List.mem_cons_self (b.spans_of_asType? helement h)
  | .int .., _, hw, _ | .real .., _, hw, _ | .byte .., _, hw, _ | .field .., _, hw, _ | .call .., _, hw, _ | .composite .., _, hw, _
  | .addrOf .., _, hw, _ | .typeArg .., _, hw, _ | .foreign _, _, hw, _ => nomatch hw

/-- An operand that is to be allocated is a written type, or spells one. -/
theorem Expr.writtenType?_eq_some {e : Expr} {w : TypeExpr} {info : Info} (h : e.writtenType? = some (w, info)) :
    e = .typeArg w info ∨ e.asType? = some w ∧ info = { span := e.span } := by
  have hspelled (h : (e.asType?.map fun w => (w, ({ span := e.span } : Info))) = some (w, info)) :
      e.asType? = some w ∧ info = { span := e.span } := by
    obtain ⟨w', hw', heq⟩ := Option.map_eq_some_iff.mp h
    obtain ⟨rfl, rfl⟩ := Prod.mk.inj heq
    exact ⟨hw', rfl⟩
  cases e with
  | typeArg w' info' =>
    obtain ⟨rfl, rfl⟩ := Prod.mk.inj (Option.some.inj h)
    exact .inl rfl
  | _ => exact .inr (hspelled h)

/-! ## Names, selectors and operands -/

namespace Site

variable {site : Site} {halt : Halt} {cause : Problem.Cause} {e e' left : Expr} {t : Ty} {name : String}

/-- A name that is no value yet is declared further on. -/
theorem isSeen_of_value (h : site.value name = .error cause) : cause.IsSeen site := by
  unfold value at h
  split at h
  · rename_i hlookup
    split at h
    · cases h
      exact .of_eq_none rfl
    · split at h
      · rename_i later hlater
        cases h
        intro place hplace
        obtain rfl := Option.some.inj hplace
        refine ⟨name, later, rfl, hlater, ?_, rfl⟩
        by_contra hvisible
        rw [Bool.not_eq_false] at hvisible
        rw [lookup, Catalog.lookup, hlater, Option.filter_some, if_pos hvisible] at hlookup
        cases hlookup
      · cases h
        exact .of_eq_none rfl
  · split at h
    all_goals first
      | (cases h; exact .of_eq_none rfl)
      | cases h

theorem isAlone_of_fieldType (h : site.fieldType t name = .error cause) : cause.IsAlone := by
  unfold fieldType at h
  split at h
  · split at h
    · cases h
      rfl
    · split at h <;> cases h
      rfl
  · cases h
    rfl

theorem points_of_select {n : Node} {base : Expr} {span : Span} (hspan : n.Spans span)
    (h : site.select base t name span left = .error (halt, e)) : halt.Points (Problem.Cause.IsSeen site) n := by
  unfold select at h
  split at h
  · rename_i hfield
    obtain ⟨rfl, -⟩ := Prod.mk.inj (Except.error.inj h)
    exact ⟨hspan, .of_eq_none (isAlone_of_fieldType hfield)⟩
  · cases h

theorem isAlone_of_elementSlots {count : Nat} (h : site.catalog.elementSlots t count = .error cause) : cause.IsAlone := by
  unfold Catalog.elementSlots at h
  split at h
  · split at h <;> cases h
    rfl
  · split at h
    · cases h
      rfl
    · split at h <;> cases h
      rfl
  · cases h
    rfl

theorem points_of_typeOperand (h : site.typeOperand e = .error (halt, left)) : halt.Points (Problem.Cause.IsSeen site) (.expr e) := by
  rw [typeOperand_eq] at h
  cases hw : e.writtenType? with
  | none =>
    rw [hw] at h
    obtain ⟨rfl, -⟩ := Prod.mk.inj (Except.error.inj h)
    exact Halt.points_atExpr e (.of_eq_none rfl)
  | some written =>
    obtain ⟨w, info⟩ := written
    rw [hw] at h
    dsimp only at h
    unfold writtenOperand at h
    split at h
    · rename_i hresolve
      obtain ⟨rfl, -⟩ := Prod.mk.inj (Except.error.inj h)
      refine (w.points_of_resolve hresolve).imp (fun span hspan => ?_) fun _ => .of_eq_none
      obtain rfl | ⟨hspelled, -⟩ := Expr.writtenType?_eq_some hw
      · exact .inner List.mem_cons_self hspan
      · exact e.spans_of_asType? hspelled hspan
    · cases h

/-- A checked operand is where the operand is. -/
theorem span_of_operand {slot : Slot} (h : site.operand slot e = .ok (e', t)) : e'.span = e.span := by
  unfold operand at h
  split at h
  · rw [typeOperand_eq] at h
    cases hw : e.writtenType? with
    | none =>
      rw [hw] at h
      cases h
    | some written =>
      obtain ⟨w, info⟩ := written
      rw [hw] at h
      dsimp only at h
      unfold writtenOperand at h
      split at h
      · cases h
      · obtain ⟨rfl, -⟩ := Prod.mk.inj (Except.ok.inj h)
        obtain rfl | ⟨-, rfl⟩ := Expr.writtenType?_eq_some hw <;> rfl
  · have hbecomes := (e.isTraced site).after slot.context
    rw [h] at hbecomes
    exact hbecomes.span

theorem points_of_callForm? {args : List Expr} {info : Info} (h : site.callForm? info.span e = .error halt) :
    halt.Points (Problem.Cause.IsSeen site) (.expr (.call e args info)) := by
  cases e with
  | ident name symbol infoName =>
    have hname : (Node.expr (.call (.ident name symbol infoName) args info)).Spans infoName.span :=
      .inner List.mem_cons_self (.own rfl)
    rw [callForm?] at h
    split at h
    · split at h
      · cases h
      · cases h
      · obtain rfl := Except.error.inj h
        exact ⟨.own rfl, .of_eq_none rfl⟩
      · split at h
        · cases h
        · obtain rfl := Except.error.inj h
          exact ⟨hname, .of_eq_none rfl⟩
    · split at h
      · cases h
      · split at h
        all_goals first
          | (obtain rfl := Except.error.inj h; exact ⟨hname, .of_eq_none rfl⟩)
          | cases h
  | _ => cases h

theorem points_of_functionAddress? (h : site.functionAddress? e = .error halt) :
    halt.Points (Problem.Cause.IsSeen site) (.expr e) := by
  cases e with
  | ident name symbol info =>
    rw [functionAddress?] at h
    split at h
    · split at h
      · cases h
      · obtain rfl := Except.error.inj h
        exact ⟨.own rfl, .of_eq_none rfl⟩
    · split at h
      · obtain rfl := Except.error.inj h
        exact ⟨.own rfl, .of_eq_none rfl⟩
      · cases h
  | _ => cases h

end Site

theorem Slot.isAlone_of_refusal? {slot : Slot} {t : Ty} {cause : Problem.Cause} (h : slot.refusal? t = some cause) :
    cause.IsAlone := by
  cases slot with
  | argument _ _ expected | element _ _ expected =>
    rw [refusal?] at h
    split at h <;> cases h
    rfl
  | allocated => cases h
  | freed =>
    cases t with
    | pointer _ => cases h
    | _ =>
      cases h
      rfl

theorem CallForm.isAlone_of_slots {form : CallForm} {count : Nat} {cause : Problem.Cause} (h : form.slots count = .error cause) :
    cause.IsAlone := by
  cases form with
  | fixed callee s =>
    rw [slots] at h
    split at h <;> cases h
    rfl
  | alloc =>
    unfold slots at h
    dsimp only at h
    split at h <;> cases h
    rfl
  | free =>
    rw [slots] at h
    split at h <;> cases h
    rfl

/-! ## Expressions -/

namespace Expr

variable {site : Site}

/-- An expression that is checked is where it was. -/
theorem span_of_check {e e' : Expr} {context : Option Ty} {t : Ty} (h : e.check site context = .ok (e', t)) : e'.span = e.span := by
  have hbecomes := (e.isTraced site).after context
  rw [h] at hbecomes
  exact hbecomes.span

mutual

/-- What halts the check of an expression points at the expression or at one in it. -/
theorem points_of_check : (e : Expr) → {context : Option Ty} → {halt : Halt} → {left : Expr} →
    e.check site context = .error (halt, left) → halt.Points (Problem.Cause.IsSeen site) (.expr e)
  | .int .., _, _, _, h | .real .., _, _, _, h | .byte .., _, _, _, h => nomatch h
  | .ident name symbol info, _, _, _, h => by
    rw [check] at h
    split at h
    · rename_i hvalue
      obtain ⟨rfl, -⟩ := Prod.mk.inj (Except.error.inj h)
      exact ⟨.own rfl, Site.isSeen_of_value hvalue⟩
    · cases h
  | .index b i info, _, _, _, h => by
    rw [check] at h
    split at h
    · rename_i hbase
      obtain ⟨rfl, -⟩ := Prod.mk.inj (Except.error.inj h)
      exact (b.points_of_check hbase).inner List.mem_cons_self
    · have hi : Node.expr i ∈ (Node.expr (.index b i info)).children := List.mem_cons_of_mem _ List.mem_cons_self
      split at h
      · split at h
        · obtain ⟨rfl, -⟩ := Prod.mk.inj (Except.error.inj h)
          exact (Halt.points_atExpr i (.of_eq_none rfl)).inner hi
        · exact Site.points_of_select (.own rfl) h
      · split at h
        · obtain ⟨rfl, -⟩ := Prod.mk.inj (Except.error.inj h)
          exact ⟨.own rfl, .of_eq_none rfl⟩
        · split at h
          · rename_i hindex
            obtain ⟨rfl, -⟩ := Prod.mk.inj (Except.error.inj h)
            exact (i.points_of_check hindex).inner hi
          · rename_i hindex
            split at h
            · cases h
            · obtain ⟨rfl, -⟩ := Prod.mk.inj (Except.error.inj h)
              exact ⟨.inner hi (.own (congrArg some (span_of_check hindex).symm)), .of_eq_none rfl⟩
  | .field b name info, _, _, _, h => by
    rw [check] at h
    split at h
    · rename_i hbase
      obtain ⟨rfl, -⟩ := Prod.mk.inj (Except.error.inj h)
      exact (b.points_of_check hbase).inner List.mem_cons_self
    · exact Site.points_of_select (.own rfl) h
  | .call callee args info, _, _, _, h => by
    rw [check] at h
    split at h
    · rename_i hcalled
      obtain ⟨rfl, -⟩ := Prod.mk.inj (Except.error.inj h)
      split at hcalled
      · rename_i hform
        obtain ⟨rfl, -⟩ := Prod.mk.inj (Except.error.inj hcalled)
        exact Site.points_of_callForm? hform
      · cases hcalled
      · split at hcalled
        · rename_i hcheck
          obtain rfl := Except.error.inj hcalled
          exact (callee.points_of_check hcheck).inner List.mem_cons_self
        · cases hcalled
        · rename_i hcheck
          obtain ⟨rfl, -⟩ := Prod.mk.inj (Except.error.inj hcalled)
          exact ⟨.inner List.mem_cons_self (.own (congrArg some (span_of_check hcheck).symm)), .of_eq_none rfl⟩
    · split at h
      · rename_i hslots
        obtain ⟨rfl, -⟩ := Prod.mk.inj (Except.error.inj h)
        exact ⟨.own rfl, .of_eq_none (CallForm.isAlone_of_slots hslots)⟩
      · split at h
        · rename_i hall
          obtain ⟨rfl, -⟩ := Prod.mk.inj (Except.error.inj h)
          obtain ⟨e, he, hpoints⟩ := points_of_checkAll args hall
          exact hpoints.inner (List.mem_cons_of_mem _ (List.mem_map_of_mem he))
        · cases h
  | .addrOf e info, _, _, _, h => by
    rw [check] at h
    split at h
    · rename_i hf
      obtain ⟨rfl, -⟩ := Prod.mk.inj (Except.error.inj h)
      exact (Site.points_of_functionAddress? hf).inner List.mem_cons_self
    · cases h
    · split at h
      · rename_i htarget
        obtain ⟨rfl, -⟩ := Prod.mk.inj (Except.error.inj h)
        exact (e.points_of_check htarget).inner List.mem_cons_self
      · rename_i htarget
        split at h
        · cases h
        · obtain ⟨rfl, -⟩ := Prod.mk.inj (Except.error.inj h)
          exact ⟨.inner List.mem_cons_self (.own (congrArg some (span_of_check htarget).symm)), .of_eq_none rfl⟩
  | .composite es info, context, _, _, h => by
    cases context with
    | none =>
      obtain ⟨rfl, -⟩ := Prod.mk.inj (Except.error.inj h)
      exact ⟨.own rfl, .of_eq_none rfl⟩
    | some t =>
      rw [check] at h
      split at h
      · rename_i hslots
        obtain ⟨rfl, -⟩ := Prod.mk.inj (Except.error.inj h)
        exact ⟨.own rfl, .of_eq_none (Site.isAlone_of_elementSlots hslots)⟩
      · split at h
        · rename_i hall
          obtain ⟨rfl, -⟩ := Prod.mk.inj (Except.error.inj h)
          obtain ⟨e, he, hpoints⟩ := points_of_checkAll es hall
          exact hpoints.inner (List.mem_map_of_mem he)
        · cases h
  | .typeArg w info, _, _, _, h => by
    obtain ⟨rfl, -⟩ := Prod.mk.inj (Except.error.inj h)
    exact ⟨.own rfl, .of_eq_none rfl⟩
  | .foreign _, _, _, _, h => by
    obtain ⟨rfl, -⟩ := Prod.mk.inj (Except.error.inj h)
    trivial

theorem points_of_checkAll : (es : List Expr) → {slots : List Slot} → {halt : Halt} → {left : List Expr} →
    checkAll site slots es = .error (halt, left) → ∃ e ∈ es, halt.Points (Problem.Cause.IsSeen site) (.expr e)
  | [], slots, _, _, h => by
    rw [checkAll_nil_left] at h
    cases h
  | e :: es, [], _, _, h => by
    rw [checkAll_no_slots] at h
    cases h
  | e :: es, slot :: slots, _, _, h => by
    rw [checkAll_cons] at h
    split at h
    · rename_i hoperand
      obtain ⟨rfl, -⟩ := Prod.mk.inj (Except.error.inj h)
      refine ⟨e, List.mem_cons_self, ?_⟩
      unfold Site.operand at hoperand
      split at hoperand
      · exact Site.points_of_typeOperand hoperand
      · exact e.points_of_check hoperand
    · rename_i hoperand
      split at h
      · rename_i hrefusal
        obtain ⟨rfl, -⟩ := Prod.mk.inj (Except.error.inj h)
        exact ⟨e, List.mem_cons_self, .own (congrArg some (Site.span_of_operand hoperand).symm),
          .of_eq_none (Slot.isAlone_of_refusal? hrefusal)⟩
      · split at h
        · rename_i hrest
          obtain ⟨rfl, -⟩ := Prod.mk.inj (Except.error.inj h)
          obtain ⟨e', he', hpoints⟩ := points_of_checkAll es hrest
          exact ⟨e', List.mem_cons_of_mem e he', hpoints⟩
        · cases h

end

end Expr

end FlatScope
