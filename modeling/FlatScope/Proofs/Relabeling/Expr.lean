/-
  Expressions are checked in other labels as in the old ones (`Expr.check_relabel`): the check gives the same tree and the
  same type in the new labels, or halts at the same problem with the same tree left behind. For each form of an
  expression the parts are checked in the same order on both sides, so the proof goes down the tree once.
-/
import FlatScope.Proofs.Relabeling.Operand

namespace FlatScope

variable {φ : Relabeling} {site site' : Site}

/-- An expression is checked in other labels as in the old ones, whatever its context. -/
def Expr.IsMirrored (φ : Relabeling) (site site' : Site) (e : Expr) : Prop :=
  ∀ context : Option Ty,
    (e.relabel φ).check site' (context.map (Ty.relabel φ)) = φ.checked (relabel φ) φ.typed (e.check site context)

theorem Expr.IsMirrored.check_none {e : Expr} (he : e.IsMirrored φ site site') :
    (e.relabel φ).check site' none = φ.checked (relabel φ) φ.typed (e.check site none) := he none

/-- Operands with their types in other labels. -/
def Relabeling.typedAll (φ : Relabeling) (r : List Expr × List Ty) : List Expr × List Ty :=
  (r.1.map (Expr.relabel φ), r.2.map (Ty.relabel φ))

namespace Site.Mirrors

theorem operand (h : site.Mirrors φ site') (slot : Slot) {e : Expr} (he : e.IsMirrored φ site site') :
    site'.operand (slot.relabel φ) (e.relabel φ) = φ.checked (Expr.relabel φ) φ.typed (site.operand slot e) := by
  unfold Site.operand
  by_cases hs : slot = .allocated
  · rw [if_pos hs, if_pos (Slot.relabel_eq_allocated.mpr hs), h.typeOperand]
  · rw [if_neg hs, if_neg (mt Slot.relabel_eq_allocated.mp hs), Slot.context_relabel, he]

theorem behind (h : site.Mirrors φ site') (base : Expr) (t : Ty) {i : Expr} (hi : i.IsMirrored φ site site')
    (info : Info) : site'.behind (base.relabel φ) (t.relabel φ) (i.relabel φ) (info.relabel φ)
      = φ.checked (Expr.relabel φ) φ.typed (site.behind base t i info) := by
  have hindexed : site'.indexed (base.relabel φ) (t.relabel φ) (i.relabel φ) (info.relabel φ)
      = φ.checked (Expr.relabel φ) φ.typed (site.indexed base t i info) := by
    unfold Site.indexed
    rw [Ty.element?_relabel, hi.check_none]
    cases t.element? with
    | none => rfl
    | some element =>
      cases i.check site none with
      | error left => rfl
      | ok r =>
        obtain ⟨i', u⟩ := r
        by_cases hu : u = .int
        · simp [Relabeling.checked, Relabeling.typed, hu, Expr.relabel, Info.relabel]
        · simp [Relabeling.checked, Relabeling.typed, hu, Ty.relabel_eq_int, Expr.relabel, Problem.Cause.relabel]
  cases t with
  | struct name =>
    show site'.selected (base.relabel φ) (φ.name name) (i.relabel φ) (info.relabel φ)
      = φ.checked (Expr.relabel φ) φ.typed (site.selected base name i info)
    unfold Site.selected
    rw [Expr.ident?_relabel]
    cases i.ident? with
    | none => simp [Relabeling.checked, Problem.Cause.relabel, ← Halt.atExpr_relabel, Expr.relabel]
    | some field => exact h.select base (.struct name) field info.span (.index base i info)
  | primitive _ | void | pointer _ | array _ _ | func _ _ => exact hindexed

end Site.Mirrors

namespace Expr

theorem isMirrored_ident (h : site.Mirrors φ site') (name : String) (symbol : Option Symbol) (info : Info) :
    (ident name symbol info).IsMirrored φ site site' := by
  intro context
  rw [relabel, check, check, h.value]
  cases site.value name <;> rfl

theorem IsMirrored.index (h : site.Mirrors φ site') {base i : Expr} (hb : base.IsMirrored φ site site')
    (hi : i.IsMirrored φ site site') (info : Info) : (Expr.index base i info).IsMirrored φ site site' := by
  intro context
  rw [relabel, check_index, check_index, hb.check_none]
  cases base.check site none with
  | error left => rfl
  | ok r => exact h.behind r.1 r.2 hi info

theorem IsMirrored.field (h : site.Mirrors φ site') {base : Expr} (hb : base.IsMirrored φ site site') (name : String)
    (info : Info) : (Expr.field base name info).IsMirrored φ site site' := by
  intro context
  rw [relabel, check, check, hb.check_none]
  cases base.check site none with
  | error left => rfl
  | ok r => exact h.select r.1 r.2 name info.span (.field r.1 name info)

theorem IsMirrored.addrOf (h : site.Mirrors φ site') {target : Expr} (ht : target.IsMirrored φ site site')
    (info : Info) : (Expr.addrOf target info).IsMirrored φ site site' := by
  intro context
  rw [relabel, check, check, h.functionAddress?, ht.check_none]
  cases site.functionAddress? target with
  | error halt => rfl
  | ok function =>
    cases function with
    | some r => rfl
    | none =>
      cases target.check site none with
      | error left => rfl
      | ok r =>
        obtain ⟨target', t⟩ := r
        simp only [Relabeling.halted, Option.map_none, Relabeling.checked, Relabeling.typed, isAddressable_relabel]
        cases target'.isAddressable with
        | true => rfl
        | false => simp [relabel, Problem.Cause.relabel]

/-- Operands are checked in other labels as in the old ones. -/
theorem checkAll_map_relabel (h : site.Mirrors φ site') {es : List Expr} (hes : ∀ e ∈ es, e.IsMirrored φ site site')
    (slots : List Slot) :
    checkAll site' (slots.map (Slot.relabel φ)) (es.map (relabel φ))
      = φ.checked (List.map (relabel φ)) φ.typedAll (checkAll site slots es) := by
  induction es generalizing slots with
  | nil =>
    have hnil : ∀ (s : Site) (slots : List Slot), checkAll s slots [] = .ok ([], []) := by
      intro s slots
      rw [checkAll]
      intros
      contradiction
    simp only [List.map_nil, hnil]
    rfl
  | cons e es ih =>
    cases slots with
    | nil =>
      have hnil : ∀ (s : Site) (es : List Expr), checkAll s [] es = .ok (es, []) := by
        intro s es
        rw [checkAll]
        intros
        contradiction
      simp only [List.map_nil, hnil]
      rfl
    | cons slot slots =>
      rw [List.map_cons, List.map_cons, checkAll_cons, checkAll_cons, h.operand slot (hes e List.mem_cons_self),
        ih (fun e he => hes e (List.mem_cons_of_mem _ he)) slots]
      cases site.operand slot e with
      | error left => rfl
      | ok r =>
        obtain ⟨e', t⟩ := r
        simp only [Relabeling.checked, Relabeling.typed, Slot.refusal?_relabel, leftBehind_relabel, span_relabel]
        cases slot.refusal? t with
        | some cause => rfl
        | none => cases checkAll site slots es <;> rfl

theorem callee_relabel (h : site.Mirrors φ site') {e : Expr} (he : e.IsMirrored φ site site') (span : Span) :
    callee site' (φ.place span) (e.relabel φ)
      = φ.checked (relabel φ) (fun r => (r.1.relabel φ, r.2.relabel φ)) (callee site span e) := by
  unfold callee
  rw [h.callForm?, he.check_none]
  cases site.callForm? span e with
  | error halt => rfl
  | ok called =>
    cases called with
    | some r => rfl
    | none =>
      cases e.check site none with
      | error left => rfl
      | ok r =>
        obtain ⟨e', t⟩ := r
        cases t <;> simp [Relabeling.halted, Relabeling.checked, Relabeling.typed, Ty.relabel, CallForm.relabel,
          Signature.relabel, Problem.Cause.relabel]

theorem IsMirrored.call (h : site.Mirrors φ site') {e : Expr} (he : e.IsMirrored φ site site') {args : List Expr}
    (hargs : ∀ e ∈ args, e.IsMirrored φ site site') (info : Info) :
    (Expr.call e args info).IsMirrored φ site site' := by
  intro context
  rw [relabel, relabelAll_eq_map, check_call, check_call]
  have hcallee := callee_relabel h he info.span
  simp only [Info.relabel, hcallee]
  cases callee site info.span e with
  | error left => simp [Relabeling.checked, relabel, Info.relabel]
  | ok r =>
    obtain ⟨e', form⟩ := r
    simp only [Relabeling.checked, List.length_map, CallForm.slots_relabel]
    cases form.slots args.length with
    | error cause => simp [Relabeling.caused, relabel, Info.relabel]
    | ok slots =>
      simp only [Relabeling.caused, checkAll_map_relabel h hargs]
      cases checkAll site slots args with
      | error left => simp [Relabeling.checked, relabel, Info.relabel]
      | ok r =>
        obtain ⟨args', types⟩ := r
        simp [Relabeling.checked, Relabeling.typedAll, Relabeling.typed, relabel, Info.relabel,
          CallForm.result_relabel, CallForm.noteCallee_relabel]

theorem IsMirrored.composite (h : site.Mirrors φ site') {es : List Expr}
    (hes : ∀ e ∈ es, e.IsMirrored φ site site') (info : Info) :
    (Expr.composite es info).IsMirrored φ site site' := by
  intro context
  rw [relabel, relabelAll_eq_map]
  cases context with
  | none => simp [check, Relabeling.checked, relabel, Info.relabel, Problem.Cause.relabel]
  | some t =>
    simp only [check, Option.map_some, List.length_map, h.elementSlots]
    cases site.catalog.elementSlots t es.length with
    | error cause => simp [Relabeling.caused, Relabeling.checked, relabel, Info.relabel]
    | ok slots =>
      simp only [Relabeling.caused, checkAll_map_relabel h hes]
      cases checkAll site slots es with
      | error left => simp [Relabeling.checked, relabel]
      | ok r => simp [Relabeling.checked, Relabeling.typedAll, Relabeling.typed, relabel, Info.relabel]

mutual

/-- An expression is checked in other labels as in the old ones. -/
theorem check_relabel (h : site.Mirrors φ site') : (e : Expr) → e.IsMirrored φ site site'
  | .ident name symbol info => isMirrored_ident h name symbol info
  | .index base i info => (base.check_relabel h).index h (i.check_relabel h) info
  | .field base name info => (base.check_relabel h).field h name info
  | .call callee args info => (callee.check_relabel h).call h (checkAll_relabel h args) info
  | .addrOf target info => (target.check_relabel h).addrOf h info
  | .composite es info => IsMirrored.composite h (checkAll_relabel h es) info
  | .int .. | .real .. | .byte .. | .typeArg .. | .foreign _ => fun _ => rfl

theorem checkAll_relabel (h : site.Mirrors φ site') : (es : List Expr) → ∀ e ∈ es, e.IsMirrored φ site site'
  | [], _, he => by cases he
  | e :: es, e', he => by
    obtain he | he := List.mem_cons.mp he
    · exact he ▸ e.check_relabel h
    · exact checkAll_relabel h es e' he

end

end Expr

end FlatScope
