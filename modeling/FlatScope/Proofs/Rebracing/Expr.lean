/-
  Expressions in a statement that is left are checked in other braces as before (`Expr.check_renumber`): the check gives the
  same tree and the same type, or halts at the same problem with the same tree left behind, where the symbols that are noted
  have other orders. Types, slots and call forms know nothing of orders, so only names matter on the way down the tree.
-/
import FlatScope.Proofs.Rebracing.Lookup
import FlatScope.Proofs.Resolution.Check

namespace FlatScope

variable {ρ : Rebracing}

/-- A site in other braces. -/
def Site.renumber (ρ : Rebracing) (site : Site) : Site := ⟨site.builtins, site.catalog.renumber ρ, ρ.number site.index⟩

/-- The statement of a site is left in other braces. -/
structure Site.Stands (ρ : Rebracing) (site : Site) : Prop where
  index : ρ.opens site.index = false
  catalog : site.catalog.IsUnordered

/-- The outcome of a check in other braces, where `left` and `done` take there what it leaves behind and what it gives. -/
def Rebracing.checked {α α' β β' : Type} (ρ : Rebracing) (left : α → α') (done : β → β') : Checked α β → Checked α' β'
  | .error (halt, a) => .error (halt.renumber ρ, left a)
  | .ok b => .ok (done b)

/-- An expression and its type in other braces. -/
def Rebracing.typed (ρ : Rebracing) (r : Expr × Ty) : Expr × Ty := (r.1.renumber ρ, r.2)

/-! ## Expressions by themselves -/

namespace Expr

@[simp] theorem info_renumber (e : Expr) : (e.renumber ρ).info = e.info := by cases e <;> rfl

@[simp] theorem span_renumber (e : Expr) : (e.renumber ρ).span = e.span := congrArg Info.span e.info_renumber

theorem withTy_renumber (t : Ty) (e : Expr) : (e.renumber ρ).withTy t = (e.withTy t).renumber ρ := by cases e <;> rfl

@[simp] theorem ident?_renumber (e : Expr) : (e.renumber ρ).ident? = e.ident? := by cases e <;> rfl

theorem isAddressable_renumber : (e : Expr) → (e.renumber ρ).isAddressable = e.isAddressable
  | .ident _ symbol _ => by cases symbol <;> rfl
  | .index base _ _ => by rw [renumber, isAddressable, isAddressable, info_renumber, base.isAddressable_renumber]
  | .field base _ _ => base.isAddressable_renumber
  | .int .. | .real .. | .byte .. | .call .. | .composite .. | .addrOf .. | .typeArg .. | .foreign _ => rfl

theorem size?_renumber (e : Expr) : (e.renumber ρ).size? = e.size? := by cases e <;> rfl

theorem asType?_renumber : (e : Expr) → (e.renumber ρ).asType? = e.asType?
  | .index base i _ => by rw [renumber, asType?, asType?, base.asType?_renumber, i.size?_renumber]
  | .ident .. | .int .. | .real .. | .byte .. | .field .. | .call .. | .composite .. | .addrOf .. | .typeArg ..
  | .foreign _ => rfl

theorem writtenType?_renumber (e : Expr) : (e.renumber ρ).writtenType? = e.writtenType? := by
  cases e with
  | index base i info =>
    have hw := (index base i info).asType?_renumber (ρ := ρ)
    rw [renumber] at hw
    simp only [renumber, writtenType?, hw]
    rfl
  | int _ _ | real _ _ | byte _ _ | ident _ _ _ | field _ _ _ | call _ _ _ | composite _ _ | addrOf _ _ | typeArg _ _
  | foreign _ => rfl

theorem leftBehind_renumber (before checked : Expr) :
    leftBehind (before.renumber ρ) (checked.renumber ρ) = (leftBehind before checked).renumber ρ := by
  cases before <;> cases checked <;> rfl

theorem root_renumber : (e : Expr) → (e.renumber ρ).root = e.root.renumber ρ
  | .index base _ _ | .field base _ _ => base.root_renumber
  | .int .. | .real .. | .byte .. | .ident .. | .call .. | .composite .. | .addrOf .. | .typeArg .. | .foreign _ => rfl

theorem rootName_renumber (e : Expr) : (e.renumber ρ).rootName = e.rootName := by cases e <;> rfl

end Expr

theorem Halt.atExpr_renumber {cause : Problem.Cause} (h : cause.renumber ρ = cause) (e : Expr) :
    Halt.atExpr (e.renumber ρ) cause = (Halt.atExpr e cause).renumber ρ := by
  have hat (span : Span) : Halt.at span cause = (Halt.at span cause).renumber ρ := by
    rw [Halt.at, renumber, Problem.renumber, h]
  cases e with
  | foreign node =>
    obtain ⟨_, _, _, span⟩ := node
    cases span with
    | none => rfl
    | some span => exact hat span
  | int _ _ | real _ _ | byte _ _ | ident _ _ _ | index _ _ _ | field _ _ _ | call _ _ _ | composite _ _ | addrOf _ _
  | typeArg _ _ => exact hat _

/-! ## Names, fields and slots -/

/-- What is wrong with an operand tells of no symbol. -/
theorem Slot.renumber_of_refusal? {t : Ty} {slot : Slot} {cause : Problem.Cause} (h : slot.refusal? t = some cause) :
    cause.renumber ρ = cause := by
  unfold refusal? at h
  split at h
  · split at h
    · cases h
    · obtain rfl := Option.some.inj h
      rfl
  · split at h
    · cases h
    · obtain rfl := Option.some.inj h
      rfl
  · cases h
  · split at h
    · cases h
    · obtain rfl := Option.some.inj h
      rfl

theorem CallForm.renumber_of_slots {count : Nat} {form : CallForm} {cause : Problem.Cause}
    (h : form.slots count = .error cause) : cause.renumber ρ = cause := by
  unfold slots at h
  split at h
  · split at h
    · cases h
    · obtain rfl := Except.error.inj h
      rfl
  · split at h
    · cases h
    · cases h
    · obtain rfl := Except.error.inj h
      rfl
  · split at h
    · cases h
    · obtain rfl := Except.error.inj h
      rfl

theorem CallForm.noteCallee_renumber (operands : List Ty) (callee : Expr) (form : CallForm) :
    form.noteCallee operands (callee.renumber ρ) = (form.noteCallee operands callee).renumber ρ := by
  cases form with
  | fixed _ _ => rfl
  | alloc | free => exact callee.withTy_renumber _

namespace Site

theorem fieldType_renumber (site : Site) (t : Ty) (field : String) :
    (site.renumber ρ).fieldType t field = ρ.caused id (site.fieldType t field) := by
  cases t with
  | struct name =>
    have hstruct : (site.renumber ρ).catalog.struct? name = site.catalog.struct? name := rfl
    unfold fieldType
    dsimp only
    rw [hstruct]
    cases (site.catalog.struct? name).filter StructInfo.isComplete with
    | none => rfl
    | some info => cases h : info.fields.lookup field <;> simp only [h, Rebracing.caused, Problem.Cause.renumber, id]
  | primitive _ | void | pointer _ | array _ _ | func _ _ => rfl

theorem select_renumber (site : Site) (base : Expr) (t : Ty) (name : String) (span : Span) (left : Expr) :
    (site.renumber ρ).select (base.renumber ρ) t name span (left.renumber ρ)
      = ρ.checked (Expr.renumber ρ) ρ.typed (site.select base t name span left) := by
  unfold select
  rw [site.fieldType_renumber]
  cases site.fieldType t name <;> rfl

theorem elementSlots_renumber (site : Site) (t : Ty) (count : Nat) :
    (site.renumber ρ).catalog.elementSlots t count = ρ.caused id (site.catalog.elementSlots t count) := by
  cases t with
  | array element size =>
    unfold Catalog.elementSlots
    dsimp only
    split <;> rfl
  | struct name =>
    have hstruct : (site.renumber ρ).catalog.struct? name = site.catalog.struct? name := rfl
    unfold Catalog.elementSlots
    dsimp only
    rw [hstruct]
    cases (site.catalog.struct? name).filter StructInfo.isComplete with
    | none => rfl
    | some info =>
      dsimp only
      split <;> rfl
  | primitive _ | void | pointer _ | func _ _ => rfl

namespace Stands

variable {site : Site} (h : site.Stands ρ)
include h

theorem lookup (name : String) : (site.renumber ρ).lookup name = (site.lookup name).map (Symbol.renumber ρ) :=
  Catalog.lookup_renumber h.catalog h.index name

theorem value (name : String) :
    (site.renumber ρ).value name = ρ.caused (fun r => (r.1.renumber ρ, r.2)) (site.value name) := by
  have hlater : ((site.renumber ρ).catalog.current.bind fun scope => scope.get? name)
      = (site.catalog.current.bind fun scope => scope.get? name).map (Symbol.renumber ρ) := site.catalog.get?_renumber name
  unfold Site.value
  rw [h.lookup, hlater]
  cases site.lookup name with
  | none =>
    cases isBuiltinName name with
    | true => rfl
    | false => cases site.catalog.current.bind fun scope => scope.get? name <;> rfl
  | some s =>
    obtain ⟨_, kind, _, ty, _, _, _, _⟩ := s
    cases kind <;> cases ty <;> rfl

theorem callForm? (span : Span) (e : Expr) : (site.renumber ρ).callForm? span (e.renumber ρ)
    = ρ.halted (Option.map fun r => (r.1.renumber ρ, r.2)) (site.callForm? span e) := by
  cases e with
  | ident name symbol info =>
    have hbuiltins : (site.renumber ρ).builtins = site.builtins := rfl
    rw [Expr.renumber]
    unfold Site.callForm?
    dsimp only
    rw [h.lookup, hbuiltins]
    cases isBuiltinName name with
    | true =>
      simp only [if_true]
      cases SpecialForm.ofName? name with
      | some f => cases f <;> rfl
      | none => cases site.builtins.lookup name <;> rfl
    | false =>
      simp only [Bool.false_eq_true, if_false]
      cases site.lookup name with
      | none => rfl
      | some s =>
        obtain ⟨_, kind, _, ty, _, _, _, _⟩ := s
        cases kind
        case func =>
          obtain _ | t := ty
          · rfl
          · cases t <;> rfl
        all_goals rfl
  | int _ _ | real _ _ | byte _ _ | index _ _ _ | field _ _ _ | call _ _ _ | composite _ _ | addrOf _ _ | typeArg _ _
  | foreign _ => rfl

theorem functionAddress? (e : Expr) :
    (site.renumber ρ).functionAddress? (e.renumber ρ) = ρ.halted (Option.map ρ.typed) (site.functionAddress? e) := by
  cases e with
  | ident name symbol info =>
    have hfunction : ((site.renumber ρ).lookup name).filter (fun s => s.kind = .func)
        = ((site.lookup name).filter fun s => s.kind = .func).map (Symbol.renumber ρ) := by
      rw [h.lookup, Option.filter_map]
      rfl
    rw [Expr.renumber]
    unfold Site.functionAddress?
    dsimp only
    rw [hfunction]
    cases (site.lookup name).filter fun s => s.kind = .func with
    | none =>
      rw [Option.map_none]
      dsimp only
      split <;> rfl
    | some s =>
      obtain ⟨_, _, _, ty, _, _, _, _⟩ := s
      cases ty <;> rfl
  | int _ _ | real _ _ | byte _ _ | index _ _ _ | field _ _ _ | call _ _ _ | composite _ _ | addrOf _ _ | typeArg _ _
  | foreign _ => rfl

theorem typeOperand (e : Expr) : (site.renumber ρ).typeOperand (e.renumber ρ)
    = ρ.checked (Expr.renumber ρ) ρ.typed (site.typeOperand e) := by
  rw [Site.typeOperand_eq, Site.typeOperand_eq, e.writtenType?_renumber]
  cases e.writtenType? with
  | none =>
    dsimp only
    rw [Halt.atExpr_renumber rfl]
    rfl
  | some w =>
    obtain ⟨w, info⟩ := w
    have hresolve : w.resolve (site.renumber ρ).catalog (some (site.renumber ρ).index) false
        = ρ.halted id (w.resolve site.catalog (some site.index) false) := w.resolve_renumber h.catalog h.index false
    dsimp only [writtenOperand]
    rw [hresolve]
    cases w.resolve site.catalog (some site.index) false <;> rfl

end Stands

end Site

/-! ## All expressions -/

/-- An expression is checked in other braces as before, whatever its context. -/
def Expr.IsFollowed (ρ : Rebracing) (site : Site) (e : Expr) : Prop :=
  ∀ context, (e.renumber ρ).check (site.renumber ρ) context = ρ.checked (renumber ρ) ρ.typed (e.check site context)

/-- Operands with their types in other braces. -/
def Rebracing.typedAll (ρ : Rebracing) (r : List Expr × List Ty) : List Expr × List Ty := (r.1.map (Expr.renumber ρ), r.2)

namespace Site

variable {site : Site}

theorem Stands.operand (h : site.Stands ρ) (slot : Slot) {e : Expr} (he : e.IsFollowed ρ site) :
    (site.renumber ρ).operand slot (e.renumber ρ) = ρ.checked (Expr.renumber ρ) ρ.typed (site.operand slot e) := by
  unfold Site.operand
  split
  · exact h.typeOperand e
  · exact he slot.context

theorem behind_renumber (base : Expr) (t : Ty) {i : Expr} (hi : i.IsFollowed ρ site) (info : Info) :
    (site.renumber ρ).behind (base.renumber ρ) t (i.renumber ρ) info
      = ρ.checked (Expr.renumber ρ) ρ.typed (site.behind base t i info) := by
  have hindexed : (site.renumber ρ).indexed (base.renumber ρ) t (i.renumber ρ) info
      = ρ.checked (Expr.renumber ρ) ρ.typed (site.indexed base t i info) := by
    unfold Site.indexed
    rw [hi none]
    cases t.element? with
    | none => rfl
    | some element =>
      cases i.check site none with
      | error left => rfl
      | ok r =>
        obtain ⟨i', u⟩ := r
        dsimp only [Rebracing.checked, Rebracing.typed]
        split
        · rfl
        · rw [Expr.span_renumber]
          rfl
  cases t with
  | struct name =>
    show (site.renumber ρ).selected (base.renumber ρ) name (i.renumber ρ) info
      = ρ.checked (Expr.renumber ρ) ρ.typed (site.selected base name i info)
    unfold Site.selected
    rw [Expr.ident?_renumber]
    cases i.ident? with
    | none =>
      dsimp only
      rw [Halt.atExpr_renumber rfl]
      rfl
    | some field => exact site.select_renumber base (.struct name) field info.span (.index base i info)
  | primitive _ | void | pointer _ | array _ _ | func _ _ => exact hindexed

end Site

namespace Expr

variable {site : Site}

theorem isFollowed_ident (h : site.Stands ρ) (name : String) (symbol : Option Symbol) (info : Info) :
    (ident name symbol info).IsFollowed ρ site := by
  intro context
  rw [renumber, check, check, h.value]
  cases site.value name <;> rfl

theorem IsFollowed.index {base i : Expr} (hb : base.IsFollowed ρ site) (hi : i.IsFollowed ρ site) (info : Info) :
    (Expr.index base i info).IsFollowed ρ site := by
  intro context
  rw [renumber, check_index, check_index, hb none]
  cases base.check site none with
  | error left => rfl
  | ok r => exact Site.behind_renumber r.1 r.2 hi info

theorem IsFollowed.field {base : Expr} (hb : base.IsFollowed ρ site) (name : String) (info : Info) :
    (Expr.field base name info).IsFollowed ρ site := by
  intro context
  rw [renumber, check, check, hb none]
  cases base.check site none with
  | error left => rfl
  | ok r => exact site.select_renumber r.1 r.2 name info.span (.field r.1 name info)

theorem IsFollowed.addrOf (h : site.Stands ρ) {target : Expr} (ht : target.IsFollowed ρ site) (info : Info) :
    (Expr.addrOf target info).IsFollowed ρ site := by
  intro context
  rw [renumber, check, check, h.functionAddress?, ht none]
  cases site.functionAddress? target with
  | error halt => rfl
  | ok function =>
    cases function with
    | some r => rfl
    | none =>
      cases target.check site none with
      | error left => rfl
      | ok r =>
        obtain ⟨target', t⟩ := r
        simp only [Rebracing.halted, Option.map_none, Rebracing.checked, Rebracing.typed, isAddressable_renumber, span_renumber]
        cases target'.isAddressable <;> rfl

/-- Operands are checked in other braces as before. -/
theorem checkAll_map_renumber (h : site.Stands ρ) {es : List Expr} (hes : ∀ e ∈ es, e.IsFollowed ρ site)
    (slots : List Slot) : checkAll (site.renumber ρ) slots (es.map (renumber ρ))
      = ρ.checked (List.map (renumber ρ)) ρ.typedAll (checkAll site slots es) := by
  induction es generalizing slots with
  | nil =>
    rw [List.map_nil, checkAll_nil_left, checkAll_nil_left]
    rfl
  | cons e es ih =>
    cases slots with
    | nil =>
      rw [checkAll_no_slots, checkAll_no_slots]
      rfl
    | cons slot slots =>
      obtain ⟨he, hes⟩ := List.forall_mem_cons.mp hes
      rw [List.map_cons, checkAll_cons, checkAll_cons, h.operand slot he, ih hes slots]
      cases site.operand slot e with
      | error left => rfl
      | ok r =>
        obtain ⟨e', t⟩ := r
        simp only [Rebracing.checked, Rebracing.typed, leftBehind_renumber, span_renumber]
        cases hr : slot.refusal? t with
        | some cause =>
          show Except.error (Halt.at e'.span cause, _) = .error (Halt.at e'.span (cause.renumber ρ), _)
          rw [Slot.renumber_of_refusal? hr]
          rfl
        | none => cases checkAll site slots es <;> rfl

theorem callee_renumber (h : site.Stands ρ) {e : Expr} (he : e.IsFollowed ρ site) (span : Span) :
    callee (site.renumber ρ) span (e.renumber ρ)
      = ρ.checked (renumber ρ) (fun r => (r.1.renumber ρ, r.2)) (callee site span e) := by
  unfold callee
  rw [h.callForm?, he none]
  cases site.callForm? span e with
  | error halt => rfl
  | ok called =>
    cases called with
    | some r => rfl
    | none =>
      cases e.check site none with
      | error left => rfl
      | ok r =>
        obtain ⟨e', t⟩ := r
        cases t <;> simp [Rebracing.halted, Rebracing.checked, Rebracing.typed, Halt.renumber, Halt.at, Problem.renumber,
          Problem.Cause.renumber]

theorem IsFollowed.call (h : site.Stands ρ) {e : Expr} (he : e.IsFollowed ρ site) {args : List Expr}
    (hargs : ∀ a ∈ args, a.IsFollowed ρ site) (info : Info) : (Expr.call e args info).IsFollowed ρ site := by
  intro context
  rw [renumber, renumberAll_eq_map, check_call, check_call, callee_renumber h he]
  cases callee site info.span e with
  | error left =>
    simp only [Rebracing.checked, renumber, renumberAll_eq_map]
  | ok r =>
    obtain ⟨e', form⟩ := r
    simp only [Rebracing.checked, List.length_map]
    cases hs : form.slots args.length with
    | error cause =>
      have hhalt : (Halt.at info.span cause).renumber ρ = .at info.span (cause.renumber ρ) := rfl
      simp only [hhalt, CallForm.renumber_of_slots hs, renumber, renumberAll_eq_map]
    | ok slots =>
      simp only [checkAll_map_renumber h hargs]
      cases checkAll site slots args with
      | error left => simp only [Rebracing.checked, renumber, renumberAll_eq_map]
      | ok r => simp only [Rebracing.checked, Rebracing.typedAll, Rebracing.typed, renumber, renumberAll_eq_map,
          CallForm.noteCallee_renumber]

theorem IsFollowed.composite (h : site.Stands ρ) {es : List Expr} (hes : ∀ e ∈ es, e.IsFollowed ρ site) (info : Info) :
    (Expr.composite es info).IsFollowed ρ site := by
  intro context
  rw [renumber, renumberAll_eq_map]
  cases context with
  | none =>
    simp only [check, Rebracing.checked, renumber, renumberAll_eq_map]
    rfl
  | some t =>
    simp only [check, List.length_map, site.elementSlots_renumber]
    cases site.catalog.elementSlots t es.length with
    | error cause =>
      simp only [Rebracing.caused, Rebracing.checked, renumber, renumberAll_eq_map]
      rfl
    | ok slots =>
      simp only [Rebracing.caused, id, checkAll_map_renumber h hes]
      cases checkAll site slots es with
      | error left => simp only [Rebracing.checked, renumber, renumberAll_eq_map]
      | ok r => simp only [Rebracing.checked, Rebracing.typedAll, Rebracing.typed, renumber, renumberAll_eq_map]

mutual

/-- An expression in a statement that is left is checked in other braces as before. -/
theorem check_renumber (h : site.Stands ρ) : (e : Expr) → e.IsFollowed ρ site
  | .ident name symbol info => isFollowed_ident h name symbol info
  | .index base i info => (base.check_renumber h).index (i.check_renumber h) info
  | .field base name info => (base.check_renumber h).field name info
  | .call callee args info => (callee.check_renumber h).call h (checkAll_renumber h args) info
  | .addrOf target info => (target.check_renumber h).addrOf h info
  | .composite es info => IsFollowed.composite h (checkAll_renumber h es) info
  | .int .. | .real .. | .byte .. | .typeArg .. | .foreign _ => fun _ => rfl

theorem checkAll_renumber (h : site.Stands ρ) : (es : List Expr) → ∀ e ∈ es, e.IsFollowed ρ site
  | [] => List.forall_mem_nil _
  | e :: es => List.forall_mem_cons.mpr ⟨e.check_renumber h, checkAll_renumber h es⟩

end

end Expr

end FlatScope
