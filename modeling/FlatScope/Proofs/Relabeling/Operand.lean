/-
  Operands in other labels. What is decided about a name, a callee, a type or a slot alone is decided in the new labels
  as in the old ones, wherever the two sites answer alike (`Site.Mirrors`).
-/
import FlatScope.Proofs.Relabeling.Lookup
import FlatScope.Proofs.Resolution.Check

namespace FlatScope

variable {φ : Relabeling}

/-- A site answers in other labels what another one answers. -/
structure Site.Mirrors (φ : Relabeling) (site site' : Site) : Prop where
  builtins : ∀ name, site'.builtins.lookup (φ.name name) = (site.builtins.lookup name).map (Signature.relabel φ)
  catalog : site.catalog.Mirrors φ site'.catalog
  index : site'.index = site.index

/-- An expression and its type in other labels. -/
def Relabeling.typed (φ : Relabeling) (r : Expr × Ty) : Expr × Ty := (r.1.relabel φ, r.2.relabel φ)

theorem Builtins.lookup_relabel (b : Builtins) (name : String) :
    (b.relabel φ).lookup (φ.name name) = (b.lookup name).map (Signature.relabel φ) :=
  Relabeling.lookup_map (Signature.relabel φ) b name

@[simp] theorem Signature.ty_relabel (s : Signature) : (s.relabel φ).ty = s.ty.relabel φ := by
  rw [ty, ty, Ty.relabel, Ty.relabelAll_eq_map]
  rfl

namespace Site.Mirrors

variable {site site' : Site}

/-! ## Names and fields -/

theorem lookup (h : site.Mirrors φ site') (name : String) :
    site'.lookup (φ.name name) = (site.lookup name).map (Symbol.relabel φ) := by
  rw [Site.lookup, Site.lookup, h.index, h.catalog.lookup]

theorem value (h : site.Mirrors φ site') (name : String) :
    site'.value (φ.name name)
      = φ.caused (fun r => (r.1.relabel φ, r.2.relabel φ)) (site.value name) := by
  unfold Site.value
  rw [h.lookup, h.catalog.get?, Relabeling.isBuiltinName_name]
  cases site.lookup name with
  | none =>
    cases isBuiltinName name with
    | true => rfl
    | false => cases site.catalog.current.bind fun scope => scope.get? name <;> rfl
  | some s =>
    obtain ⟨_, kind, _, ty, _, _, _, _⟩ := s
    cases kind <;> cases ty <;> rfl

theorem fieldType (h : site.Mirrors φ site') (t : Ty) (field : String) :
    site'.fieldType (t.relabel φ) (φ.name field) = φ.caused (Ty.relabel φ) (site.fieldType t field) := by
  cases t with
  | struct name =>
    rw [Ty.relabel]
    unfold Site.fieldType
    simp only [h.catalog.complete? name]
    cases (site.catalog.struct? name).filter StructInfo.isComplete with
    | none => rfl
    | some info =>
      simp only [Option.map_some, StructInfo.relabel, Relabeling.lookup_map (Ty.relabel φ)]
      cases info.fields.lookup field <;> rfl
  | primitive _ | void | pointer _ | array _ _ | func _ _ => rfl

theorem select (h : site.Mirrors φ site') (base : Expr) (t : Ty) (name : String) (span : Span) (left : Expr) :
    site'.select (base.relabel φ) (t.relabel φ) (φ.name name) (φ.place span) (left.relabel φ)
      = φ.checked (Expr.relabel φ) φ.typed (site.select base t name span left) := by
  unfold Site.select
  rw [h.fieldType]
  cases site.fieldType t name <;> rfl

end Site.Mirrors

/-! ## Slots -/

namespace Slot

theorem numbered_relabel (slot slot' : Nat → Ty → Slot)
    (h : ∀ k t, slot' k (t.relabel φ) = (slot k t).relabel φ) (ts : List Ty) :
    numbered slot' (ts.map (Ty.relabel φ)) = (numbered slot ts).map (relabel φ) := by
  unfold numbered
  apply List.ext_getElem
  · simp
  · intro k _ _
    simp [h]

@[simp] theorem context_relabel (slot : Slot) : (slot.relabel φ).context = slot.context.map (Ty.relabel φ) := by
  cases slot <;> rfl

theorem relabel_eq_allocated {slot : Slot} : slot.relabel φ = .allocated ↔ slot = .allocated := by
  cases slot <;> simp [relabel]

theorem refusal?_relabel (t : Ty) (slot : Slot) :
    (slot.relabel φ).refusal? (t.relabel φ) = (slot.refusal? t).map (Problem.Cause.relabel φ) := by
  cases slot with
  | argument callee position expected =>
    by_cases ht : t = expected
    · simp [relabel, refusal?, ht]
    · simp [relabel, refusal?, ht, Ty.relabel_inj, Problem.Cause.relabel]
  | element literal position expected =>
    by_cases ht : t = expected
    · simp [relabel, refusal?, ht]
    · simp [relabel, refusal?, ht, Ty.relabel_inj, Problem.Cause.relabel]
  | allocated => rfl
  | freed => cases t <;> rfl

end Slot

theorem Site.Mirrors.elementSlots {site site' : Site} (h : site.Mirrors φ site') (t : Ty) (count : Nat) :
    site'.catalog.elementSlots (t.relabel φ) count
      = φ.caused (List.map (Slot.relabel φ)) (site.catalog.elementSlots t count) := by
  cases t with
  | array element size =>
    rw [Ty.relabel]
    by_cases hc : (count : Int) = size
    · have hn := Slot.numbered_relabel (φ := φ) (.element (.array element size))
        (.element ((Ty.array element size).relabel φ)) (fun _ _ => rfl) (List.replicate count element)
      rw [Ty.relabel, List.map_replicate] at hn
      simp [Catalog.elementSlots, Relabeling.caused, hc, hn]
    · simp [Catalog.elementSlots, Relabeling.caused, hc, Problem.Cause.relabel, Ty.relabel]
  | struct name =>
    rw [Ty.relabel]
    unfold Catalog.elementSlots
    simp only [h.catalog.complete? name]
    cases (site.catalog.struct? name).filter StructInfo.isComplete with
    | none => rfl
    | some info =>
      have hn := Slot.numbered_relabel (φ := φ) (.element (.struct name))
        (.element ((Ty.struct name).relabel φ)) (fun _ _ => rfl) (info.fields.map (·.2))
      simp only [Option.map_some, StructInfo.relabel, List.length_map, List.map_map]
      split
      · rw [Ty.relabel, List.map_map] at hn
        simp only [Relabeling.caused, ← hn]
        rfl
      · rfl
  | primitive _ | void | pointer _ | func _ _ => rfl

/-! ## Calls -/

namespace CallForm

theorem slots_relabel (count : Nat) (form : CallForm) :
    (form.relabel φ).slots count = φ.caused (List.map (Slot.relabel φ)) (form.slots count) := by
  cases form with
  | fixed callee s =>
    have hn := Slot.numbered_relabel (φ := φ) (.argument callee) (.argument (callee.map φ.name))
      (fun _ _ => rfl) s.params
    simp only [relabel, slots, Signature.relabel, List.length_map]
    split
    · simp only [hn, Relabeling.caused]
    · rfl
  | alloc =>
    simp only [relabel, slots]
    split
    · rfl
    · have ha : φ.name SpecialForm.alloc.name = SpecialForm.alloc.name := Relabeling.name_special .alloc
      simp [Relabeling.caused, Slot.relabel, ha]
    · rfl
  | free =>
    simp only [relabel, slots]
    split
    · rfl
    · have hf : φ.name SpecialForm.free.name = SpecialForm.free.name := Relabeling.name_special .free
      simp [Relabeling.caused, Problem.Cause.relabel, hf]

theorem result_relabel (operands : List Ty) (form : CallForm) :
    (form.relabel φ).result (operands.map (Ty.relabel φ)) = (form.result operands).relabel φ := by
  cases form with
  | fixed callee s => rfl
  | alloc => cases operands <;> rfl
  | free => rfl

theorem noteCallee_relabel (operands : List Ty) (callee : Expr) (form : CallForm) :
    (form.relabel φ).noteCallee (operands.map (Ty.relabel φ)) (callee.relabel φ)
      = (form.noteCallee operands callee).relabel φ := by
  have hty (t : Ty) : Ty.func (operands.map (Ty.relabel φ)) (t.relabel φ) = (Ty.func operands t).relabel φ := by
    rw [Ty.relabel, Ty.relabelAll_eq_map]
  have hresult := result_relabel (φ := φ) operands form
  cases form with
  | fixed callee s => rfl
  | alloc | free =>
    simp only [relabel] at hresult
    simp only [relabel, noteCallee, hresult, hty, Expr.withTy_relabel]

end CallForm

namespace Site.Mirrors

variable {site site' : Site}

theorem callForm? (h : site.Mirrors φ site') (span : Span) (e : Expr) :
    site'.callForm? (φ.place span) (e.relabel φ)
      = φ.halted (Option.map fun r => (r.1.relabel φ, r.2.relabel φ)) (site.callForm? span e) := by
  cases e with
  | ident name symbol info =>
    rw [Expr.relabel]
    unfold Site.callForm?
    simp only [Relabeling.isBuiltinName_name, Relabeling.ofName?_name, h.builtins name, h.lookup name]
    cases isBuiltinName name with
    | true =>
      simp only [if_true]
      cases SpecialForm.ofName? name with
      | some f => cases f <;> rfl
      | none =>
        cases site.builtins.lookup name with
        | none => rfl
        | some s =>
          simp [Relabeling.halted, Expr.relabel, Info.relabel, CallForm.relabel]
    | false =>
      simp only [Bool.false_eq_true, if_false]
      cases site.lookup name with
      | none => rfl
      | some s =>
        obtain ⟨_, kind, _, ty, _, _, _, _⟩ := s
        cases kind
        case func =>
          obtain _ | t := ty
          · rfl
          · cases t <;> simp [Symbol.relabel, Ty.relabel, Relabeling.halted, Expr.relabel, Info.relabel,
              CallForm.relabel, Signature.relabel, Problem.Cause.relabel]
        all_goals simp [Symbol.relabel, Relabeling.halted, Info.relabel, Problem.Cause.relabel]
  | int _ _ | real _ _ | byte _ _ | index _ _ _ | field _ _ _ | call _ _ _ | composite _ _ | addrOf _ _ | typeArg _ _
  | foreign _ => rfl

theorem functionAddress? (h : site.Mirrors φ site') (e : Expr) :
    site'.functionAddress? (e.relabel φ) = φ.halted (Option.map φ.typed) (site.functionAddress? e) := by
  cases e with
  | ident name symbol info =>
    rw [Expr.relabel]
    unfold Site.functionAddress?
    simp only [Relabeling.isBuiltinName_name, h.lookup name]
    have hnone : (if isBuiltinName name = true then
          Except.error (Halt.at (info.relabel φ).span (.builtinAddress (φ.name name))) else .ok none)
        = φ.halted (Option.map φ.typed)
          (if isBuiltinName name = true then .error (.at info.span (.builtinAddress name)) else .ok none) := by
      split <;> rfl
    cases site.lookup name with
    | none => exact hnone
    | some s =>
      obtain ⟨_, kind, _, ty, _, _, _, _⟩ := s
      cases kind
      case func => cases ty <;> rfl
      all_goals exact hnone
  | int _ _ | real _ _ | byte _ _ | index _ _ _ | field _ _ _ | call _ _ _ | composite _ _ | addrOf _ _ | typeArg _ _
  | foreign _ => rfl

end Site.Mirrors

/-! ## Expressions by themselves -/

namespace Expr

@[simp] theorem ident?_relabel (e : Expr) : (e.relabel φ).ident? = e.ident?.map φ.name := by cases e <;> rfl

theorem isAddressable_relabel : (e : Expr) → (e.relabel φ).isAddressable = e.isAddressable
  | .ident _ symbol _ => by cases symbol <;> rfl
  | .index base _ _ => by
    rw [relabel, isAddressable, isAddressable, info_relabel, base.isAddressable_relabel]
    obtain ⟨span, ty⟩ := base.info
    obtain _ | t := ty
    · rfl
    · cases t <;> rfl
  | .field base _ _ => by rw [relabel, isAddressable, isAddressable, base.isAddressable_relabel]
  | .int .. | .real .. | .byte .. | .call .. | .composite .. | .addrOf .. | .typeArg .. | .foreign _ => rfl

theorem size?_relabel (e : Expr) : (e.relabel φ).size? = e.size?.map (ArraySize.relabel φ) := by cases e <;> rfl

theorem asType?_relabel : (e : Expr) → (e.relabel φ).asType? = e.asType?.map (TypeExpr.relabel φ)
  | .ident .. => rfl
  | .index base i _ => by
    rw [relabel, asType?, asType?, base.asType?_relabel, size?_relabel]
    cases base.asType? with
    | none => rfl
    | some element => cases i.size? <;> rfl
  | .int .. | .real .. | .byte .. | .field .. | .call .. | .composite .. | .addrOf .. | .typeArg .. | .foreign _ => rfl

theorem leftBehind_relabel (before checked : Expr) :
    leftBehind (before.relabel φ) (checked.relabel φ) = (leftBehind before checked).relabel φ := by
  cases before <;> cases checked <;> rfl

end Expr

theorem Halt.atExpr_relabel (e : Expr) (cause : Problem.Cause) :
    Halt.atExpr (e.relabel φ) (cause.relabel φ) = (Halt.atExpr e cause).relabel φ := by
  cases e with
  | foreign node =>
    obtain ⟨_, _, _, span⟩ := node
    cases span <;> rfl
  | int _ _ | real _ _ | byte _ _ | ident _ _ _ | index _ _ _ | field _ _ _ | call _ _ _ | composite _ _ | addrOf _ _
  | typeArg _ _ => rfl

theorem Expr.writtenType?_relabel (e : Expr) :
    (e.relabel φ).writtenType? = e.writtenType?.map fun w => (w.1.relabel φ, w.2.relabel φ) := by
  cases e with
  | index base i info =>
    have hw := asType?_relabel (φ := φ) (index base i info)
    have hspan := span_relabel (φ := φ) (index base i info)
    rw [relabel] at hw hspan
    simp only [relabel, writtenType?, hw, hspan, Option.map_map]
    rfl
  | int _ _ | real _ _ | byte _ _ | ident _ _ _ | field _ _ _ | call _ _ _ | composite _ _ | addrOf _ _ | typeArg _ _
  | foreign _ => rfl

theorem Site.Mirrors.typeOperand {site site' : Site} (h : site.Mirrors φ site') (e : Expr) :
    site'.typeOperand (e.relabel φ) = φ.checked (Expr.relabel φ) φ.typed (site.typeOperand e) := by
  rw [Site.typeOperand_eq, Site.typeOperand_eq, e.writtenType?_relabel]
  cases e.writtenType? with
  | none => simp [Relabeling.checked, ← Halt.atExpr_relabel, Problem.Cause.relabel]
  | some w =>
    obtain ⟨w, info⟩ := w
    simp only [Option.map_some, Site.writtenOperand, h.index, w.resolve_relabel h.catalog]
    cases w.resolve site.catalog (some site.index) false <;> rfl

end FlatScope
