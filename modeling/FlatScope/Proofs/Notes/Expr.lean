/-
  Checking expressions makes sound notes. An expression without notes is checked in surroundings whose types are well formed
  (`Site.IsSound`). If the check halts, whatever it has noted by then is sound, and it does not complain of containment
  (`IsLeft`); if not, the expression has its type for a note, all its parts are settled, and only a call is `void`
  (`Expr.IsFound`). So `void` gets no further than the call: each place in an expression, and each operand of a call, wants a
  type that is not `void`.
-/
import FlatScope.Proofs.Notes.Type
import FlatScope.Proofs.Resolution.Check
import Mathlib.Data.List.Forall2

namespace FlatScope

/-! ## Parts -/

namespace Expr

variable {P : Expr → Prop} {info : Info}

attribute [local simp] parts partsAll

theorem forall_parts_index {b i : Expr} :
    (∀ x ∈ (index b i info).parts, P x) ↔ P (.index b i info) ∧ (∀ x ∈ b.parts, P x) ∧ ∀ x ∈ i.parts, P x := by
  rw [parts, List.forall_mem_cons, List.forall_mem_append]

theorem forall_parts_field {b : Expr} {name : String} :
    (∀ x ∈ (field b name info).parts, P x) ↔ P (.field b name info) ∧ ∀ x ∈ b.parts, P x := by
  rw [parts, List.forall_mem_cons]

theorem forall_parts_call {c : Expr} {args : List Expr} :
    (∀ x ∈ (call c args info).parts, P x) ↔ P (.call c args info) ∧ (∀ x ∈ c.parts, P x) ∧ ∀ x ∈ partsAll args, P x := by
  rw [parts, List.forall_mem_cons, List.forall_mem_append]

theorem forall_parts_composite {es : List Expr} :
    (∀ x ∈ (composite es info).parts, P x) ↔ P (.composite es info) ∧ ∀ x ∈ partsAll es, P x := by
  rw [parts, List.forall_mem_cons]

theorem forall_parts_addrOf {e : Expr} : (∀ x ∈ (addrOf e info).parts, P x) ↔ P (.addrOf e info) ∧ ∀ x ∈ e.parts, P x := by
  rw [parts, List.forall_mem_cons]

theorem forall_partsAll_cons {e : Expr} {es : List Expr} :
    (∀ x ∈ partsAll (e :: es), P x) ↔ (∀ x ∈ e.parts, P x) ∧ ∀ x ∈ partsAll es, P x := by
  rw [partsAll, List.forall_mem_append]

end Expr

/-! ## What comes of a check -/

/-- What a halt leaves behind is sound, and the halt is one at something other than containment. -/
def IsLeft (V : Ty → Prop) (structs : List StructInfo) (halt : Halt) (left : List Expr) : Prop := halt.IsPlain V ∧ ∀ x ∈ left, x.IsSound V structs

/-- What a check finds is an expression that is settled, with its type. Only what was a call has no value. -/
structure Expr.IsFound (V : Ty → Prop) (structs : List StructInfo) (before after : Expr) (t : Ty) : Prop where
  noted : after.info.ty = some t
  value : V t ∨ t = .void ∧ before.isCall = true ∧ after.isCall = true
  settled : ∀ x ∈ after.parts, x.IsSettled V structs

variable {V : Ty → Prop} {structs : List StructInfo}

theorem Expr.IsFound.valued {before after : Expr} {t : Ty} (h : before.IsFound V structs after t)
    (ht : t ≠ .void) : after.IsValued V :=
  ⟨t, h.noted, h.value.resolve_right fun hv => ht hv.1⟩

/-- The notes that a check makes in an expression are sound, and the expression is settled if the check does not halt.
-/
abbrev Expr.Settles (V : Ty → Prop) (structs : List StructInfo) (e : Expr) (checked : Checked Expr (Expr × Ty)) : Prop :=
  Meets (fun left => IsLeft V structs left.1 left.2.parts) (fun r => e.IsFound V structs r.1 r.2) checked

/-- Operands have the given types, which are types that values can have. -/
def Expr.HaveNoted (V : Ty → Prop) (es : List Expr) (ts : List Ty) : Prop :=
  List.Forall₂ (fun e t => e.info.ty = some t ∧ V t) es ts

/-- A slot for types that values can have. -/
def Slot.IsSound (V : Ty → Prop) : Slot → Prop
  | .argument _ _ t | .element _ _ t => V t
  | .allocated | .freed => True

/-- The types of values are from a closed class, with all types that are written at a site among them. -/
structure Site.IsSound (V : Ty → Prop) (site : Site) : Prop where
  closed : Ty.IsClosed V
  written : ∀ t, t.IsWellFormed site.catalog.structNames → V t
  structs : site.catalog.KnowsStructs
  symbols : ∀ name s, site.lookup name = some s → s.IsSound V
  fields : ∀ name i, site.catalog.struct? name = some i → ∀ f ∈ i.fields, V f.2
  builtins : ∀ name s, site.builtins.lookup name = some s → V s.ty

/-- A callee that calls in order can be made of. The callee of a special form still waits for its type. -/
def IsCallee (V : Ty → Prop) (structs : List StructInfo) (e : Expr) : CallForm → Prop
  | .fixed _ s => V s.ty ∧ e.IsValued V ∧ ∀ x ∈ e.parts, x.IsSettled V structs
  | .alloc | .free => ∃ name info, e = .ident name none info ∧ info.ty = none

/-! ## Names, fields and slots -/

theorem Expr.isSettled_of_isSound {e : Expr} (h : e.IsSound V structs) (hc : e.children = []) :
    ∀ x ∈ [e], x.IsSettled V structs :=
  List.forall_mem_singleton.mpr ⟨h, hc ▸ List.forall_mem_nil _⟩

/-- A note of a type that a value can have. -/
theorem noted_of_value {t : Ty} (ht : V t) (u : Ty) (hu : some t = some u) : V u := by
  obtain rfl := Option.some.inj hu
  exact ht

namespace Site

variable {site : Site} (h : site.IsSound V)
include h

theorem IsSound.meets_value (name : String) : Meets (Problem.Cause.IsPlain V)
    (fun found => found.1.IsSound V ∧ V found.2) (site.value name) := by
  unfold value
  split
  · split
    · exact Problem.Cause.IsPlain.of_kind rfl rfl
    · split <;> exact Problem.Cause.IsPlain.of_kind rfl rfl
  · rename_i s hs
    split
    · exact Problem.Cause.IsPlain.of_kind rfl rfl
    · exact Problem.Cause.IsPlain.of_kind rfl rfl
    · exact Problem.Cause.IsPlain.of_kind rfl rfl
    · exact Problem.Cause.IsPlain.of_kind rfl rfl
    · rename_i t ht _ _ _
      exact ⟨h.symbols name s hs, h.symbols name s hs t ht⟩

theorem IsSound.meets_fieldType (t : Ty) (field : String) : Meets (Problem.Cause.IsPlain V)
    (fun u => V u ∧ ∃ i, t = .struct i.name
      ∧ site.catalog.structs.find? (fun s => s.name = i.name) = some i ∧ i.isComplete = true ∧ i.fields.lookup field = some u)
    (site.fieldType t field) := by
  unfold fieldType
  split
  · rename_i name
    split
    · exact Problem.Cause.IsPlain.of_kind rfl rfl
    · rename_i i hi
      obtain ⟨hi, hcomplete⟩ := Option.filter_eq_some_iff.mp hi
      split
      · exact Problem.Cause.IsPlain.of_kind rfl rfl
      · rename_i u hu
        have hname : i.name = name := by simpa using List.find?_some hi
        obtain ⟨f, hf, rfl⟩ : ∃ f ∈ i.fields, f.2 = u := by
          obtain ⟨before, after, hsplit, -⟩ := List.lookup_eq_some_iff.mp hu
          exact ⟨(field, u), by simp [hsplit], rfl⟩
        exact ⟨h.fields name i hi f hf, i, by rw [hname], by rw [hname]; exact hi, hcomplete, hu⟩
  · exact Problem.Cause.IsPlain.of_kind rfl rfl

theorem IsSound.meets_select {b base left : Expr} {t : Ty} (hbase : b.IsFound V site.catalog.structs base t) (before : Expr)
    (name : String) (span : Span) (hleft : ∀ x ∈ left.parts, x.IsSound V site.catalog.structs) :
    before.Settles V site.catalog.structs (site.select base t name span left) := by
  have hfield := h.meets_fieldType t name
  unfold select
  cases hu : site.fieldType t name with
  | error cause => exact ⟨Halt.isPlain_at _ (hfield.of_error hu), hleft⟩
  | ok u =>
    obtain ⟨huwf, i, rfl, hi, hcomplete, hlookup⟩ := hfield.of_ok hu
    refine ⟨rfl, .inl huwf, Expr.forall_parts_field.mpr ⟨⟨fun v hv => ?_, ?_⟩, hbase.settled⟩⟩
    · obtain rfl := Option.some.inj hv
      exact ⟨huwf, i, hbase.noted, hi, hcomplete, hlookup⟩
    · exact List.forall_mem_singleton.mpr (hbase.valued nofun)

theorem IsSound.meets_elementSlots {t : Ty} (ht : V t) (count : Nat) :
    Meets (Problem.Cause.IsPlain V)
      (fun slots => slots.length = count ∧ (∀ slot ∈ slots, slot.IsSound V)
        ∧ ∀ name, t = .struct name → ∃ i, site.catalog.structs.find? (fun s => s.name = name) = some i ∧ i.isComplete = true
          ∧ i.fields.length = count)
      (site.catalog.elementSlots t count) := by
  have hslots (types : List Ty) (htypes : ∀ u ∈ types, V u) :
      ∀ slot ∈ Slot.numbered (.element t) types, slot.IsSound V := by
    intro slot hslot
    obtain ⟨k, hk, rfl⟩ := List.mem_mapIdx.mp hslot
    exact htypes _ (List.getElem_mem hk)
  unfold Catalog.elementSlots
  split
  · rename_i element size
    split
    · refine ⟨by simp [Slot.numbered], hslots _ fun u hu => ?_, nofun⟩
      rw [List.eq_of_mem_replicate hu]
      exact h.closed.element element size ht
    · exact Problem.Cause.IsPlain.of_kind rfl rfl
  · rename_i name
    split
    · exact Problem.Cause.IsPlain.of_kind rfl rfl
    · rename_i i hi
      obtain ⟨hi, hcomplete⟩ := Option.filter_eq_some_iff.mp hi
      split
      · rename_i hcount
        refine ⟨by simp [Slot.numbered, hcount], hslots _ fun u hu => ?_, fun name' hname => ?_⟩
        · obtain ⟨f, hf, rfl⟩ := List.mem_map.mp hu
          exact h.fields name i hi f hf
        · obtain rfl := Ty.struct.inj hname
          exact ⟨i, hi, hcomplete, hcount.symm⟩
      · exact Problem.Cause.IsPlain.of_kind rfl rfl
  · exact Problem.Cause.IsPlain.of_kind rfl rfl

end Site

/-! ## Operands -/

/-- An operand that is taken by its slot has a type that a value can have. -/
theorem Slot.isValue_of_takes {slot : Slot} {before after : Expr} {t : Ty}
    (hslot : slot.IsSound V) (hfound : before.IsFound V structs after t)
    (hallocated : slot = .allocated → V t) (htakes : slot.refusal? t = none) :
    V t := by
  cases slot with
  | argument _ _ expected | element _ _ expected =>
    obtain rfl : t = expected := by
      by_contra hne
      simp [refusal?, hne] at htakes
    exact hslot
  | allocated => exact hallocated rfl
  | freed =>
    refine hfound.value.resolve_right fun hvoid => ?_
    rw [hvoid.1] at htakes
    exact nomatch htakes

theorem Slot.isPlain_of_refusal? {slot : Slot} (hslot : slot.IsSound V) {t : Ty} (ht : V t ∨ t = .void) {cause : Problem.Cause}
    (h : slot.refusal? t = some cause) : cause.IsPlain V := by
  cases slot with
  | argument _ _ expected | element _ _ expected =>
    rw [refusal?] at h
    split at h
    · cases h
    · rename_i hne
      obtain rfl := Option.some.inj h
      exact .of_types nofun rfl (Ne.symm hne) (.inl hslot) ht
  | allocated => cases h
  | freed =>
    cases t with
    | pointer _ => cases h
    | primitive _ | void | array _ _ | struct _ | func _ _ =>
      obtain rfl := Option.some.inj h
      exact .of_kind rfl rfl

theorem Expr.isSound_leftBehind {before after : Expr} (hbefore : ∀ x ∈ before.parts, x.IsBlank)
    (hafter : ∀ x ∈ after.parts, x.IsSound V structs) : ∀ x ∈ (leftBehind before after).parts, x.IsSound V structs := by
  unfold leftBehind
  split
  · obtain ⟨hnode, -, hi⟩ := forall_parts_index.mp hbefore
    obtain ⟨-, hbase⟩ := forall_parts_field.mp hafter
    exact forall_parts_index.mpr ⟨IsBlank.isSound (e := .index _ _ _) hnode, hbase, fun x hx => (hi x hx).isSound⟩
  · obtain ⟨hnode, -⟩ := forall_parts_field.mp hbefore
    obtain ⟨-, hbase⟩ := forall_parts_field.mp hafter
    exact forall_parts_field.mpr ⟨IsBlank.isSound (e := .field _ _ _) hnode, hbase⟩
  · exact hafter
  · exact fun x hx => (hbefore x hx).isSound
  · exact hafter

namespace Site

variable {site : Site} (h : site.IsSound V)
include h

theorem IsSound.meets_typeOperand {e : Expr} (he : ∀ x ∈ e.parts, x.IsBlank) :
    Meets (fun r => IsLeft V site.catalog.structs r.1 r.2.parts)
      (fun r => e.IsFound V site.catalog.structs r.1 r.2 ∧ V r.2) (site.typeOperand e) := by
  have hleft : ∀ x ∈ e.parts, x.IsSound V site.catalog.structs := fun x hx => (he x hx).isSound
  rw [typeOperand_eq]
  cases e.writtenType? with
  | none => exact ⟨Halt.isPlain_atExpr .allocType (.of_kind rfl rfl) e, hleft⟩
  | some written =>
    obtain ⟨w, info⟩ := written
    have hresolve := w.meets_resolve_value (V := V) h.structs (some (site.index : Int))
    dsimp only
    unfold writtenOperand
    cases hw : w.resolve site.catalog (some (site.index : Int)) false with
    | error halt => exact ⟨hresolve.of_error hw, hleft⟩
    | ok t =>
      have ht := h.written t (hresolve.of_ok hw)
      exact ⟨⟨rfl, .inl ht, Expr.isSettled_of_isSound (noted_of_value ht) rfl⟩, ht⟩

/-! ## Callees -/

theorem IsSound.meets_callForm? {e : Expr} (he : ∀ x ∈ e.parts, x.IsBlank) (span : Span) :
    Meets (Halt.IsPlain V) (fun called? => ∀ called, called? = some called → IsCallee V site.catalog.structs called.1 called.2)
      (site.callForm? span e) := by
  cases e with
  | ident name symbol info =>
    obtain ⟨rfl, hinfo⟩ : symbol = none ∧ info.ty = none := he _ List.mem_cons_self
    rw [callForm?]
    split
    · split
      · exact fun called hcalled => Option.some.inj hcalled ▸ ⟨name, info, rfl, hinfo⟩
      · exact fun called hcalled => Option.some.inj hcalled ▸ ⟨name, info, rfl, hinfo⟩
      · exact Halt.isPlain_at .addressOperand (.of_kind rfl rfl)
      · split
        · rename_i s hs
          have hwf := h.builtins name s hs
          intro called hcalled
          obtain rfl := Option.some.inj hcalled
          exact ⟨hwf, ⟨_, rfl, hwf⟩, Expr.isSettled_of_isSound ⟨fun _ hs => (Option.some_ne_none _ hs.symm).elim, noted_of_value hwf⟩ rfl⟩
        · exact Halt.isPlain_at (.unknownBuiltin name) (.of_kind rfl rfl)
    · split
      · exact fun _ hcalled => (Option.some_ne_none _ hcalled.symm).elim
      · rename_i s hs
        split
        · rename_i params result hkind hty
          have hsymbol := h.symbols name s hs
          have hwf := hsymbol _ hty
          intro called hcalled
          obtain rfl := Option.some.inj hcalled
          refine ⟨hwf, ⟨_, hty, hwf⟩, Expr.isSettled_of_isSound ⟨fun s' hs' => ?_, fun u hu => hsymbol u hu⟩ rfl⟩
          obtain rfl := Option.some.inj hs'
          exact hsymbol
        · exact Halt.isPlain_at (.invalidCallee name) (.of_kind rfl rfl)
        · exact Halt.isPlain_at (.symbolNotCallable name s.kind) (.of_kind rfl rfl)
        · exact Halt.isPlain_at (.symbolNotCallable name s.kind) (.of_kind rfl rfl)
        · exact fun _ hcalled => (Option.some_ne_none _ hcalled.symm).elim
  | int _ _ | real _ _ | byte _ _ | index _ _ _ | field _ _ _ | call _ _ _ | composite _ _ | addrOf _ _ | typeArg _ _
  | foreign _ => exact fun _ hcalled => (Option.some_ne_none _ hcalled.symm).elim

theorem IsSound.meets_functionAddress? {e : Expr} :
    Meets (Halt.IsPlain V) (fun found? => ∀ found, found? = some found → e.IsFound V site.catalog.structs found.1 found.2
      ∧ V found.2) (site.functionAddress? e) := by
  cases e with
  | ident name symbol info =>
    rw [functionAddress?]
    split
    · rename_i s hs
      obtain ⟨hs, -⟩ := Option.filter_eq_some_iff.mp hs
      split
      · rename_i t ht
        have hsymbol := h.symbols name s hs
        have hwf := hsymbol t ht
        intro found hfound
        obtain rfl := Option.some.inj hfound
        refine ⟨⟨rfl, .inl hwf, Expr.isSettled_of_isSound ⟨fun s' hs' => ?_, noted_of_value hwf⟩ rfl⟩, hwf⟩
        obtain rfl := Option.some.inj hs'
        exact hsymbol
      · exact Halt.isPlain_at (.invalidTarget name) (.of_kind rfl rfl)
    · split
      · exact Halt.isPlain_at (.builtinAddress name) (.of_kind rfl rfl)
      · exact fun _ hfound => (nomatch hfound)
  | int _ _ | real _ _ | byte _ _ | index _ _ _ | field _ _ _ | call _ _ _ | composite _ _ | addrOf _ _ | typeArg _ _
  | foreign _ => exact fun _ hfound => (nomatch hfound)

end Site

/-- The slots of a call are for types that values can have. -/
theorem CallForm.meets_slots (hV : Ty.IsClosed V) {e : Expr} {form : CallForm} (h : IsCallee V structs e form) (count : Nat) :
    Meets (Problem.Cause.IsPlain V) (fun slots => slots.length = count ∧ (∀ slot ∈ slots, slot.IsSound V)
      ∧ (form = .alloc → slots ≠ [])) (form.slots count) := by
  cases form with
  | fixed callee s =>
    rw [slots]
    split
    · rename_i hcount
      refine ⟨by simp [Slot.numbered, hcount], fun slot hslot => ?_, nofun⟩
      obtain ⟨k, hk, rfl⟩ := List.mem_mapIdx.mp hslot
      exact ((hV.func _ _).mp h.1).1 _ (List.getElem_mem hk)
    · exact Problem.Cause.IsPlain.of_kind rfl rfl
  | alloc =>
    match count with
    | 1 => exact ⟨rfl, List.forall_mem_singleton.mpr trivial, fun _ => nofun⟩
    | 2 => exact ⟨rfl, List.forall_mem_cons.mpr ⟨trivial, List.forall_mem_singleton.mpr (hV.primitive _)⟩, fun _ => nofun⟩
    | 0 => exact (.of_kind rfl rfl : Problem.Cause.IsPlain V (.allocOperands 0))
    | n + 3 => exact (.of_kind rfl rfl : Problem.Cause.IsPlain V (.allocOperands (n + 3)))
  | free =>
    rw [slots]
    split
    · rename_i hcount
      exact ⟨hcount.symm, List.forall_mem_singleton.mpr trivial, nofun⟩
    · exact Problem.Cause.IsPlain.of_kind rfl rfl

theorem IsCallee.isSound {e : Expr} {form : CallForm} (h : IsCallee V structs e form) :
    ∀ x ∈ e.parts, x.IsSound V structs := by
  cases form with
  | fixed callee s => exact fun x hx => (h.2.2 x hx).sound
  | alloc | free =>
    obtain ⟨name, info, rfl, hinfo⟩ := h
    exact List.forall_mem_singleton.mpr (Expr.IsBlank.isSound (e := .ident name none info) ⟨rfl, hinfo⟩)

/-- A callee is settled once the types of the operands are known, and the call has a type that a value can have, or is `void`. -/
theorem IsCallee.noteCallee (hV : Ty.IsClosed V) {e : Expr} {form : CallForm} (h : IsCallee V structs e form)
    {types : List Ty} (htypes : ∀ t ∈ types, V t) (hne : form = .alloc → types ≠ []) :
    (form.result types = .void ∨ V (form.result types))
      ∧ (form.noteCallee types e).IsValued V ∧ ∀ x ∈ (form.noteCallee types e).parts, x.IsSettled V structs := by
  cases form with
  | fixed callee s => exact ⟨((hV.func _ _).mp h.1).2, h.2⟩
  | alloc =>
    obtain ⟨name, info, rfl, -⟩ := h
    obtain ⟨t, rest, rfl⟩ := List.exists_cons_of_ne_nil (hne rfl)
    have hresult : V (Ty.pointer t) := (hV.pointer t).mpr (htypes t List.mem_cons_self)
    have hfunc : V (Ty.func (t :: rest) (.pointer t)) := (hV.func _ _).mpr ⟨htypes, .inr hresult⟩
    exact ⟨.inr hresult, ⟨_, rfl, hfunc⟩, Expr.isSettled_of_isSound ⟨fun _ hs => (nomatch hs), noted_of_value hfunc⟩ rfl⟩
  | free =>
    obtain ⟨name, info, rfl, -⟩ := h
    have hfunc : V (Ty.func types .void) := (hV.func _ _).mpr ⟨htypes, .inl rfl⟩
    exact ⟨.inl rfl, ⟨_, rfl, hfunc⟩, Expr.isSettled_of_isSound ⟨fun _ hs => (nomatch hs), noted_of_value hfunc⟩ rfl⟩

/-! ## Parts of a check -/

theorem Slot.IsSound.context {slot : Slot} (h : slot.IsSound V) (t : Ty) (ht : slot.context = some t) : V t := by
  cases slot with
  | element _ _ expected =>
    obtain rfl := Option.some.inj ht
    exact h
  | argument _ _ _ | allocated | freed => cases ht

/-- What is behind an array or a pointer has a type that a value can have. -/
theorem Ty.IsClosed.of_element? (hV : Ty.IsClosed V) {t u : Ty} (hu : t.element? = some u) (h : V t) : V u := by
  cases t with
  | array e n =>
    obtain rfl := Option.some.inj hu
    exact hV.element e n h
  | pointer e =>
    obtain rfl := Option.some.inj hu
    exact (hV.pointer e).mp h
  | primitive _ | void | struct _ | func _ _ => cases hu

theorem Expr.isSound_index {base i : Expr} {info : Info} (hinfo : info.ty = none)
    (hbase : ∀ x ∈ base.parts, x.IsSound V structs) (hi : ∀ x ∈ i.parts, x.IsSound V structs) :
    ∀ x ∈ (Expr.index base i info).parts, x.IsSound V structs :=
  forall_parts_index.mpr ⟨IsBlank.isSound (e := .index base i info) hinfo, hbase, hi⟩

theorem Expr.isSound_call {e : Expr} {args : List Expr} {info : Info} (hinfo : info.ty = none)
    (he : ∀ x ∈ e.parts, x.IsSound V structs) (hargs : ∀ x ∈ partsAll args, x.IsSound V structs) :
    ∀ x ∈ (Expr.call e args info).parts, x.IsSound V structs :=
  forall_parts_call.mpr ⟨IsBlank.isSound (e := .call e args info) hinfo, he, hargs⟩

namespace Site

variable {site : Site} (h : site.IsSound V)
include h

theorem IsSound.meets_behind {b base i : Expr} {t : Ty} {info : Info} (hbase : b.IsFound V site.catalog.structs base t)
    (before : Expr) (hinfo : info.ty = none) (hi : ∀ x ∈ i.parts, x.IsBlank)
    (hcheck : i.Settles V site.catalog.structs (i.check site none)) :
    before.Settles V site.catalog.structs (site.behind base t i info) := by
  have hbaseSound (x : Expr) (hx : x ∈ base.parts) : x.IsSound V site.catalog.structs := (hbase.settled x hx).sound
  have hleft := Expr.isSound_index hinfo hbaseSound fun x hx => (hi x hx).isSound
  have hindexed : before.Settles V site.catalog.structs (site.indexed base t i info) := by
    unfold indexed
    cases helement : t.element? with
    | none => exact ⟨Halt.isPlain_at (.notIndexed t) (.of_kind rfl rfl), hleft⟩
    | some element =>
      have hvoid : t ≠ .void := by
        rintro rfl
        cases helement
      have hwf := h.closed.of_element? helement (hbase.value.resolve_right fun hv => hvoid hv.1)
      cases hic : i.check site none with
      | error left => exact ⟨(hcheck.of_error hic).1, Expr.isSound_index hinfo hbaseSound (hcheck.of_error hic).2⟩
      | ok r =>
        obtain ⟨i', u⟩ := r
        have hfound := hcheck.of_ok hic
        dsimp only
        split
        · rename_i hu
          refine ⟨rfl, .inl hwf, Expr.forall_parts_index.mpr ⟨⟨fun v hv => ?_, ?_⟩, hbase.settled, hfound.settled⟩⟩
          · obtain rfl := Option.some.inj hv
            exact ⟨hwf, t, hbase.noted, helement⟩
          refine List.forall_mem_cons.mpr ⟨hbase.valued hvoid, List.forall_mem_singleton.mpr (hfound.valued ?_)⟩
          rw [hu]
          exact nofun
        · rename_i hu
          exact ⟨Halt.isPlain_at (.indexNotInt u)
              (.of_types nofun rfl (Ne.symm hu) (.inl (h.closed.primitive _)) (hfound.value.imp_right And.left)),
            Expr.isSound_index hinfo hbaseSound fun x hx => (hfound.settled x hx).sound⟩
  cases t with
  | struct name =>
    unfold behind selected
    dsimp only
    cases i.ident? with
    | none => exact ⟨Halt.isPlain_atExpr (.structIndex name) (.of_kind rfl rfl) i, hleft⟩
    | some field => exact h.meets_select hbase before field info.span hleft
  | primitive _ | void | pointer _ | array _ _ | func _ _ => exact hindexed

theorem IsSound.meets_operand {slot : Slot} {e : Expr} (he : ∀ x ∈ e.parts, x.IsBlank)
    (hcheck : e.Settles V site.catalog.structs (e.check site slot.context)) :
    Meets (fun left => IsLeft V site.catalog.structs left.1 left.2.parts)
      (fun r => e.IsFound V site.catalog.structs r.1 r.2 ∧ (slot = .allocated → V r.2))
      (site.operand slot e) := by
  unfold operand
  split
  · exact (h.meets_typeOperand he).imp (fun _ hleft => hleft) fun _ hfound => ⟨hfound.1, fun _ => hfound.2⟩
  · rename_i hslot
    exact hcheck.imp (fun _ hleft => hleft) fun _ hfound => ⟨hfound, fun hallocated => absurd hallocated hslot⟩

theorem IsSound.meets_callee {e : Expr} (he : ∀ x ∈ e.parts, x.IsBlank) (span : Span)
    (hcheck : e.Settles V site.catalog.structs (e.check site none)) :
    Meets (fun left => IsLeft V site.catalog.structs left.1 left.2.parts)
      (fun called => IsCallee V site.catalog.structs called.1 called.2) (Expr.callee site span e) := by
  have hform := h.meets_callForm? he span
  unfold Expr.callee
  cases hf : site.callForm? span e with
  | error halt => exact ⟨hform.of_error hf, fun x hx => (he x hx).isSound⟩
  | ok called? =>
    cases called? with
    | some called => exact hform.of_ok hf called rfl
    | none =>
      cases hc : e.check site none with
      | error left => exact hcheck.of_error hc
      | ok r =>
        obtain ⟨e', t⟩ := r
        have hfound := hcheck.of_ok hc
        cases t with
        | func params result => exact ⟨hfound.value.resolve_right fun hv => (nomatch hv.1), hfound.valued nofun, hfound.settled⟩
        | primitive p =>
          exact ⟨Halt.isPlain_at (.notCallable (.primitive p)) (.of_kind rfl rfl), fun x hx => (hfound.settled x hx).sound⟩
        | void => exact ⟨Halt.isPlain_at (.notCallable .void) (.of_kind rfl rfl), fun x hx => (hfound.settled x hx).sound⟩
        | pointer t =>
          exact ⟨Halt.isPlain_at (.notCallable (.pointer t)) (.of_kind rfl rfl), fun x hx => (hfound.settled x hx).sound⟩
        | array t n =>
          exact ⟨Halt.isPlain_at (.notCallable (.array t n)) (.of_kind rfl rfl), fun x hx => (hfound.settled x hx).sound⟩
        | struct name =>
          exact ⟨Halt.isPlain_at (.notCallable (.struct name)) (.of_kind rfl rfl), fun x hx => (hfound.settled x hx).sound⟩

end Site

/-! ## All expressions -/

theorem Expr.HaveNoted.types {es : List Expr} {ts : List Ty} (h : HaveNoted V es ts) : ∀ t ∈ ts, V t := by
  induction h with
  | nil => exact List.forall_mem_nil _
  | cons h _ ih => exact List.forall_mem_cons.mpr ⟨h.2, ih⟩

theorem Expr.HaveNoted.valued {es : List Expr} {ts : List Ty} (h : HaveNoted V es ts) :
    ∀ e ∈ es, e.IsValued V := by
  induction h with
  | nil => exact nofun
  | cons h _ ih => exact List.forall_mem_cons.mpr ⟨⟨_, h⟩, ih⟩

namespace Expr

theorem isAddressable_of_isCall {e : Expr} (h : e.isCall = true) : e.isAddressable = false := by
  cases e with
  | call _ _ _ => rfl
  | int _ _ | real _ _ | byte _ _ | ident _ _ _ | index _ _ _ | field _ _ _ | composite _ _ | addrOf _ _ | typeArg _ _
  | foreign _ => cases h

variable {site : Site} (h : site.IsSound V)
include h

mutual

/-- An expression without notes is settled by its check. -/
theorem meets_check : (e : Expr) → (∀ x ∈ e.parts, x.IsBlank) → (context : Option Ty) →
    (∀ t, context = some t → V t) →
    e.Settles V site.catalog.structs (e.check site context)
  | .int n info, _, _, _ => ⟨rfl, .inl (h.closed.primitive _), isSettled_of_isSound (noted_of_value (h.closed.primitive _)) rfl⟩
  | .real x info, _, _, _ => ⟨rfl, .inl (h.closed.primitive _), isSettled_of_isSound (noted_of_value (h.closed.primitive _)) rfl⟩
  | .byte n info, _, _, _ => ⟨rfl, .inl (h.closed.primitive _), isSettled_of_isSound (noted_of_value (h.closed.primitive _)) rfl⟩
  | .ident name symbol info, he, _, _ => by
    have hvalue := h.meets_value name
    rw [check]
    cases hv : site.value name with
    | error cause => exact ⟨Halt.isPlain_at _ (hvalue.of_error hv), fun x hx => (he x hx).isSound⟩
    | ok found =>
      obtain ⟨hs, ht⟩ := hvalue.of_ok hv
      refine ⟨rfl, .inl ht, isSettled_of_isSound ⟨fun s hsymbol => ?_, noted_of_value ht⟩ rfl⟩
      obtain rfl := Option.some.inj hsymbol
      exact hs
  | .index base i info, he, _, _ => by
    obtain ⟨hinfo, hbase, hi⟩ := forall_parts_index.mp he
    have hcheck := meets_check base hbase none nofun
    rw [check_index]
    cases hb : base.check site none with
    | error left =>
      obtain ⟨hplain, hleft⟩ := hcheck.of_error hb
      exact ⟨hplain, isSound_index hinfo hleft fun x hx => (hi x hx).isSound⟩
    | ok r => exact h.meets_behind (hcheck.of_ok hb) _ hinfo hi (meets_check i hi none nofun)
  | .field base name info, he, _, _ => by
    obtain ⟨hinfo, hbase⟩ := forall_parts_field.mp he
    have hcheck := meets_check base hbase none nofun
    have hnode (base' : Expr) : (field base' name info).IsSound V site.catalog.structs :=
      IsBlank.isSound (e := .field base' name info) hinfo
    rw [check]
    cases hb : base.check site none with
    | error left =>
      obtain ⟨hplain, hleft⟩ := hcheck.of_error hb
      exact ⟨hplain, forall_parts_field.mpr ⟨hnode _, hleft⟩⟩
    | ok r =>
      have hfound := hcheck.of_ok hb
      exact h.meets_select hfound _ name info.span
        (forall_parts_field.mpr ⟨hnode _, fun x hx => (hfound.settled x hx).sound⟩)
  | .call e args info, he, _, _ => by
    obtain ⟨hinfo, he, hargs⟩ := forall_parts_call.mp he
    have hargsSound (x : Expr) (hx : x ∈ partsAll args) : x.IsSound V site.catalog.structs := (hargs x hx).isSound
    have hcallee := h.meets_callee he info.span (meets_check e he none nofun)
    rw [check_call]
    cases hc : callee site info.span e with
    | error left =>
      obtain ⟨hplain, hleft⟩ := hcallee.of_error hc
      exact ⟨hplain, isSound_call hinfo hleft hargsSound⟩
    | ok called =>
      obtain ⟨e', form⟩ := called
      have hform := hcallee.of_ok hc
      have heSound (x : Expr) (hx : x ∈ e'.parts) : x.IsSound V site.catalog.structs := IsCallee.isSound hform x hx
      have hslots := CallForm.meets_slots h.closed hform args.length
      dsimp only
      cases hs : form.slots args.length with
      | error cause => exact ⟨Halt.isPlain_at _ (hslots.of_error hs), isSound_call hinfo heSound hargsSound⟩
      | ok slots =>
        obtain ⟨hlength, hsound, hne⟩ := hslots.of_ok hs
        have hoperands := meets_checkAll args hargs slots hlength hsound
        dsimp only
        cases ha : checkAll site slots args with
        | error left =>
          obtain ⟨hplain, hleft⟩ := hoperands.of_error ha
          exact ⟨hplain, isSound_call hinfo heSound hleft⟩
        | ok r =>
          obtain ⟨args', types⟩ := r
          obtain ⟨hnoted, hsettled, hcount⟩ : HaveNoted _ args' types ∧ _ ∧ args'.length = args.length := hoperands.of_ok ha
          have htypes (halloc : form = .alloc) : types ≠ [] := by
            rw [← List.length_pos_iff, ← hnoted.length_eq, hcount, ← hlength, List.length_pos_iff]
            exact hne halloc
          obtain ⟨hresult, hvalued, hcalleeSettled⟩ := IsCallee.noteCallee h.closed hform hnoted.types htypes
          refine ⟨rfl, ?_, forall_parts_call.mpr ⟨⟨fun t ht => ?_, ?_⟩, hcalleeSettled, hsettled⟩⟩
          · exact hresult.symm.imp_right fun hvoid => ⟨hvoid, rfl, rfl⟩
          · obtain rfl := Option.some.inj ht
            exact hresult
          · exact List.forall_mem_cons.mpr ⟨hvalued, hnoted.valued⟩
  | .addrOf e info, he, _, _ => by
    obtain ⟨hinfo, he⟩ := forall_parts_addrOf.mp he
    have hnode (e' : Expr) : (addrOf e' info).IsSound V site.catalog.structs := IsBlank.isSound (e := .addrOf e' info) hinfo
    have haddress := h.meets_functionAddress? (e := e)
    rw [check]
    cases ha : site.functionAddress? e with
    | error halt => exact ⟨haddress.of_error ha, forall_parts_addrOf.mpr ⟨hnode _, fun x hx => (he x hx).isSound⟩⟩
    | ok found? =>
      cases found? with
      | some found =>
        obtain ⟨hfound, hwf⟩ := haddress.of_ok ha found rfl
        exact ⟨rfl, .inl hwf, forall_parts_addrOf.mpr ⟨⟨noted_of_value hwf,
          List.forall_mem_singleton.mpr ⟨_, hfound.noted, hwf⟩⟩, hfound.settled⟩⟩
      | none =>
        have hcheck := meets_check e he none nofun
        dsimp only
        cases hc : e.check site none with
        | error left =>
          obtain ⟨hplain, hleft⟩ := hcheck.of_error hc
          exact ⟨hplain, forall_parts_addrOf.mpr ⟨hnode _, hleft⟩⟩
        | ok r =>
          obtain ⟨e', t⟩ := r
          have hfound := hcheck.of_ok hc
          dsimp only
          split
          · rename_i haddressable
            have hwf := hfound.value.resolve_right fun hv => by
              rw [isAddressable_of_isCall hv.2.2] at haddressable
              cases haddressable
            have hpointer := (h.closed.pointer t).mpr hwf
            exact ⟨rfl, .inl hpointer, forall_parts_addrOf.mpr ⟨⟨noted_of_value hpointer,
              List.forall_mem_singleton.mpr ⟨_, hfound.noted, hwf⟩⟩, hfound.settled⟩⟩
          · exact ⟨Halt.isPlain_at .notAddressable (.of_kind rfl rfl),
              forall_parts_addrOf.mpr ⟨hnode _, fun x hx => (hfound.settled x hx).sound⟩⟩
  | .composite es info, he, context, hcontext => by
    obtain ⟨hinfo, hes⟩ := forall_parts_composite.mp he
    have hnode (es' : List Expr) : (composite es' info).IsSound V site.catalog.structs :=
      IsBlank.isSound (e := .composite es' info) hinfo
    have hblank : ∀ x ∈ (composite es info).parts, x.IsSound V site.catalog.structs := fun x hx => (he x hx).isSound
    cases context with
    | none =>
      rw [check]
      exact ⟨Halt.isPlain_at .compositeContext (.of_kind rfl rfl), hblank⟩
    | some t =>
      rw [check]
      have hwf := hcontext t rfl
      have hslots := h.meets_elementSlots hwf es.length
      cases hs : site.catalog.elementSlots t es.length with
      | error cause => exact ⟨Halt.isPlain_at _ (hslots.of_error hs), hblank⟩
      | ok slots =>
        obtain ⟨hlength, hsound, hstruct⟩ := hslots.of_ok hs
        have helements := meets_checkAll es hes slots hlength hsound
        dsimp only
        cases hes' : checkAll site slots es with
        | error left =>
          obtain ⟨hplain, hleft⟩ := helements.of_error hes'
          exact ⟨hplain, forall_parts_composite.mpr ⟨hnode _, hleft⟩⟩
        | ok r =>
          obtain ⟨hnoted, hsettled, hcount⟩ := helements.of_ok hes'
          refine ⟨rfl, .inl hwf, forall_parts_composite.mpr ⟨⟨fun u hu => ?_, hnoted.valued⟩, hsettled⟩⟩
          obtain rfl := Option.some.inj hu
          refine ⟨hwf, fun name hname => ?_⟩
          obtain ⟨i, hi, hcomplete, hfields⟩ := hstruct name hname
          exact ⟨i, hi, hcomplete, hfields.trans hcount.symm⟩
  | .typeArg w info, he, _, _ => ⟨Halt.isPlain_at .typeValue (.of_kind rfl rfl), fun x hx => (he x hx).isSound⟩
  | .foreign node, he, _, _ => ⟨trivial, fun x hx => (he x hx).isSound⟩

theorem meets_checkAll : (es : List Expr) → (∀ x ∈ partsAll es, x.IsBlank) → (slots : List Slot) → slots.length = es.length →
    (∀ slot ∈ slots, slot.IsSound V) →
    Meets (fun left => IsLeft V site.catalog.structs left.1 (partsAll left.2))
      (fun r => HaveNoted V r.1 r.2 ∧ (∀ x ∈ partsAll r.1, x.IsSettled V site.catalog.structs)
        ∧ r.1.length = es.length) (checkAll site slots es)
  | [], _, slots, hlength, _ => by
    obtain rfl := List.length_eq_zero_iff.mp hlength
    rw [checkAll_nil]
    exact ⟨.nil, nofun, rfl⟩
  | e :: es, he, slot :: slots, hlength, hslots => by
    obtain ⟨he, hes⟩ := forall_partsAll_cons.mp he
    obtain ⟨hslot, hslots⟩ := List.forall_mem_cons.mp hslots
    have hrest (x : Expr) (hx : x ∈ partsAll es) : x.IsSound V site.catalog.structs := (hes x hx).isSound
    have hoperand := h.meets_operand he (meets_check e he slot.context hslot.context)
    rw [checkAll_cons]
    cases ho : site.operand slot e with
    | error left =>
      obtain ⟨hplain, hleft⟩ := hoperand.of_error ho
      exact ⟨hplain, forall_partsAll_cons.mpr ⟨hleft, hrest⟩⟩
    | ok r =>
      obtain ⟨e', t⟩ := r
      obtain ⟨hfound, hallocated⟩ := hoperand.of_ok ho
      have hbehind := isSound_leftBehind he fun x hx => (hfound.settled x hx).sound
      dsimp only
      cases hr : slot.refusal? t with
      | some cause =>
        exact ⟨Halt.isPlain_at _ (Slot.isPlain_of_refusal? hslot (hfound.value.imp_right And.left) hr), forall_partsAll_cons.mpr ⟨hbehind, hrest⟩⟩
      | none =>
        have hoperands := meets_checkAll es hes slots (Nat.succ.inj hlength) hslots
        dsimp only
        cases hes' : checkAll site slots es with
        | error left =>
          obtain ⟨hplain, hleft⟩ := hoperands.of_error hes'
          exact ⟨hplain, forall_partsAll_cons.mpr ⟨hbehind, hleft⟩⟩
        | ok r =>
          obtain ⟨hnoted, hsettled, hcount⟩ := hoperands.of_ok hes'
          have hwf := Slot.isValue_of_takes hslot hfound hallocated hr
          exact ⟨.cons ⟨hfound.noted, hwf⟩ hnoted, forall_partsAll_cons.mpr ⟨hfound.settled, hsettled⟩,
            congrArg (· + 1) hcount⟩

end

end Expr

end FlatScope
