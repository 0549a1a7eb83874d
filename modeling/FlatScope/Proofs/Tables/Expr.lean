/-
  Tables of builtins and expressions. A check asks the table for nothing but the names that calls call
  (`Expr.check_withBuiltins`), and it goes through only if the table has them all (`Expr.isKnown_of_check`).
-/
import FlatScope.Proofs.Notes.Expr
import FlatScope.Proofs.Typing.Expr

namespace FlatScope

/-! ## The names that are called -/

namespace Expr

/-- The name of the builtin that a call asks the table for, if it asks for one. -/
def tableName? : Expr → Option String
  | .call (.ident name _ _) _ _ => if isBuiltinName name && (SpecialForm.ofName? name).isNone then some name else none
  | _ => none

/-- A table says of what an expression calls what another one says. -/
def CallsAlike (b b' : Builtins) (e : Expr) : Prop := ∀ name, e.tableName? = some name → b'.lookup name = b.lookup name

/-- A table has what an expression calls. -/
def IsKnown (b : Builtins) (e : Expr) : Prop := ∀ name, e.tableName? = some name → ∃ s, b.lookup name = some s

variable {b b' : Builtins} {e : Expr}

theorem isKnown_of_eq_none (h : e.tableName? = none) : e.IsKnown b := by
  intro name hname
  rw [h] at hname
  cases hname

/-- A table that has all that is called says the same of it as every larger one. -/
theorem IsKnown.callsAlike (h : e.IsKnown b) (hlarger : ∀ name s, b.lookup name = some s → b'.lookup name = some s) :
    e.CallsAlike b b' := by
  intro name hname
  obtain ⟨s, hs⟩ := h name hname
  rw [hs, hlarger name s hs]

/-- An expression that spells a type calls nothing. -/
theorem isKnown_of_asType? : (e : Expr) → {w : TypeExpr} → e.asType? = some w → ∀ x ∈ e.parts, x.IsKnown b
  | .ident .., _, _ => List.forall_mem_singleton.mpr (isKnown_of_eq_none rfl)
  | .index base i info, _, h => by
    obtain ⟨_, hbase, h⟩ := Option.bind_eq_some_iff.mp h
    obtain ⟨_, hsize, -⟩ := Option.bind_eq_some_iff.mp h
    refine forall_parts_index.mpr ⟨isKnown_of_eq_none rfl, base.isKnown_of_asType? hbase, ?_⟩
    cases i with
    | int _ _ | ident _ _ _ => exact List.forall_mem_singleton.mpr (isKnown_of_eq_none rfl)
    | real _ _ | byte _ _ | index _ _ _ | field _ _ _ | call _ _ _ | composite _ _ | addrOf _ _ | typeArg _ _ | foreign _ =>
      cases hsize
  | .int .., _, h | .real .., _, h | .byte .., _, h | .field .., _, h | .call .., _, h | .composite .., _, h
  | .addrOf .., _, h | .typeArg .., _, h | .foreign _, _, h => nomatch h

end Expr

/-! ## Checks with another table -/

/-- A site with another table of builtins. -/
def Site.withBuiltins (site : Site) (b : Builtins) : Site := { site with builtins := b }

namespace Site

variable {site : Site} {b : Builtins}

theorem callForm?_withBuiltins {e : Expr} {args : List Expr} {info : Info}
    (h : (Expr.call e args info).CallsAlike site.builtins b) (span : Span) :
    (site.withBuiltins b).callForm? span e = site.callForm? span e := by
  cases e with
  | ident name symbol info' =>
    cases hb : isBuiltinName name with
    | false =>
      simp only [callForm?, hb]
      rfl
    | true =>
      cases hf : SpecialForm.ofName? name with
      | some form =>
        simp only [callForm?, hb, hf]
        cases form <;> rfl
      | none =>
        have hlookup : b.lookup name = site.builtins.lookup name := h name (by simp [Expr.tableName?, hb, hf])
        have hsame : (site.withBuiltins b).builtins.lookup name = site.builtins.lookup name := hlookup
        simp only [callForm?, hb, hf, hsame]
        rfl
  | int _ _ | real _ _ | byte _ _ | index _ _ _ | field _ _ _ | call _ _ _ | composite _ _ | addrOf _ _ | typeArg _ _
  | foreign _ => rfl

theorem behind_withBuiltins {i : Expr} (hi : i.check (site.withBuiltins b) none = i.check site none) (base : Expr) (t : Ty)
    (info : Info) : (site.withBuiltins b).behind base t i info = site.behind base t i info := by
  have hindexed : (site.withBuiltins b).indexed base t i info = site.indexed base t i info := by
    rw [indexed, indexed, hi]
  cases t with
  | struct name => rfl
  | primitive _ | void | pointer _ | array _ _ | func _ _ => exact hindexed

theorem operand_withBuiltins {e : Expr} (he : ∀ context, e.check (site.withBuiltins b) context = e.check site context)
    (slot : Slot) : (site.withBuiltins b).operand slot e = site.operand slot e := by
  rw [operand, operand, he]
  rfl

end Site

namespace Expr

variable {site : Site} {b : Builtins}

theorem callee_withBuiltins {e : Expr} {args : List Expr} {info : Info}
    (h : (call e args info).CallsAlike site.builtins b)
    (he : e.check (site.withBuiltins b) none = e.check site none) (span : Span) :
    callee (site.withBuiltins b) span e = callee site span e := by
  rw [callee, callee, Site.callForm?_withBuiltins h, he]

attribute [local simp] check

mutual

/-- A check comes to the same with a table that says the same of what is called. -/
theorem check_withBuiltins : (e : Expr) → (∀ x ∈ e.parts, x.CallsAlike site.builtins b) → (context : Option Ty) →
    e.check (site.withBuiltins b) context = e.check site context
  | .int .., _, _ | .real .., _, _ | .byte .., _, _ | .typeArg .., _, _ | .foreign _, _, _ => rfl
  | .ident .., _, _ => rfl
  | .index base i info, h, _ => by
    obtain ⟨-, hbase, hi⟩ := forall_parts_index.mp h
    rw [check_index, check_index, check_withBuiltins base hbase none]
    simp only [Site.behind_withBuiltins (check_withBuiltins i hi none)]
  | .field base name info, h, _ => by
    obtain ⟨-, hbase⟩ := forall_parts_field.mp h
    rw [check, check, check_withBuiltins base hbase none]
    rfl
  | .call e args info, h, _ => by
    obtain ⟨hcall, he, hargs⟩ := forall_parts_call.mp h
    rw [check_call, check_call, callee_withBuiltins hcall (check_withBuiltins e he none)]
    simp only [checkAll_withBuiltins args hargs]
  | .addrOf target info, h, _ => by
    obtain ⟨-, htarget⟩ := forall_parts_addrOf.mp h
    rw [check, check, check_withBuiltins target htarget none]
    rfl
  | .composite _ _, _, none => rfl
  | .composite es info, h, some t => by
    obtain ⟨-, hes⟩ := forall_parts_composite.mp h
    rw [check, check]
    simp only [checkAll_withBuiltins es hes]
    rfl

theorem checkAll_withBuiltins : (es : List Expr) → (∀ x ∈ partsAll es, x.CallsAlike site.builtins b) → (slots : List Slot) →
    checkAll (site.withBuiltins b) slots es = checkAll site slots es
  | [], _, slots => by rw [checkAll_nil_left, checkAll_nil_left]
  | e :: es, _, [] => by rw [checkAll_no_slots, checkAll_no_slots]
  | e :: es, h, slot :: slots => by
    obtain ⟨he, hes⟩ := forall_partsAll_cons.mp h
    rw [checkAll_cons, checkAll_cons, Site.operand_withBuiltins (check_withBuiltins e he), checkAll_withBuiltins es hes slots]

end

/-! ## What a check knows -/

theorem isKnown_of_callForm? {e e' : Expr} {args : List Expr} {info : Info} {span : Span} {form : CallForm}
    (h : site.callForm? span e = .ok (some (e', form))) :
    (call e args info).IsKnown site.builtins ∧ ∀ x ∈ e.parts, x.IsKnown site.builtins := by
  cases e with
  | ident name symbol info' =>
    refine ⟨fun name' hname => ?_, List.forall_mem_singleton.mpr (isKnown_of_eq_none rfl)⟩
    rw [tableName?] at hname
    split at hname
    · rename_i hcalled
      obtain rfl := Option.some.inj hname
      obtain ⟨hb, hf⟩ := Bool.and_eq_true_iff.mp hcalled
      rw [Site.callForm?, if_pos hb, Option.isNone_iff_eq_none.mp hf] at h
      dsimp only at h
      split at h
      · rename_i s hs
        exact ⟨s, hs⟩
      · cases h
    · cases hname
  | int _ _ | real _ _ | byte _ _ | index _ _ _ | field _ _ _ | call _ _ _ | composite _ _ | addrOf _ _ | typeArg _ _
  | foreign _ => cases h

/-- A name that is checked as a value is no name of a builtin. -/
theorem isKnown_of_value {e : Expr} {args : List Expr} {info : Info} {span : Span} (h : site.callForm? span e = .ok none) :
    (call e args info).IsKnown site.builtins := by
  refine isKnown_of_eq_none ?_
  cases e with
  | ident name symbol info' =>
    rw [tableName?]
    split
    · rename_i hcalled
      obtain ⟨hb, hf⟩ := Bool.and_eq_true_iff.mp hcalled
      rw [Site.callForm?, if_pos hb, Option.isNone_iff_eq_none.mp hf] at h
      dsimp only at h
      split at h <;> cases h
    · rfl
  | int _ _ | real _ _ | byte _ _ | index _ _ _ | field _ _ _ | call _ _ _ | composite _ _ | addrOf _ _ | typeArg _ _
  | foreign _ => rfl

theorem isKnown_of_callee {e : Expr} (he : ∀ r, e.check site none = .ok r → ∀ x ∈ e.parts, x.IsKnown site.builtins)
    {args : List Expr} {info : Info} {span : Span} {called : Expr × CallForm} (h : callee site span e = .ok called) :
    (call e args info).IsKnown site.builtins ∧ ∀ x ∈ e.parts, x.IsKnown site.builtins := by
  rw [callee] at h
  cases hform : site.callForm? span e with
  | error halt =>
    rw [hform] at h
    cases h
  | ok found =>
    cases found with
    | some found => exact isKnown_of_callForm? hform
    | none =>
      rw [hform] at h
      dsimp only at h
      refine ⟨isKnown_of_value hform, ?_⟩
      cases hc : e.check site none with
      | error left =>
        rw [hc] at h
        cases h
      | ok r => exact he r hc

theorem isKnown_of_behind {i : Expr} (hi : ∀ r, i.check site none = .ok r → ∀ x ∈ i.parts, x.IsKnown site.builtins)
    {base : Expr} {t : Ty} {info : Info} {r : Expr × Ty} (h : site.behind base t i info = .ok r) :
    ∀ x ∈ i.parts, x.IsKnown site.builtins := by
  have hindexed (h : site.indexed base t i info = .ok r) : ∀ x ∈ i.parts, x.IsKnown site.builtins := by
    rw [Site.indexed] at h
    split at h
    · cases h
    · cases hc : i.check site none with
      | error left =>
        rw [hc] at h
        cases h
      | ok r => exact hi r hc
  cases t with
  | struct name =>
    rw [Site.behind, Site.selected] at h
    cases i with
    | ident _ _ _ => exact List.forall_mem_singleton.mpr (isKnown_of_eq_none rfl)
    | int _ _ | real _ _ | byte _ _ | index _ _ _ | field _ _ _ | call _ _ _ | composite _ _ | addrOf _ _ | typeArg _ _
    | foreign _ => cases h
  | primitive _ | void | pointer _ | array _ _ | func _ _ => exact hindexed h

theorem isKnown_of_operand {e : Expr} {slot : Slot}
    (he : ∀ r, e.check site slot.context = .ok r → ∀ x ∈ e.parts, x.IsKnown site.builtins) {r : Expr × Ty}
    (h : site.operand slot e = .ok r) : ∀ x ∈ e.parts, x.IsKnown site.builtins := by
  rw [Site.operand] at h
  split at h
  · rw [Site.typeOperand_eq] at h
    cases hw : e.writtenType? with
    | none =>
      rw [hw] at h
      cases h
    | some written =>
      unfold writtenType? at hw
      split at hw
      · exact List.forall_mem_singleton.mpr (isKnown_of_eq_none rfl)
      · obtain ⟨w, hw, -⟩ := Option.map_eq_some_iff.mp hw
        exact e.isKnown_of_asType? hw
  · exact he r h

mutual

/-- A check goes through only if the table has everything that is called. -/
theorem isKnown_of_check : (e : Expr) → {context : Option Ty} → {r : Expr × Ty} → e.check site context = .ok r →
    ∀ x ∈ e.parts, x.IsKnown site.builtins
  | .int .., _, _, _ | .real .., _, _, _ | .byte .., _, _, _ | .ident .., _, _, _ | .typeArg .., _, _, _ | .foreign _, _, _, _ =>
    List.forall_mem_singleton.mpr (isKnown_of_eq_none rfl)
  | .index base i info, _, _, h => by
    rw [check_index] at h
    cases hb : base.check site none with
    | error left =>
      rw [hb] at h
      cases h
    | ok r =>
      rw [hb] at h
      exact forall_parts_index.mpr ⟨isKnown_of_eq_none rfl, isKnown_of_check base hb,
        isKnown_of_behind (fun _ hi => isKnown_of_check i hi) h⟩
  | .field base name info, _, _, h => by
    rw [check] at h
    cases hb : base.check site none with
    | error left =>
      rw [hb] at h
      cases h
    | ok r => exact forall_parts_field.mpr ⟨isKnown_of_eq_none rfl, isKnown_of_check base hb⟩
  | .call e args info, _, _, h => by
    rw [check_call] at h
    cases hc : callee site info.span e with
    | error left =>
      rw [hc] at h
      cases h
    | ok called =>
      rw [hc] at h
      dsimp only at h
      split at h
      · cases h
      · rename_i slots hslots
        split at h
        · cases h
        · rename_i hargs
          obtain ⟨hcall, he⟩ := isKnown_of_callee (fun _ he => isKnown_of_check e he) hc
          exact forall_parts_call.mpr ⟨hcall, he, isKnown_of_checkAll args (length_slots hslots) hargs⟩
  | .addrOf target info, _, _, h => by
    rw [check] at h
    refine forall_parts_addrOf.mpr ⟨isKnown_of_eq_none rfl, ?_⟩
    split at h
    · cases h
    · rename_i hf
      cases target with
      | ident _ _ _ => exact List.forall_mem_singleton.mpr (isKnown_of_eq_none rfl)
      | int _ _ | real _ _ | byte _ _ | index _ _ _ | field _ _ _ | call _ _ _ | composite _ _ | addrOf _ _ | typeArg _ _
      | foreign _ => cases hf
    · split at h
      · cases h
      · rename_i ht
        exact isKnown_of_check target ht
  | .composite es info, none, _, h => nomatch h
  | .composite es info, some t, _, h => by
    rw [check] at h
    split at h
    · cases h
    · rename_i slots hslots
      split at h
      · cases h
      · rename_i hes
        exact forall_parts_composite.mpr ⟨isKnown_of_eq_none rfl, isKnown_of_checkAll es (length_elementSlots hslots) hes⟩

theorem isKnown_of_checkAll : (es : List Expr) → {slots : List Slot} → slots.length = es.length → {r : List Expr × List Ty} →
    checkAll site slots es = .ok r → ∀ x ∈ partsAll es, x.IsKnown site.builtins
  | [], _, _, _, _ => nofun
  | e :: es, slot :: slots, hlength, _, h => by
    rw [checkAll_cons] at h
    cases ho : site.operand slot e with
    | error left =>
      rw [ho] at h
      cases h
    | ok r =>
      rw [ho] at h
      dsimp only at h
      split at h
      · cases h
      · split at h
        · cases h
        · rename_i hes
          exact forall_partsAll_cons.mpr ⟨isKnown_of_operand (fun _ he => isKnown_of_check e he) ho,
            isKnown_of_checkAll es (Nat.succ.inj hlength) hes⟩

end

end Expr

end FlatScope
