/-
  Checking an expression twice. Whether a check goes through or halts, what it leaves behind is checked again with the
  same outcome (`Expr.isStable`): an index that has become a field is checked as one, a callee keeps the call form it had,
  and operands whose replacements are not used are replaced in the same way.
-/
import FlatScope.Proofs.Rechecking.Kept

namespace FlatScope

namespace Expr

/-- An expression is checked with the same outcome when it is checked once more, and also when its replacement is not
used. -/
structure IsStable (site : Site) (e : Expr) : Prop where
  again : ∀ context, ((e.check site context).after Prod.fst).check site context = e.check site context
  behind : ∀ context e' t, e.check site context = .ok (e', t) →
    (leftBehind e e').check site context = .ok (e', t) ∧ leftBehind (leftBehind e e') e' = leftBehind e e'

theorem leftBehind_self (e : Expr) : leftBehind e e = e := by cases e <;> rfl

/-- Most expressions are replaced by what they are checked as. -/
theorem isStable_of {site : Site} {e : Expr}
    (again : ∀ context, ((e.check site context).after Prod.fst).check site context = e.check site context)
    (used : ∀ context e' t, e.check site context = .ok (e', t) → leftBehind e e' = e') : e.IsStable site where
  again := again
  behind context e' t h := by
    have hagain := again context
    rw [h] at hagain
    rw [used context e' t h]
    exact ⟨hagain, leftBehind_self e'⟩

end Expr

variable {site : Site}

/-! ## Names -/

theorem Site.callForm?_again {span : Span} {e e' : Expr} {form : CallForm}
    (h : site.callForm? span e = .ok (some (e', form))) (types : List Ty) :
    site.callForm? span e' = .ok (some (e', form))
      ∧ site.callForm? span (form.noteCallee types e') = .ok (some (form.noteCallee types e', form))
      ∧ form.noteCallee types (form.noteCallee types e') = form.noteCallee types e' := by
  cases e with
  | ident name symbol info =>
    unfold Site.callForm? at h
    dsimp only at h
    cases hb : isBuiltinName name with
    | true =>
      rw [hb, if_pos rfl] at h
      split at h
      · rename_i hf
        obtain ⟨rfl, rfl⟩ := Prod.mk.inj (Option.some.inj (Except.ok.inj h))
        simp [Site.callForm?, hb, hf, CallForm.noteCallee, Expr.withTy]
      · rename_i hf
        obtain ⟨rfl, rfl⟩ := Prod.mk.inj (Option.some.inj (Except.ok.inj h))
        simp [Site.callForm?, hb, hf, CallForm.noteCallee, Expr.withTy]
      · cases h
      · rename_i hf
        split at h
        · rename_i s hs
          obtain ⟨rfl, rfl⟩ := Prod.mk.inj (Option.some.inj (Except.ok.inj h))
          simp [Site.callForm?, hb, hf, hs, CallForm.noteCallee]
        · cases h
    | false =>
      rw [hb, if_neg Bool.false_ne_true] at h
      split at h
      · cases h
      · rename_i s hs
        split at h
        · rename_i params result hk ht
          obtain ⟨rfl, rfl⟩ := Prod.mk.inj (Option.some.inj (Except.ok.inj h))
          simp [Site.callForm?, hb, hs, hk, ht, CallForm.noteCallee]
        all_goals cases h
  | int _ _ | real _ _ | byte _ _ | index _ _ _ | field _ _ _ | call _ _ _ | composite _ _ | addrOf _ _ | typeArg _ _
  | foreign _ => cases h

/-- A callee that is to be checked as a value stays one, whatever it is noted with. -/
theorem Site.callForm?_value {span : Span} {e e' : Expr} (h : site.callForm? span e = .ok none)
    (hi : e'.ident? = e.ident?) : site.callForm? span e' = .ok none := by
  cases e' with
  | ident name' symbol' info' =>
    cases e with
    | ident name symbol info =>
      obtain rfl := Option.some.inj hi
      unfold Site.callForm? at h ⊢
      dsimp only at h ⊢
      cases hb : isBuiltinName name' with
      | true =>
        rw [hb, if_pos rfl] at h
        split at h
        · cases h
        · cases h
        · cases h
        · split at h <;> cases h
      | false =>
        rw [hb, if_neg Bool.false_ne_true] at h
        rw [if_neg Bool.false_ne_true]
        split at h
        · rfl
        · split at h
          all_goals first | rfl | cases h
    | int _ _ | real _ _ | byte _ _ | index _ _ _ | field _ _ _ | call _ _ _ | composite _ _ | addrOf _ _ | typeArg _ _
    | foreign _ => cases hi
  | int _ _ | real _ _ | byte _ _ | index _ _ _ | field _ _ _ | call _ _ _ | composite _ _ | addrOf _ _ | typeArg _ _
  | foreign _ => rfl

theorem Site.functionAddress?_again {e e' : Expr} {t : Ty} (h : site.functionAddress? e = .ok (some (e', t))) :
    site.functionAddress? e' = .ok (some (e', t)) := by
  cases e with
  | ident name symbol info =>
    unfold Site.functionAddress? at h
    dsimp only at h
    split at h
    · rename_i s hs
      split at h
      · rename_i u ht
        obtain ⟨rfl, rfl⟩ := Prod.mk.inj (Option.some.inj (Except.ok.inj h))
        simp [Site.functionAddress?, hs, ht]
      · cases h
    · split at h <;> cases h
  | int _ _ | real _ _ | byte _ _ | index _ _ _ | field _ _ _ | call _ _ _ | composite _ _ | addrOf _ _ | typeArg _ _
  | foreign _ => cases h

/-- What is no address of a function stays none. -/
theorem Site.functionAddress?_value {e e' : Expr} (h : site.functionAddress? e = .ok none)
    (hi : e'.ident? = e.ident?) : site.functionAddress? e' = .ok none := by
  cases e' with
  | ident name' symbol' info' =>
    cases e with
    | ident name symbol info =>
      obtain rfl := Option.some.inj hi
      unfold Site.functionAddress? at h ⊢
      dsimp only at h ⊢
      split at h
      · split at h <;> cases h
      · rename_i hs
        split at h
        · cases h
        · rename_i hb
          simp [hb]
    | int _ _ | real _ _ | byte _ _ | index _ _ _ | field _ _ _ | call _ _ _ | composite _ _ | addrOf _ _ | typeArg _ _
    | foreign _ => cases hi
  | int _ _ | real _ _ | byte _ _ | index _ _ _ | field _ _ _ | call _ _ _ | composite _ _ | addrOf _ _ | typeArg _ _
  | foreign _ => rfl

/-! ## Types and operands -/

theorem Site.writtenOperand_again {e e' : Expr} {w : TypeExpr} {info : Info} {t : Ty}
    (h : site.writtenOperand e w info = .ok (e', t)) : site.typeOperand e' = .ok (e', t) := by
  unfold Site.writtenOperand at h
  split at h
  · cases h
  · rename_i u hw
    obtain ⟨rfl, rfl⟩ := Prod.mk.inj (Except.ok.inj h)
    simp only [Site.typeOperand_eq, Expr.writtenType?, Site.writtenOperand, hw]

/-- What is left of an operand that halts is the operand. -/
theorem Site.typeOperand_left {e left : Expr} {halt : Halt} (h : site.typeOperand e = .error (halt, left)) : left = e := by
  rw [Site.typeOperand_eq] at h
  split at h
  · unfold Site.writtenOperand at h
    split at h
    · exact (Prod.mk.inj (Except.error.inj h)).2.symm
    · cases h
  · exact (Prod.mk.inj (Except.error.inj h)).2.symm

/-- A type that is allocated becomes the type, and a written one stays where its replacement is not used. -/
theorem Site.typeOperand_again {e e' : Expr} {t : Ty} (h : site.typeOperand e = .ok (e', t)) :
    site.typeOperand e' = .ok (e', t) ∧ site.typeOperand (leftBehind e e') = .ok (e', t)
      ∧ leftBehind (leftBehind e e') e' = leftBehind e e' := by
  have hw := h
  rw [Site.typeOperand_eq] at hw
  split at hw
  · rename_i w info hwritten
    have hagain := Site.writtenOperand_again hw
    refine ⟨hagain, ?_⟩
    unfold Site.writtenOperand at hw
    split at hw
    · cases hw
    · obtain ⟨rfl, rfl⟩ := Prod.mk.inj (Except.ok.inj hw)
      cases e
      case typeArg => exact ⟨hagain, rfl⟩
      all_goals exact ⟨h, rfl⟩
  · cases hw

/-- An operand is replaced in the same way when it is checked once more, also if its replacement was not used. -/
theorem Expr.IsStable.operand_again {e : Expr} (he : e.IsStable site) {slot : Slot} {e' : Expr} {t : Ty}
    (h : site.operand slot e = .ok (e', t)) :
    site.operand slot e' = .ok (e', t) ∧ site.operand slot (leftBehind e e') = .ok (e', t)
      ∧ leftBehind (leftBehind e e') e' = leftBehind e e' := by
  unfold Site.operand at h ⊢
  by_cases hs : slot = .allocated
  · simp only [if_pos hs] at h ⊢
    exact Site.typeOperand_again h
  · simp only [if_neg hs] at h ⊢
    have hagain := he.again slot.context
    rw [h] at hagain
    exact ⟨hagain, he.behind _ _ _ h⟩

theorem Expr.IsStable.operand_left {e : Expr} (he : e.IsStable site) {slot : Slot} {halt : Halt} {left : Expr}
    (h : site.operand slot e = .error (halt, left)) : site.operand slot left = .error (halt, left) := by
  unfold Site.operand at h ⊢
  by_cases hs : slot = .allocated
  · simp only [if_pos hs] at h ⊢
    obtain rfl := Site.typeOperand_left h
    exact h
  · simp only [if_neg hs] at h ⊢
    have hagain := he.again slot.context
    rw [h] at hagain
    exact hagain

namespace Expr

/-- Operands are checked with the same outcome once more, and stay as many. -/
theorem checkAll_again {es : List Expr} (hes : ∀ e ∈ es, e.IsStable site) (slots : List Slot) :
    checkAll site slots ((checkAll site slots es).after Prod.fst) = checkAll site slots es
      ∧ ((checkAll site slots es).after Prod.fst).length = es.length := by
  induction es generalizing slots with
  | nil => simp [checkAll_nil_left, Checked.after]
  | cons e es ih =>
    cases slots with
    | nil => simp [checkAll_no_slots, Checked.after]
    | cons slot slots =>
      obtain ⟨he, hes⟩ := List.forall_mem_cons.mp hes
      obtain ⟨hrest, hlength⟩ := ih hes slots
      cases hop : site.operand slot e with
      | error left => simp [checkAll_cons, hop, he.operand_left hop, Checked.after]
      | ok r =>
        obtain ⟨e', t⟩ := r
        obtain ⟨hagain, hbehind, hleft⟩ := he.operand_again hop
        cases hrefusal : slot.refusal? t with
        | some cause => simp [checkAll_cons, hop, hrefusal, hbehind, hleft, Checked.after]
        | none =>
          cases hcheck : checkAll site slots es with
          | error left =>
            rw [hcheck] at hrest hlength
            simp only [Checked.after] at hrest hlength
            simp [checkAll_cons, hop, hrefusal, hcheck, hbehind, hleft, hrest, hlength, Checked.after]
          | ok r =>
            rw [hcheck] at hrest hlength
            simp only [Checked.after] at hrest hlength
            simp [checkAll_cons, hop, hrefusal, hcheck, hagain, hrest, hlength, Checked.after]

/-! ## Forms of expressions -/

theorem isStable_int (value : Int) (info : Info) : (int value info).IsStable site :=
  isStable_of (fun _ => rfl) fun _ _ _ h => by
    obtain ⟨rfl, -⟩ := Prod.mk.inj (Except.ok.inj h)
    rfl

theorem isStable_real (value : Binary64) (info : Info) : (real value info).IsStable site :=
  isStable_of (fun _ => rfl) fun _ _ _ h => by
    obtain ⟨rfl, -⟩ := Prod.mk.inj (Except.ok.inj h)
    rfl

theorem isStable_byte (value : Int) (info : Info) : (byte value info).IsStable site :=
  isStable_of (fun _ => rfl) fun _ _ _ h => by
    obtain ⟨rfl, -⟩ := Prod.mk.inj (Except.ok.inj h)
    rfl

theorem isStable_typeArg (w : TypeExpr) (info : Info) : (typeArg w info).IsStable site :=
  isStable_of (fun _ => rfl) fun _ _ _ h => by cases h

theorem isStable_foreign (node : Foreign) : (foreign node).IsStable site :=
  isStable_of (fun _ => rfl) fun _ _ _ h => by cases h

theorem isStable_ident (name : String) (symbol : Option Symbol) (info : Info) :
    (ident name symbol info).IsStable site := by
  refine isStable_of (fun context => ?_) fun context e' t h => ?_
  · cases hv : site.value name <;> simp [check, hv, Checked.after]
  · rw [check] at h
    split at h
    · cases h
    · obtain ⟨rfl, -⟩ := Prod.mk.inj (Except.ok.inj h)
      rfl

/-- A field that is selected is selected from the field as well. -/
theorem select_again {base base' : Expr} {t u : Ty} {name : String} {span : Span} {left e' : Expr}
    (hb : base.check site none = .ok (base', t)) (h : site.select base' t name span left = .ok (e', u)) (info : Info)
    (hspan : info.span = span) (context : Option Ty) :
    (field base name info).check site context = .ok (e', u) := by
  unfold Site.select at h
  simp only [check, hb, Site.select, hspan]
  split at h
  · cases h
  · exact h

/-- An index whose base is a struct is selected once more, or stays as it is. -/
theorem selected_again (base i : Expr) (info : Info) {base' : Expr} {struct : String}
    (hb : base'.check site none = .ok (base', .struct struct)) (context : Option Ty) :
    ((site.selected base' struct i info).after Prod.fst).check site context = site.selected base' struct i info
      ∧ ∀ e' t, site.selected base' struct i info = .ok (e', t) →
        (leftBehind (.index base i info) e').check site context = .ok (e', t)
          ∧ leftBehind (leftBehind (.index base i info) e') e' = leftBehind (.index base i info) e' := by
  have hindex : (index base' i info).check site context = site.selected base' struct i info := by
    rw [check_index, hb]
    rfl
  unfold Site.selected at hindex ⊢
  split
  · rename_i hi
    rw [hi] at hindex
    exact ⟨hindex, fun _ _ h => by cases h⟩
  · rename_i name hi
    rw [hi] at hindex
    dsimp only at hindex
    cases hs : site.select base' (.struct struct) name info.span (index base' i info) with
    | error left =>
      have hleft : left.2 = index base' i info := by
        unfold Site.select at hs
        split at hs
        · rw [← Except.error.inj hs]
        · cases hs
      exact ⟨by rw [Checked.after, hleft, hindex, hs], fun _ _ h => by cases h⟩
    | ok r =>
      obtain ⟨e', t⟩ := r
      have hfield : ∃ info', e' = field base' name info' ∧ info'.span = info.span := by
        unfold Site.select at hs
        split at hs
        · cases hs
        · exact ⟨_, (Prod.mk.inj (Except.ok.inj hs)).1.symm, rfl⟩
      obtain ⟨info', rfl, hspan⟩ := hfield
      refine ⟨select_again hb hs info' hspan context, ?_⟩
      intro e'' t' h
      obtain ⟨rfl, rfl⟩ := Prod.mk.inj (Except.ok.inj h)
      exact ⟨hindex.trans hs, rfl⟩

/-- An index whose base is no struct is checked once more as an index. -/
theorem indexed_again (base : Expr) {base' i : Expr} (t : Ty) (info : Info) (hi : i.IsStable site)
    (hindex : ∀ (i : Expr) (info : Info) context, (index base' i info).check site context = site.indexed base' t i info)
    (context : Option Ty) :
    ((site.indexed base' t i info).after Prod.fst).check site context = site.indexed base' t i info
      ∧ ∀ e' u, site.indexed base' t i info = .ok (e', u) → leftBehind (.index base i info) e' = e' := by
  have hagain := hi.again none
  cases helement : t.element? with
  | none => simp [Site.indexed, helement, hindex, Checked.after]
  | some element =>
    cases hcheck : i.check site none with
    | error left =>
      rw [hcheck] at hagain
      simp only [Checked.after] at hagain
      simp [Site.indexed, helement, hcheck, hindex, hagain, Checked.after]
    | ok r =>
      obtain ⟨i', u⟩ := r
      rw [hcheck] at hagain
      simp only [Checked.after] at hagain
      by_cases hu : u = .int
      · simp [Site.indexed, helement, hcheck, hindex, hagain, hu, Checked.after, leftBehind]
      · simp [Site.indexed, helement, hcheck, hindex, hagain, hu, Checked.after]

theorem IsStable.index {base i : Expr} (hb : base.IsStable site) (hi : i.IsStable site) (info : Info) :
    (Expr.index base i info).IsStable site := by
  have hbase := hb.again none
  cases hcheck : base.check site none with
  | error left =>
    rw [hcheck] at hbase
    simp only [Checked.after] at hbase
    refine isStable_of (fun context => ?_) fun context e' t h => ?_
    · simp [check_index, hcheck, hbase, Checked.after]
    · rw [check_index, hcheck] at h
      cases h
  | ok r =>
    obtain ⟨base', t⟩ := r
    rw [hcheck] at hbase
    simp only [Checked.after] at hbase
    have hindex : ∀ (i : Expr) (info : Info) (context : Option Ty),
        (Expr.index base' i info).check site context = site.behind base' t i info := by
      intro i info context
      rw [check_index, hbase]
    have hfirst : ∀ context, (Expr.index base i info).check site context = site.behind base' t i info := by
      intro context
      rw [check_index, hcheck]
    cases t with
    | struct name =>
      have hsettled := fun context => selected_again base i info hbase context
      refine ⟨fun context => ?_, fun context e' t h => ?_⟩
      · rw [hfirst]
        exact (hsettled context).1
      · rw [hfirst] at h
        exact (hsettled context).2 e' t h
    | primitive _ | void | pointer _ | array _ _ | func _ _ =>
      simp only [Site.behind] at hindex hfirst
      have hsettled := fun context => indexed_again base _ info hi hindex context
      refine isStable_of (fun context => ?_) fun context e' t h => ?_
      · rw [hfirst]
        exact (hsettled context).1
      · rw [hfirst] at h
        exact (hsettled context).2 e' t h

theorem IsStable.field {base : Expr} (hb : base.IsStable site) (name : String) (info : Info) :
    (Expr.field base name info).IsStable site := by
  have hbase := hb.again none
  cases hcheck : base.check site none with
  | error left =>
    rw [hcheck] at hbase
    simp only [Checked.after] at hbase
    refine isStable_of (fun context => ?_) fun context e' t h => ?_
    · simp [check, hcheck, hbase, Checked.after]
    · rw [check, hcheck] at h
      cases h
  | ok r =>
    obtain ⟨base', t⟩ := r
    rw [hcheck] at hbase
    simp only [Checked.after] at hbase
    refine ⟨fun context => ?_, fun context e' u h => ?_⟩
    · cases hf : site.fieldType t name <;> simp [check, hcheck, hbase, Site.select, hf, Checked.after]
    · cases hf : site.fieldType t name with
      | error cause => simp [check, hcheck, Site.select, hf] at h
      | ok v =>
        simp only [check, hcheck, Site.select, hf, Except.ok.injEq, Prod.mk.injEq] at h
        obtain ⟨rfl, rfl⟩ := h
        simp [leftBehind, check, hbase, Site.select, hf]

/-- A callee is called in the same form once more, also after it is noted with a type of its own. -/
theorem callee_again {e : Expr} (he : e.IsStable site) (span : Span) :
    callee site span ((callee site span e).after Prod.fst) = callee site span e
      ∧ ∀ e' form, callee site span e = .ok (e', form) → ∀ types,
        callee site span (form.noteCallee types e') = .ok (form.noteCallee types e', form)
          ∧ form.noteCallee types (form.noteCallee types e') = form.noteCallee types e' := by
  have hagain := he.again none
  have hident := ((e.isKept site).after none).ident
  cases hform : site.callForm? span e with
  | error halt => simp [callee, hform, Checked.after]
  | ok called =>
    cases called with
    | some r =>
      obtain ⟨e', form⟩ := r
      have hr := fun types => Site.callForm?_again hform types
      refine ⟨by simp [callee, hform, Checked.after, (hr []).1], fun e'' form' h types => ?_⟩
      simp only [callee, hform, Except.ok.injEq, Prod.mk.injEq] at h
      obtain ⟨rfl, rfl⟩ := h
      exact ⟨by simp [callee, (hr types).2.1], (hr types).2.2⟩
    | none =>
      have hvalue := fun (e' : Expr) (hi : e'.ident? = e.ident?) => Site.callForm?_value hform hi
      cases hcheck : e.check site none with
      | error left =>
        rw [hcheck] at hagain hident
        simp only [Checked.after] at hagain hident
        refine ⟨by simp [callee, hform, hcheck, Checked.after, hvalue _ hident, hagain], fun e'' form' h => ?_⟩
        simp [callee, hform, hcheck] at h
      | ok r =>
        obtain ⟨e', t⟩ := r
        rw [hcheck] at hagain hident
        simp only [Checked.after] at hagain hident
        cases t with
        | func params result =>
          have hcallee : callee site span e' = .ok (e', .fixed e.ident? { params, result }) := by
            simp [callee, hvalue _ hident, hagain, hident]
          refine ⟨by simp [callee, hform, hcheck, Checked.after, hvalue _ hident, hagain, hident], fun e'' form' h types => ?_⟩
          simp only [callee, hform, hcheck, Except.ok.injEq, Prod.mk.injEq] at h
          obtain ⟨rfl, rfl⟩ := h
          exact ⟨hcallee, rfl⟩
        | primitive _ | void | pointer _ | array _ _ | struct _ =>
          refine ⟨by simp [callee, hform, hcheck, Checked.after, hvalue _ hident, hagain], fun e'' form' h => ?_⟩
          simp [callee, hform, hcheck] at h

theorem IsStable.call {e : Expr} (he : e.IsStable site) {args : List Expr} (hargs : ∀ a ∈ args, a.IsStable site)
    (info : Info) : (Expr.call e args info).IsStable site := by
  obtain ⟨hagain, hnoted⟩ := callee_again he info.span
  refine isStable_of (fun context => ?_) fun context e' t h => ?_
  · cases hcallee : callee site info.span e with
    | error left =>
      rw [hcallee] at hagain
      simp only [Checked.after] at hagain
      simp [check_call, hcallee, hagain, Checked.after]
    | ok r =>
      obtain ⟨e', form⟩ := r
      rw [hcallee] at hagain
      simp only [Checked.after] at hagain
      cases hslots : form.slots args.length with
      | error cause => simp [check_call, hcallee, hagain, hslots, Checked.after]
      | ok slots =>
        obtain ⟨hall, hlength⟩ := checkAll_again hargs slots
        cases hcheck : checkAll site slots args with
        | error left =>
          rw [hcheck] at hall hlength
          simp only [Checked.after] at hall hlength
          simp [check_call, hcallee, hagain, hslots, hcheck, hall, hlength, Checked.after]
        | ok r =>
          obtain ⟨args', types⟩ := r
          rw [hcheck] at hall hlength
          simp only [Checked.after] at hall hlength
          obtain ⟨hcalled, hsame⟩ := hnoted e' form hcallee types
          simp [check_call, hcallee, hcalled, hsame, hslots, hcheck, hall, hlength, Checked.after]
  · rw [check_call] at h
    repeat' split at h
    all_goals first
      | exact (Prod.mk.inj (Except.ok.inj h)).1 ▸ rfl
      | cases h

theorem IsStable.composite {es : List Expr} (hes : ∀ e ∈ es, e.IsStable site) (info : Info) :
    (Expr.composite es info).IsStable site := by
  refine isStable_of (fun context => ?_) fun context e' t h => ?_
  · cases context with
    | none => rfl
    | some t =>
      cases hslots : site.catalog.elementSlots t es.length with
      | error cause => simp [check, hslots, Checked.after]
      | ok slots =>
        obtain ⟨hall, hlength⟩ := checkAll_again hes slots
        cases hcheck : checkAll site slots es with
        | error left =>
          rw [hcheck] at hall hlength
          simp only [Checked.after] at hall hlength
          simp [check, hslots, hcheck, hall, hlength, Checked.after]
        | ok r =>
          rw [hcheck] at hall hlength
          simp only [Checked.after] at hall hlength
          simp [check, hslots, hcheck, hall, hlength, Checked.after]
  · cases context with
    | none => cases h
    | some u =>
      rw [check] at h
      repeat' split at h
      all_goals first
        | exact (Prod.mk.inj (Except.ok.inj h)).1 ▸ rfl
        | cases h

theorem IsStable.addrOf {target : Expr} (ht : target.IsStable site) (info : Info) :
    (Expr.addrOf target info).IsStable site := by
  have hagain := ht.again none
  have hident := ((target.isKept site).after none).ident
  refine isStable_of (fun context => ?_) fun context e' t h => ?_
  · cases hf : site.functionAddress? target with
    | error halt => simp [check, hf, Checked.after]
    | ok address =>
      cases address with
      | some r => simp [check, hf, Site.functionAddress?_again hf, Checked.after]
      | none =>
        have hvalue := fun (e' : Expr) (hi : e'.ident? = target.ident?) => Site.functionAddress?_value hf hi
        cases hcheck : target.check site none with
        | error left =>
          rw [hcheck] at hagain hident
          simp only [Checked.after] at hagain hident
          simp [check, hf, hcheck, hvalue _ hident, hagain, Checked.after]
        | ok r =>
          obtain ⟨target', t⟩ := r
          rw [hcheck] at hagain hident
          simp only [Checked.after] at hagain hident
          cases ha : target'.isAddressable <;>
            simp [check, hf, hcheck, hvalue _ hident, hagain, ha, Checked.after]
  · rw [check] at h
    repeat' split at h
    all_goals first
      | exact (Prod.mk.inj (Except.ok.inj h)).1 ▸ rfl
      | cases h

mutual

/-- An expression is checked with the same outcome once more. -/
theorem isStable (site : Site) : (e : Expr) → e.IsStable site
  | .int n info => isStable_int n info
  | .real x info => isStable_real x info
  | .byte n info => isStable_byte n info
  | .ident name symbol info => isStable_ident name symbol info
  | .index base i info => (base.isStable site).index (i.isStable site) info
  | .field base name info => (base.isStable site).field name info
  | .call callee args info => (callee.isStable site).call (allStable site args) info
  | .addrOf target info => (target.isStable site).addrOf info
  | .composite es info => .composite (allStable site es) info
  | .typeArg w info => isStable_typeArg w info
  | .foreign node => isStable_foreign node

theorem allStable (site : Site) : (es : List Expr) → ∀ e ∈ es, e.IsStable site
  | [], _, he => by cases he
  | e :: es, e', he => by
    obtain he | he := List.mem_cons.mp he
    · exact he ▸ e.isStable site
    · exact allStable site es e' he

end

end Expr

end FlatScope
