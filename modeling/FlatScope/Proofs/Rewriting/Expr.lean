/-
  What resolving makes of an expression (`Expr.Becomes`). Every part keeps its form, its parts in order and its place, and
  only notes are added, but for two cases: an index by a name may become a field of the same base, and the first operand
  of a call of `_alloc` the type that it spells. A check leaves such an expression wherever it ends, and also where what it
  gives is not used (`Expr.isTraced`).
-/
import FlatScope.Proofs.Resolution.Check

namespace FlatScope

/-- What a check leaves of what it was given, where `done` takes it from the outcome of a check that went through. -/
def Checked.after {α β : Type} (done : β → α) : Checked α β → α
  | .error left => left.2
  | .ok b => done b

namespace Expr

/-- A callee that names the form that allocates. -/
def allocates (callee : Expr) : Bool := callee.ident? = some SpecialForm.alloc.name

mutual

/-- What may become of an expression. -/
inductive Becomes : Expr → Expr → Prop
  | int {n : Int} {info info' : Info} (hs : info'.span = info.span) : Becomes (.int n info) (.int n info')
  | real {x : Binary64} {info info' : Info} (hs : info'.span = info.span) : Becomes (.real x info) (.real x info')
  | byte {n : Int} {info info' : Info} (hs : info'.span = info.span) : Becomes (.byte n info) (.byte n info')
  | ident {name : String} {symbol symbol' : Option Symbol} {info info' : Info} (hs : info'.span = info.span) :
    Becomes (.ident name symbol info) (.ident name symbol' info')
  | index {base base' i i' : Expr} {info info' : Info} (hb : Becomes base base') (hi : Becomes i i')
    (hs : info'.span = info.span) : Becomes (.index base i info) (.index base' i' info')
  /-- The field that an index by a name selects. -/
  | selected {base base' : Expr} {name : String} {symbol : Option Symbol} {infoName info info' : Info}
    (hb : Becomes base base') (hs : info'.span = info.span) :
    Becomes (.index base (.ident name symbol infoName) info) (.field base' name info')
  | field {base base' : Expr} {name : String} {info info' : Info} (hb : Becomes base base')
    (hs : info'.span = info.span) : Becomes (.field base name info) (.field base' name info')
  | call {callee callee' : Expr} {args args' : List Expr} {info info' : Info} (hc : Becomes callee callee')
    (ha : OperandsBecome callee.allocates args args') (hs : info'.span = info.span) :
    Becomes (.call callee args info) (.call callee' args' info')
  | composite {es es' : List Expr} {info info' : Info} (h : OperandsBecome false es es')
    (hs : info'.span = info.span) : Becomes (.composite es info) (.composite es' info')
  | addrOf {target target' : Expr} {info info' : Info} (ht : Becomes target target') (hs : info'.span = info.span) :
    Becomes (.addrOf target info) (.addrOf target' info')
  | typeArg {w : TypeExpr} {info info' : Info} (hs : info'.span = info.span) :
    Becomes (.typeArg w info) (.typeArg w info')
  | foreign {node : Foreign} : Becomes (.foreign node) (.foreign node)

/-- What may become of operands, one by one. Only the first one of an allocation may become a type. -/
inductive OperandsBecome : (isAllocation : Bool) → List Expr → List Expr → Prop
  | nil {isAllocation : Bool} : OperandsBecome isAllocation [] []
  | cons {isAllocation : Bool} {e e' : Expr} {es es' : List Expr} (he : Becomes e e') (hes : OperandsBecome false es es') :
    OperandsBecome isAllocation (e :: es) (e' :: es')
  /-- The type that an operand spells. -/
  | spelled {e : Expr} {w : TypeExpr} {info : Info} {es es' : List Expr} (hw : e.asType? = some w)
    (hs : info.span = e.span) (hes : OperandsBecome false es es') :
    OperandsBecome true (e :: es) (.typeArg w info :: es')

end

/-- Every check of an expression leaves what may become of it, and also where what it gives is not used. -/
structure IsTraced (site : Site) (e : Expr) : Prop where
  after : ∀ context, e.Becomes ((e.check site context).after Prod.fst)
  behind : ∀ context e' t, e.check site context = .ok (e', t) → e.Becomes (leftBehind e e')

/-! ## Becoming the same -/

mutual

theorem Becomes.refl : (e : Expr) → e.Becomes e
  | .int .. => .int rfl
  | .real .. => .real rfl
  | .byte .. => .byte rfl
  | .ident .. => .ident rfl
  | .index base i _ => .index (.refl base) (.refl i) rfl
  | .field base _ _ => .field (.refl base) rfl
  | .call callee args _ => .call (.refl callee) (.refl _ args) rfl
  | .composite es _ => .composite (.refl _ es) rfl
  | .addrOf target _ => .addrOf (.refl target) rfl
  | .typeArg .. => .typeArg rfl
  | .foreign _ => .foreign

theorem OperandsBecome.refl (isAllocation : Bool) : (es : List Expr) → OperandsBecome isAllocation es es
  | [] => .nil
  | e :: es => .cons (.refl e) (.refl _ es)

end

/-- What becomes of operands anywhere may become of those of an allocation. -/
theorem OperandsBecome.weaken {isAllocation : Bool} {es es' : List Expr} (h : OperandsBecome false es es') :
    OperandsBecome isAllocation es es' := by
  cases h with
  | nil => exact .nil
  | cons he hes => exact .cons he hes

theorem Becomes.withTy {e e' : Expr} (h : e.Becomes e') (t : Ty) : e.Becomes (e'.withTy t) := by
  cases h with
  | int hs => exact .int hs
  | real hs => exact .real hs
  | byte hs => exact .byte hs
  | ident hs => exact .ident hs
  | index hb hi hs => exact .index hb hi hs
  | selected hb hs => exact .selected hb hs
  | field hb hs => exact .field hb hs
  | call hc ha hs => exact .call hc ha hs
  | composite h hs => exact .composite h hs
  | addrOf ht hs => exact .addrOf ht hs
  | typeArg hs => exact .typeArg hs
  | foreign => exact .foreign

/-- What becomes of an expression is where the expression is. -/
theorem Becomes.span {e e' : Expr} (h : e.Becomes e') : e'.span = e.span := by
  cases h <;> first | assumption | rfl

/-- An index by a name may become the field of that name. -/
theorem Becomes.selected_ident? {base base' i : Expr} {info info' : Info} {name : String} (hb : base.Becomes base')
    (hi : i.ident? = some name) (hs : info'.span = info.span) :
    (Expr.index base i info).Becomes (.field base' name info') := by
  cases i
  case ident name' symbol infoName =>
    obtain rfl := Option.some.inj hi
    exact .selected hb hs
  all_goals cases hi

variable {site : Site}

/-! ## Operands -/

/-- What is left of an operand of an allocation is the operand, or the type that it is or spells. -/
theorem typeOperand_becomes (e : Expr) {es es' : List Expr} (hes : OperandsBecome false es es') :
    OperandsBecome true (e :: es) ((site.typeOperand e).after Prod.fst :: es')
      ∧ ∀ e' t, site.typeOperand e = .ok (e', t) → OperandsBecome true (e :: es) (leftBehind e e' :: es') := by
  have hstays : OperandsBecome true (e :: es) (e :: es') := .cons (.refl e) hes
  rw [Site.typeOperand_eq]
  cases hw : e.writtenType? with
  | none => exact ⟨hstays, fun _ _ h => nomatch h⟩
  | some written =>
    obtain ⟨w, info⟩ := written
    dsimp only
    unfold Site.writtenOperand
    split
    · exact ⟨hstays, fun _ _ h => nomatch h⟩
    · rename_i t _
      have hdone : OperandsBecome true (e :: es) (.typeArg w { info with ty := some t } :: es')
          ∧ OperandsBecome true (e :: es) (leftBehind e (.typeArg w { info with ty := some t }) :: es') := by
        cases e
        case typeArg w' info' =>
          obtain ⟨rfl, rfl⟩ := Prod.mk.inj (Option.some.inj hw)
          exact ⟨.cons (.typeArg rfl) hes, .cons (.typeArg rfl) hes⟩
        all_goals
          simp only [writtenType?, Option.map_eq_some_iff, Prod.mk.injEq] at hw
          obtain ⟨w', hspelled, rfl, rfl⟩ := hw
          exact ⟨.spelled hspelled rfl hes, hstays⟩
      refine ⟨hdone.1, fun e' u h => ?_⟩
      obtain ⟨rfl, -⟩ := Prod.mk.inj (Except.ok.inj h)
      exact hdone.2

/-- What is left of an operand is what its slot lets it become. -/
theorem IsTraced.operand {e : Expr} (he : e.IsTraced site) (slot : Slot) {es es' : List Expr}
    (hes : OperandsBecome false es es') :
    OperandsBecome (slot = .allocated) (e :: es) ((site.operand slot e).after Prod.fst :: es')
      ∧ ∀ e' t, site.operand slot e = .ok (e', t) →
        OperandsBecome (slot = .allocated) (e :: es) (leftBehind e e' :: es') := by
  unfold Site.operand
  split
  · rename_i hslot
    rw [decide_eq_true hslot]
    exact typeOperand_becomes e hes
  · exact ⟨.cons (he.after slot.context) hes, fun e' t h => .cons (he.behind slot.context e' t h) hes⟩

/-- What is left of operands is what their slots let them become, where only the first slot can be one of an
allocation. -/
theorem checkAll_becomes {es : List Expr} (hes : ∀ e ∈ es, e.IsTraced site) (slots : List Slot)
    (hslots : .allocated ∉ slots.tail) :
    OperandsBecome (slots.head? = some .allocated) es ((checkAll site slots es).after Prod.fst) := by
  induction es generalizing slots with
  | nil =>
    rw [checkAll_nil_left]
    exact .nil
  | cons e es ih =>
    obtain ⟨he, hes⟩ := List.forall_mem_cons.mp hes
    cases slots with
    | nil =>
      rw [checkAll_no_slots]
      exact .refl _ _
    | cons slot slots =>
      have hrest : OperandsBecome false es ((checkAll site slots es).after Prod.fst) := by
        have hhead : slots.head? ≠ some .allocated := fun h => hslots (List.mem_of_head? h)
        have hall := ih hes slots fun h => hslots (List.mem_of_mem_tail h)
        rwa [decide_eq_false hhead] at hall
      simp only [List.head?_cons, Option.some.injEq]
      rw [checkAll_cons]
      cases hop : site.operand slot e with
      | error left =>
        have hafter := (he.operand slot (.refl false es)).1
        rw [hop] at hafter
        exact hafter
      | ok r =>
        obtain ⟨e', t⟩ := r
        dsimp only
        cases slot.refusal? t with
        | some cause => exact (he.operand slot (.refl false es)).2 e' t hop
        | none =>
          dsimp only
          obtain ⟨hafter, hbehind⟩ := he.operand slot hrest
          cases hcheck : checkAll site slots es with
          | error left =>
            rw [hcheck] at hbehind
            exact hbehind e' t hop
          | ok r =>
            rw [hcheck, hop] at hafter
            exact hafter

end Expr

/-- Slots that are numbered are none of an allocation unless the slot they are made of is. -/
theorem Slot.allocated_notMem_numbered (slot : Nat → Ty → Slot) (h : ∀ k t, slot k t ≠ .allocated) (types : List Ty) :
    .allocated ∉ Slot.numbered slot types := by
  intro hmem
  obtain ⟨k, hk, hslot⟩ := List.mem_mapIdx.mp hmem
  exact h _ _ hslot

/-- Only calls of the form that allocates have a slot for a type, and only their first one. -/
theorem CallForm.allocated_slots {form : CallForm} {count : Nat} {slots : List Slot} (h : form.slots count = .ok slots) :
    .allocated ∉ slots.tail ∧ (slots.head? = some .allocated → form = .alloc) := by
  cases form with
  | fixed callee s =>
    dsimp only [CallForm.slots] at h
    split at h
    · obtain rfl := Except.ok.inj h
      have hnone := Slot.allocated_notMem_numbered (.argument callee) (fun _ _ => Slot.noConfusion) s.params
      exact ⟨fun hmem => hnone (List.mem_of_mem_tail hmem), fun hhead => (hnone (List.mem_of_head? hhead)).elim⟩
    · cases h
  | alloc =>
    refine ⟨?_, fun _ => rfl⟩
    dsimp only [CallForm.slots] at h
    split at h
    · obtain rfl := Except.ok.inj h
      exact List.not_mem_nil
    · obtain rfl := Except.ok.inj h
      simp
    · cases h
  | free =>
    dsimp only [CallForm.slots] at h
    split at h
    · obtain rfl := Except.ok.inj h
      simp
    · cases h

/-- The slots of a composite literal are none of an allocation. -/
theorem Catalog.allocated_notMem_elementSlots {c : Catalog} {t : Ty} {count : Nat} {slots : List Slot}
    (h : c.elementSlots t count = .ok slots) : .allocated ∉ slots := by
  have hnone := Slot.allocated_notMem_numbered (.element t) fun _ _ => Slot.noConfusion
  cases t with
  | array element size =>
    dsimp only [Catalog.elementSlots] at h
    split at h
    · obtain rfl := Except.ok.inj h
      exact hnone _
    · cases h
  | struct name =>
    dsimp only [Catalog.elementSlots] at h
    split at h
    · cases h
    · split at h
      · obtain rfl := Except.ok.inj h
        exact hnone _
      · cases h
  | primitive _ | void | pointer _ | func _ _ => cases h

namespace Expr

variable {site : Site}

/-! ## Forms of expressions -/

/-- An expression that is replaced by what it is checked as. -/
theorem isTraced_of {e : Expr} (after : ∀ context, e.Becomes ((e.check site context).after Prod.fst))
    (used : ∀ context e' t, e.check site context = .ok (e', t) → leftBehind e e' = e') : e.IsTraced site where
  after := after
  behind context e' t h := by
    have hafter := after context
    rw [h] at hafter
    rw [used context e' t h]
    exact hafter

theorem isTraced_ident (name : String) (symbol : Option Symbol) (info : Info) :
    (ident name symbol info).IsTraced site := by
  refine isTraced_of (fun context => ?_) fun context e' t h => ?_
  · rw [check]
    cases site.value name <;> exact .ident rfl
  · rw [check] at h
    split at h
    · cases h
    · obtain ⟨rfl, -⟩ := Prod.mk.inj (Except.ok.inj h)
      rfl

theorem select_becomes {e base' : Expr} {t : Ty} {name : String} {span : Span} {left : Expr} (hleft : e.Becomes left)
    (hfield : ∀ info : Info, info.span = span → e.Becomes (.field base' name info)) :
    e.Becomes ((site.select base' t name span left).after Prod.fst) := by
  unfold Site.select
  cases site.fieldType t name with
  | error cause => exact hleft
  | ok u => exact hfield _ rfl

/-- What is left of an index with a checked base. -/
theorem behind_becomes {base base' i : Expr} (hb : base.Becomes base') (t : Ty) (hi : i.IsTraced site) (info : Info) :
    (Expr.index base i info).Becomes ((site.behind base' t i info).after Prod.fst)
      ∧ ∀ e' u, site.behind base' t i info = .ok (e', u) →
        (Expr.index base i info).Becomes (leftBehind (.index base i info) e') := by
  have hstays : (Expr.index base i info).Becomes (.index base' i info) := .index hb (.refl i) rfl
  have hindexed : (Expr.index base i info).Becomes ((site.indexed base' t i info).after Prod.fst)
      ∧ ∀ e' u, site.indexed base' t i info = .ok (e', u) →
        (Expr.index base i info).Becomes (leftBehind (.index base i info) e') := by
    have hafter := hi.after none
    unfold Site.indexed
    cases t.element? with
    | none => exact ⟨hstays, fun _ _ h => nomatch h⟩
    | some element =>
      cases hcheck : i.check site none with
      | error left =>
        rw [hcheck] at hafter
        exact ⟨.index hb hafter rfl, fun _ _ h => nomatch h⟩
      | ok r =>
        rw [hcheck] at hafter
        dsimp only
        split
        · refine ⟨.index hb hafter rfl, fun e' u h => ?_⟩
          obtain ⟨rfl, -⟩ := Prod.mk.inj (Except.ok.inj h)
          exact .index hb hafter rfl
        · exact ⟨.index hb hafter rfl, fun _ _ h => nomatch h⟩
  cases t with
  | struct struct =>
    show (Expr.index base i info).Becomes ((site.selected base' struct i info).after Prod.fst)
      ∧ ∀ e' u, site.selected base' struct i info = .ok (e', u) →
        (Expr.index base i info).Becomes (leftBehind (.index base i info) e')
    unfold Site.selected
    cases hident : i.ident? with
    | none => exact ⟨hstays, fun _ _ h => nomatch h⟩
    | some name =>
      refine ⟨select_becomes hstays fun info' hs => hb.selected_ident? hident hs, fun e' u h => ?_⟩
      dsimp only [Site.select] at h
      split at h
      · cases h
      · obtain ⟨rfl, -⟩ := Prod.mk.inj (Except.ok.inj h)
        exact hstays
  | primitive _ | void | pointer _ | array _ _ | func _ _ => exact hindexed

theorem IsTraced.index {base i : Expr} (hb : base.IsTraced site) (hi : i.IsTraced site) (info : Info) :
    (Expr.index base i info).IsTraced site := by
  have hbase := hb.after none
  cases hcheck : base.check site none with
  | error left =>
    rw [hcheck] at hbase
    refine isTraced_of (fun context => ?_) fun context e' t h => ?_
    · rw [check_index, hcheck]
      exact .index hbase (.refl i) rfl
    · rw [check_index, hcheck] at h
      cases h
  | ok r =>
    rw [hcheck] at hbase
    obtain ⟨hafter, hbehind⟩ := behind_becomes hbase r.2 hi info
    refine ⟨fun context => ?_, fun context e' t h => ?_⟩
    · rw [check_index, hcheck]
      exact hafter
    · rw [check_index, hcheck] at h
      exact hbehind e' t h

theorem IsTraced.field {base : Expr} (hb : base.IsTraced site) (name : String) (info : Info) :
    (Expr.field base name info).IsTraced site := by
  have hbase := hb.after none
  cases hcheck : base.check site none with
  | error left =>
    rw [hcheck] at hbase
    refine isTraced_of (fun context => ?_) fun context e' t h => ?_
    · rw [check, hcheck]
      exact .field hbase rfl
    · rw [check, hcheck] at h
      cases h
  | ok r =>
    rw [hcheck] at hbase
    refine ⟨fun context => ?_, fun context e' t h => ?_⟩
    · rw [check, hcheck]
      exact select_becomes (.field hbase rfl) fun info' hs => .field hbase hs
    · rw [check, hcheck] at h
      dsimp only [Site.select] at h
      split at h
      · cases h
      · obtain ⟨rfl, -⟩ := Prod.mk.inj (Except.ok.inj h)
        exact .field hbase rfl

/-- A name that is called stays the name, and allocates only if it is the name of the form that does. -/
theorem callForm?_becomes {e e' : Expr} {span : Span} {form : CallForm}
    (h : site.callForm? span e = .ok (some (e', form))) : e.Becomes e' ∧ (form = .alloc → e.allocates = true) := by
  cases e with
  | ident name symbol info =>
    unfold Site.callForm? at h
    dsimp only at h
    split at h
    · split at h
      · rename_i hname
        obtain ⟨rfl, rfl⟩ := Prod.mk.inj (Option.some.inj (Except.ok.inj h))
        have hsame : SpecialForm.alloc.name = name := by simpa using List.find?_some hname
        exact ⟨.refl _, fun _ => decide_eq_true (congrArg some hsame.symm)⟩
      · obtain ⟨rfl, rfl⟩ := Prod.mk.inj (Option.some.inj (Except.ok.inj h))
        exact ⟨.refl _, nofun⟩
      · cases h
      · split at h
        · obtain ⟨rfl, rfl⟩ := Prod.mk.inj (Option.some.inj (Except.ok.inj h))
          exact ⟨.ident rfl, nofun⟩
        · cases h
    · repeat' split at h
      all_goals first
        | cases h; done
        | obtain ⟨rfl, rfl⟩ := Prod.mk.inj (Option.some.inj (Except.ok.inj h))
          exact ⟨.ident rfl, nofun⟩
  | int _ _ | real _ _ | byte _ _ | index _ _ _ | field _ _ _ | call _ _ _ | composite _ _ | addrOf _ _ | typeArg _ _
  | foreign _ => cases h

theorem noteCallee_becomes {e e' : Expr} (h : e.Becomes e') (form : CallForm) (types : List Ty) :
    e.Becomes (form.noteCallee types e') := by
  cases form with
  | fixed callee s => exact h
  | alloc | free => exact h.withTy _

/-- What is left of a callee, also when it is noted with a type of its own. -/
theorem IsTraced.callee {e : Expr} (he : e.IsTraced site) (span : Span) :
    e.Becomes ((Expr.callee site span e).after Prod.fst)
      ∧ ∀ e' form, Expr.callee site span e = .ok (e', form) →
        (∀ types, e.Becomes (form.noteCallee types e')) ∧ (form = .alloc → e.allocates = true) := by
  unfold Expr.callee
  cases hform : site.callForm? span e with
  | error halt => exact ⟨.refl e, fun _ _ h => nomatch h⟩
  | ok called =>
    cases called with
    | some r =>
      obtain ⟨hbecomes, halloc⟩ := callForm?_becomes hform
      refine ⟨hbecomes, fun e' form h => ?_⟩
      obtain rfl := Except.ok.inj h
      exact ⟨noteCallee_becomes hbecomes form, halloc⟩
    | none =>
      have hcheck := he.after none
      cases hc : e.check site none with
      | error left =>
        rw [hc] at hcheck
        exact ⟨hcheck, fun _ _ h => nomatch h⟩
      | ok r =>
        obtain ⟨e', t⟩ := r
        rw [hc] at hcheck
        cases t with
        | func params result =>
          refine ⟨hcheck, fun e'' form h => ?_⟩
          obtain ⟨rfl, rfl⟩ := Prod.mk.inj (Except.ok.inj h)
          exact ⟨noteCallee_becomes hcheck _, nofun⟩
        | primitive _ | void | pointer _ | array _ _ | struct _ => exact ⟨hcheck, fun _ _ h => nomatch h⟩

theorem IsTraced.call {e : Expr} (he : e.IsTraced site) {args : List Expr} (hargs : ∀ a ∈ args, a.IsTraced site)
    (info : Info) : (Expr.call e args info).IsTraced site := by
  obtain ⟨hafter, hcalled⟩ := he.callee info.span
  refine isTraced_of (fun context => ?_) fun context e' t h => ?_
  · rw [check_call]
    cases hcallee : Expr.callee site info.span e with
    | error left =>
      rw [hcallee] at hafter
      exact .call hafter (.refl _ args) rfl
    | ok r =>
      obtain ⟨e', form⟩ := r
      rw [hcallee] at hafter
      obtain ⟨hnoted, halloc⟩ := hcalled e' form hcallee
      dsimp only
      cases hslots : form.slots args.length with
      | error cause => exact .call hafter (.refl _ args) rfl
      | ok slots =>
        obtain ⟨htail, hhead⟩ := CallForm.allocated_slots hslots
        have hall : OperandsBecome e.allocates args ((checkAll site slots args).after Prod.fst) := by
          have hbecome := checkAll_becomes hargs slots htail
          by_cases hfirst : slots.head? = some .allocated
          · rwa [decide_eq_true hfirst, ← halloc (hhead hfirst)] at hbecome
          · rw [decide_eq_false hfirst] at hbecome
            exact hbecome.weaken
        dsimp only
        cases hcheck : checkAll site slots args with
        | error left =>
          rw [hcheck] at hall
          exact .call hafter hall rfl
        | ok r =>
          rw [hcheck] at hall
          exact .call (hnoted r.2) hall rfl
  · rw [check_call] at h
    split at h
    · cases h
    · split at h
      · cases h
      · split at h
        · cases h
        · obtain ⟨rfl, -⟩ := Prod.mk.inj (Except.ok.inj h)
          rfl

theorem IsTraced.composite {es : List Expr} (hes : ∀ e ∈ es, e.IsTraced site) (info : Info) :
    (Expr.composite es info).IsTraced site := by
  refine isTraced_of (fun context => ?_) fun context e' t h => ?_
  · cases context with
    | none => exact .refl _
    | some t =>
      rw [check]
      cases hslots : site.catalog.elementSlots t es.length with
      | error cause => exact .refl _
      | ok slots =>
        have hnone := Catalog.allocated_notMem_elementSlots hslots
        have hall := checkAll_becomes hes slots fun h => hnone (List.mem_of_mem_tail h)
        rw [decide_eq_false fun h => hnone (List.mem_of_head? h)] at hall
        dsimp only
        cases hcheck : checkAll site slots es with
        | error left =>
          rw [hcheck] at hall
          exact .composite hall rfl
        | ok r =>
          rw [hcheck] at hall
          exact .composite hall rfl
  · cases context with
    | none => cases h
    | some u =>
      rw [check] at h
      split at h
      · cases h
      · split at h
        · cases h
        · obtain ⟨rfl, -⟩ := Prod.mk.inj (Except.ok.inj h)
          rfl

theorem functionAddress?_becomes {e e' : Expr} {t : Ty} (h : site.functionAddress? e = .ok (some (e', t))) :
    e.Becomes e' := by
  cases e with
  | ident name symbol info =>
    unfold Site.functionAddress? at h
    dsimp only at h
    repeat' split at h
    all_goals first
      | exact (Prod.mk.inj (Option.some.inj (Except.ok.inj h))).1 ▸ .ident rfl
      | cases h
  | int _ _ | real _ _ | byte _ _ | index _ _ _ | field _ _ _ | call _ _ _ | composite _ _ | addrOf _ _ | typeArg _ _
  | foreign _ => cases h

theorem IsTraced.addrOf {target : Expr} (ht : target.IsTraced site) (info : Info) :
    (Expr.addrOf target info).IsTraced site := by
  have htarget := ht.after none
  refine isTraced_of (fun context => ?_) fun context e' t h => ?_
  · rw [check]
    cases hf : site.functionAddress? target with
    | error halt => exact .refl _
    | ok address =>
      cases address with
      | some r => exact .addrOf (functionAddress?_becomes hf) rfl
      | none =>
        cases hc : target.check site none with
        | error left =>
          rw [hc] at htarget
          exact .addrOf htarget rfl
        | ok r =>
          rw [hc] at htarget
          dsimp only
          split
          · exact .addrOf htarget rfl
          · exact .addrOf htarget rfl
  · rw [check] at h
    repeat' split at h
    all_goals first
      | exact (Prod.mk.inj (Except.ok.inj h)).1 ▸ rfl
      | cases h

mutual

/-- A check of an expression leaves what may become of it. -/
theorem isTraced (site : Site) : (e : Expr) → e.IsTraced site
  | .ident name symbol info => isTraced_ident name symbol info
  | .index base i info => (base.isTraced site).index (i.isTraced site) info
  | .field base name info => (base.isTraced site).field name info
  | .call callee args info => (callee.isTraced site).call (allTraced site args) info
  | .addrOf target info => (target.isTraced site).addrOf info
  | .composite es info => .composite (allTraced site es) info
  | .int n info => isTraced_of (fun _ => .int rfl) fun _ _ _ h => by
    obtain ⟨rfl, -⟩ := Prod.mk.inj (Except.ok.inj h)
    rfl
  | .real x info => isTraced_of (fun _ => .real rfl) fun _ _ _ h => by
    obtain ⟨rfl, -⟩ := Prod.mk.inj (Except.ok.inj h)
    rfl
  | .byte n info => isTraced_of (fun _ => .byte rfl) fun _ _ _ h => by
    obtain ⟨rfl, -⟩ := Prod.mk.inj (Except.ok.inj h)
    rfl
  | .typeArg w info => isTraced_of (fun _ => .refl (.typeArg w info)) fun _ _ _ h => nomatch h
  | .foreign node => isTraced_of (fun _ => .refl (.foreign node)) fun _ _ _ h => nomatch h

theorem allTraced (site : Site) : (es : List Expr) → ∀ e ∈ es, e.IsTraced site
  | [], _, he => by cases he
  | e :: es, e', he => by
    obtain he | he := List.mem_cons.mp he
    · exact he ▸ e.isTraced site
    · exact allTraced site es e' he

end

end Expr

end FlatScope
