/-
  Names and operands in expressions. What a site decides about a name, a field or an operand alone is what the rules
  say: a value has the type of the symbol that is meant (`Site.value_eq_ok_iff`), and an operand is taken if it is
  what its slot asks for (`Slot.Accepts`). Lists of operands are taken one by one (`Expr.checkAll_eq_ok_iff`).
-/
import FlatScope.Proofs.Resolution.Check
import FlatScope.Proofs.Typing.Names
import Mathlib.Data.List.Forall2

namespace FlatScope

/-- A site as a context. -/
def Site.context (site : Site) : Context := site.catalog.context site.builtins

/-- The symbols of the function have names of their own. -/
def Site.IsDistinct (site : Site) : Prop := site.catalog.IsDistinct

namespace Site

variable {site : Site} {name : String} {s : Symbol} {t : Ty}

theorem lookup_eq_some_iff (h : site.IsDistinct) :
    site.lookup name = some s ↔ site.context.Means site.index name s :=
  Catalog.lookup_eq_some_iff h site.builtins

/-- A name has the value of the symbol that it means. -/
theorem value_eq_ok_iff (h : site.IsDistinct) :
    site.value name = .ok (s, t) ↔ site.context.Means site.index name s ∧ s.kind.IsValue ∧ s.ty = some t := by
  rw [← lookup_eq_some_iff h]
  unfold value Symbol.Kind.IsValue
  cases hl : site.lookup name with
  | none =>
    refine iff_of_false ?_ fun he => nomatch he.1
    dsimp only
    split
    · exact nofun
    · split <;> exact nofun
  | some s' =>
    obtain ⟨name', kind, level, ty, span, owner, value, order⟩ := s'
    constructor
    · intro hv
      cases kind <;> cases ty <;> cases hv <;> simp
    · rintro ⟨hs, hk, ht⟩
      obtain rfl := Option.some.inj hs
      obtain rfl : ty = some t := ht
      obtain rfl | rfl | rfl | rfl : kind = .const ∨ kind = .var ∨ kind = .param ∨ kind = .result := hk
      all_goals rfl

/-- The complete struct of a name has the fields that the rules give it. -/
theorem complete_eq_some_iff {info : StructInfo} :
    (site.catalog.struct? name).filter StructInfo.isComplete = some info ↔
      site.context.structs.find? (fun s => s.name = name) = some info ∧ info.isComplete = true :=
  Option.filter_eq_some_iff

theorem hasFields_iff {fields : List (String × Ty)} : site.context.HasFields name fields ↔
    ∃ info, (site.catalog.struct? name).filter StructInfo.isComplete = some info ∧ info.fields = fields := by
  simp only [complete_eq_some_iff, and_assoc]
  rfl

theorem fieldType_eq_ok_iff {u : Ty} {field : String} : site.fieldType u field = .ok t ↔
    ∃ struct fields, u = .struct struct ∧ site.context.HasFields struct fields ∧ fields.lookup field = some t := by
  unfold fieldType
  cases u
  case struct struct =>
    constructor
    · intro hf
      dsimp only at hf
      split at hf
      · cases hf
      · rename_i info hinfo
        split at hf
        · cases hf
        · rename_i t' ht'
          obtain rfl := Except.ok.inj hf
          exact ⟨struct, info.fields, rfl, hasFields_iff.mpr ⟨info, hinfo, rfl⟩, ht'⟩
    · rintro ⟨_, fields, hu, hf, ht⟩
      obtain rfl := Ty.struct.inj hu
      obtain ⟨info, hinfo, rfl⟩ := hasFields_iff.mp hf
      simp only [hinfo, ht]
  all_goals
    refine iff_of_false (fun hf => ?_) ?_
    · cases hf
    · rintro ⟨_, _, hu, -⟩
      cases hu

theorem writtenOperand_eq_ok_iff (h : site.IsDistinct) {e : Expr} {w : TypeExpr} {info : Info} :
    (∃ e', site.writtenOperand e w info = .ok (e', t)) ↔ site.context.Denotes site.index false w t := by
  have hresolve : w.resolve site.catalog (some (site.index : Int)) false = .ok t
      ↔ site.context.Denotes site.index false w t := w.resolve_eq_ok_iff h site.builtins false t
  rw [← hresolve]
  unfold writtenOperand
  cases w.resolve site.catalog (some (site.index : Int)) false with
  | error halt => exact iff_of_false (fun ⟨_, he⟩ => nomatch he) nofun
  | ok u =>
    constructor
    · rintro ⟨_, he⟩
      exact congrArg Except.ok (Prod.mk.inj (Except.ok.inj he)).2
    · intro he
      obtain rfl := Except.ok.inj he
      exact ⟨_, rfl⟩

/-- The first operand of an allocation is taken if it is a type. -/
theorem typeOperand_eq_ok_iff (h : site.IsDistinct) {e : Expr} :
    (∃ e', site.typeOperand e = .ok (e', t)) ↔ site.context.Allocates site.index e t := by
  by_cases harg : ∃ w info, e = .typeArg w info
  · obtain ⟨w, info, rfl⟩ := harg
    have hwritten : (∃ e', site.typeOperand (.typeArg w info) = .ok (e', t))
        ↔ site.context.Denotes site.index false w t := site.writtenOperand_eq_ok_iff h
    refine hwritten.trans ⟨fun hw => ⟨w, hw, .inl ⟨info, rfl⟩⟩, ?_⟩
    rintro ⟨w', hw, ⟨info', he⟩ | hs⟩
    · exact (Expr.typeArg.inj he).1 ▸ hw
    · cases hs
  have heq : site.typeOperand e
      = (e.asType?.map fun w => site.writtenOperand e w { span := e.span }).getD (.error (.atExpr e .allocType, e)) := by
    unfold typeOperand
    cases e
    case typeArg w info => exact absurd ⟨w, info, rfl⟩ harg
    all_goals
      dsimp only
      generalize Expr.asType? _ = w
      cases w <;> rfl
  have hspells : site.context.Allocates site.index e t
      ↔ ∃ w, e.asType? = some w ∧ site.context.Denotes site.index false w t := by
    constructor
    · rintro ⟨w, hw, ⟨info, rfl⟩ | hs⟩
      · exact absurd ⟨w, info, rfl⟩ harg
      · exact ⟨w, hs, hw⟩
    · rintro ⟨w, hs, hw⟩
      exact ⟨w, hw, .inr hs⟩
  rw [heq, hspells]
  cases e.asType? with
  | none =>
    refine iff_of_false ?_ ?_
    · rintro ⟨_, he⟩
      cases he
    · rintro ⟨_, hs, -⟩
      cases hs
  | some w =>
    refine (site.writtenOperand_eq_ok_iff h).trans ⟨fun hw => ⟨w, rfl, hw⟩, ?_⟩
    rintro ⟨w', hs, hw⟩
    exact Option.some.inj hs ▸ hw

end Site

/-! ## Operands -/

/-- A slot takes an expression of a type. Elements may be composite literals. -/
def Slot.Accepts (site : Site) (e : Expr) (t : Ty) : Slot → Prop
  | argument _ _ expected => site.context.HasType site.index e t ∧ t = expected
  | element _ _ expected => site.context.Conforms site.index e t ∧ t = expected
  | allocated => site.context.Allocates site.index e t
  | freed => site.context.HasType site.index e t ∧ ∃ u, t = .pointer u

/-- There are as many expressions as slots, and each slot takes its own. -/
def Site.AcceptAll (site : Site) : List Slot → List Expr → List Ty → Prop
  | slot :: slots, e :: es, t :: ts => slot.Accepts site e t ∧ site.AcceptAll slots es ts
  | [], [], [] => True
  | _, _, _ => False

/-- What an expression is checked as with a type from its context, if there is one: a value of its own type, or
something that fits the type from the context. -/
def Site.Fits (site : Site) (context : Option Ty) (e : Expr) (t : Ty) : Prop :=
  site.context.HasType site.index e t ∨ context = some t ∧ site.context.Conforms site.index e t

/-- An expression is checked as the rules say. -/
structure Expr.IsDecided (site : Site) (e : Expr) : Prop where
  sound : ∀ {context e' t}, e.check site context = .ok (e', t) →
    site.Fits context e t ∧ e'.info.ty = some t ∧ (e'.isAddressable = true ↔ site.context.IsStored site.index e)
  complete : ∀ {context t}, site.Fits context e t → ∃ e', e.check site context = .ok (e', t)

variable {site : Site} {slots : List Slot} {es : List Expr} {ts : List Ty}

theorem Expr.IsDecided.hasType {e e' : Expr} {t : Ty} (h : e.IsDecided site) (hc : e.check site none = .ok (e', t)) :
    site.context.HasType site.index e t := by
  obtain ⟨hf | ⟨hn, -⟩, -⟩ := h.sound hc
  · exact hf
  · cases hn

theorem Expr.IsDecided.check_of_hasType {e : Expr} {t : Ty} (h : e.IsDecided site) (context : Option Ty)
    (ht : site.context.HasType site.index e t) : ∃ e', e.check site context = .ok (e', t) :=
  h.complete (.inl ht)

/-- An expression has one type only. -/
theorem Expr.IsDecided.unique {e : Expr} {t u : Ty} (h : e.IsDecided site) (ht : site.context.HasType site.index e t)
    (hu : site.context.HasType site.index e u) : t = u := by
  obtain ⟨e', he⟩ := h.check_of_hasType none ht
  obtain ⟨e'', he'⟩ := h.check_of_hasType none hu
  exact (Prod.mk.inj (Except.ok.inj (he.symm.trans he'))).2

theorem Slot.ite_eq_none_iff {t expected : Ty} {cause : Problem.Cause} :
    (if t = expected then none else some cause) = none ↔ t = expected := by
  split
  · exact iff_of_true rfl ‹_›
  · exact iff_of_false nofun ‹_›

/-- A slot takes an operand if its check lets it pass and the slot does not refuse its type. -/
theorem Slot.accepts_iff (h : site.IsDistinct) {e : Expr} (hd : e.IsDecided site) {slot : Slot} {t : Ty} :
    slot.Accepts site e t ↔ (∃ e', site.operand slot e = .ok (e', t)) ∧ slot.refusal? t = none := by
  have htype : (∃ e', e.check site none = .ok (e', t)) ↔ site.context.HasType site.index e t :=
    ⟨fun ⟨_, hc⟩ => hd.hasType hc, fun ht => hd.complete (.inl ht)⟩
  cases slot with
  | argument callee position expected => exact and_congr htype.symm ite_eq_none_iff.symm
  | element literal position expected =>
    have hfits : (∃ e', e.check site (some expected) = .ok (e', t)) ↔ site.Fits (some expected) e t :=
      ⟨fun ⟨_, hc⟩ => (hd.sound hc).1, hd.complete⟩
    have hoperand : (∃ e', site.operand (.element literal position expected) e = .ok (e', t))
        ↔ site.Fits (some expected) e t := hfits
    rw [hoperand]
    show _ ∧ t = expected ↔ _ ∧ (if t = expected then none else _) = none
    rw [ite_eq_none_iff]
    refine and_congr_left ?_
    rintro rfl
    exact ⟨fun hc => .inr ⟨rfl, hc⟩, fun hf => hf.elim .value And.right⟩
  | allocated => exact (site.typeOperand_eq_ok_iff h).symm.trans (and_iff_left rfl).symm
  | freed =>
    refine and_congr htype.symm ?_
    cases t
    case pointer u => exact iff_of_true ⟨u, rfl⟩ rfl
    all_goals exact iff_of_false (fun ⟨_, he⟩ => nomatch he) nofun

namespace Expr

/-- Operands are checked in order if there are as many as slots and each slot takes its own. -/
theorem checkAll_eq_ok_iff (h : site.IsDistinct) (hd : ∀ e ∈ es, e.IsDecided site)
    (hl : slots.length = es.length) : (∃ es', checkAll site slots es = .ok (es', ts)) ↔ site.AcceptAll slots es ts := by
  induction es generalizing slots ts with
  | nil =>
    obtain rfl := List.length_eq_zero_iff.mp hl
    rw [checkAll_nil]
    cases ts with
    | nil => exact iff_of_true ⟨[], rfl⟩ trivial
    | cons t ts => exact iff_of_false (fun ⟨_, he⟩ => nomatch he) id
  | cons e es ih =>
    obtain ⟨slot, slots, rfl⟩ := List.exists_cons_of_length_eq_add_one hl
    obtain ⟨he, hes⟩ := List.forall_mem_cons.mp hd
    have ih : ∀ ts, (∃ es', checkAll site slots es = .ok (es', ts)) ↔ site.AcceptAll slots es ts :=
      fun _ => ih hes (Nat.succ.inj hl)
    rw [checkAll_cons]
    constructor
    · rintro ⟨es', hc⟩
      split at hc
      · cases hc
      · rename_i e' t ho
        split at hc
        · cases hc
        · rename_i hr
          split at hc
          · cases hc
          · rename_i es'' ts' hrest
            obtain ⟨-, rfl⟩ := Prod.mk.inj (Except.ok.inj hc)
            exact ⟨(Slot.accepts_iff h he).mpr ⟨⟨e', ho⟩, hr⟩, (ih ts').mp ⟨es'', hrest⟩⟩
    · intro ha
      cases ts with
      | nil => exact ha.elim
      | cons t ts =>
        obtain ⟨hslot, hrest⟩ : slot.Accepts site e t ∧ site.AcceptAll slots es ts := ha
        obtain ⟨⟨e', ho⟩, hr⟩ := (Slot.accepts_iff h he).mp hslot
        obtain ⟨es', hes'⟩ := (ih ts).mpr hrest
        rw [ho]
        dsimp only
        rw [hr]
        dsimp only
        rw [hes']
        exact ⟨_, rfl⟩

end Expr

/-! ## Slots for types -/

theorem Context.haveTypes_iff {Γ : Context} {n : Nat} : Γ.HaveTypes n es ts ↔ List.Forall₂ (Γ.HasType n) es ts := by
  constructor
  · intro h
    induction es generalizing ts with
    | nil => cases h; exact .nil
    | cons e es ih =>
      cases h with
      | cons he hes => exact .cons he (ih hes)
  · intro h
    induction h with
    | nil => exact .nil
    | cons he _ ih => exact .cons he ih

theorem Context.conformAll_iff {Γ : Context} {n : Nat} : Γ.ConformAll n es ts ↔ List.Forall₂ (Γ.Conforms n) es ts := by
  constructor
  · intro h
    induction es generalizing ts with
    | nil => cases h; exact .nil
    | cons e es ih =>
      cases h with
      | cons he hes => exact .cons he (ih hes)
  · intro h
    induction h with
    | nil => exact .nil
    | cons he _ ih => exact .cons he ih

theorem forall₂_replicate {P : Expr → Ty → Prop} {t : Ty} :
    List.Forall₂ P es (List.replicate es.length t) ↔ ∀ e ∈ es, P e t := by
  induction es with
  | nil => exact iff_of_true .nil (List.forall_mem_nil _)
  | cons e es ih => rw [List.length_cons, List.replicate_succ, List.forall₂_cons, List.forall_mem_cons, ih]

namespace Site

/-- Slots for types take expressions of these types. -/
theorem acceptAll_mapIdx {P : Expr → Ty → Prop} {params : List Ty} (slot : Nat → Ty → Slot)
    (hslot : ∀ k t e u, (slot k t).Accepts site e u ↔ P e u ∧ u = t) :
    site.AcceptAll (params.mapIdx slot) es ts ↔ List.Forall₂ P es params ∧ ts = params := by
  induction params generalizing es ts slot with
  | nil =>
    rw [List.mapIdx_nil, List.forall₂_nil_right_iff]
    cases es with
    | nil =>
      cases ts with
      | nil => exact iff_of_true trivial ⟨rfl, rfl⟩
      | cons t ts => exact iff_of_false id fun he => nomatch he.2
    | cons e es => exact iff_of_false id fun he => nomatch he.1
  | cons t params ih =>
    rw [List.mapIdx_cons]
    cases es with
    | nil => exact iff_of_false id fun he => nomatch he.1
    | cons e es =>
      cases ts with
      | nil => exact iff_of_false id fun he => nomatch he.2
      | cons u ts =>
        show (slot 0 t).Accepts site e u ∧ site.AcceptAll _ es ts ↔ _
        rw [ih (fun k => slot (k + 1)) fun k => hslot (k + 1), hslot, List.forall₂_cons, List.cons.injEq]
        constructor
        · rintro ⟨⟨he, rfl⟩, hes, hts⟩
          exact ⟨⟨he, hes⟩, rfl, hts⟩
        · rintro ⟨⟨he, hes⟩, rfl, hts⟩
          exact ⟨⟨he, rfl⟩, hes, hts⟩

theorem acceptAll_arguments {callee : Option String} {params : List Ty} :
    site.AcceptAll (Slot.numbered (.argument callee) params) es ts
      ↔ site.context.HaveTypes site.index es params ∧ ts = params := by
  rw [Context.haveTypes_iff]
  exact acceptAll_mapIdx _ fun _ _ _ _ => Iff.rfl

theorem acceptAll_elements {literal : Ty} {params : List Ty} :
    site.AcceptAll (Slot.numbered (.element literal) params) es ts
      ↔ site.context.ConformAll site.index es params ∧ ts = params := by
  rw [Context.conformAll_iff]
  exact acceptAll_mapIdx _ fun _ _ _ _ => Iff.rfl

end Site

end FlatScope
