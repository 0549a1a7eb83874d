/-
  Expressions are checked as the rules say. The check of an expression succeeds exactly if the rules give the
  expression a type, or if it fits the type from its context, and with this type (`Expr.isDecided`). The proof follows
  the tree; for each form of an expression there is one lemma about its parts.
-/
import FlatScope.Proofs.Typing.Operand

namespace FlatScope.Expr

variable {site : Site}

/-! ## Values -/

/-- An expression that is a composite literal. -/
def isComposite : Expr → Bool
  | composite .. => true
  | _ => false

/-- Only composite literals fit a type that the rules do not give them. -/
theorem hasType_of_fits {e : Expr} (hne : e.isComposite = false) {context : Option Ty} {t : Ty}
    (hf : site.Fits context e t) : site.context.HasType site.index e t := by
  obtain ht | ⟨-, ht⟩ := hf
  · exact ht
  · cases ht with
    | value ht => exact ht
    | array => cases hne
    | struct => cases hne

/-- An expression that is no composite literal, and whose check does not depend on the context. -/
theorem isDecided_of {e : Expr} (hne : e.isComposite = false)
    (sound : ∀ {context e' t}, e.check site context = .ok (e', t) → site.context.HasType site.index e t
      ∧ e'.info.ty = some t ∧ (e'.isAddressable = true ↔ site.context.IsStored site.index e))
    (complete : ∀ {context t}, site.context.HasType site.index e t → ∃ e', e.check site context = .ok (e', t)) :
    e.IsDecided site where
  sound hc := by
    obtain ⟨ht, hrest⟩ := sound hc
    exact ⟨.inl ht, hrest⟩
  complete hf := complete (hasType_of_fits hne hf)

theorem isDecided_int (value : Int) (info : Info) : (int value info).IsDecided site := by
  refine isDecided_of rfl (fun hc => ?_) fun ht => ?_
  · obtain ⟨rfl, rfl⟩ := Prod.mk.inj (Except.ok.inj hc)
    exact ⟨.int, rfl, iff_of_false Bool.false_ne_true nofun⟩
  · cases ht
    exact ⟨_, rfl⟩

theorem isDecided_real (value : Binary64) (info : Info) : (real value info).IsDecided site := by
  refine isDecided_of rfl (fun hc => ?_) fun ht => ?_
  · obtain ⟨rfl, rfl⟩ := Prod.mk.inj (Except.ok.inj hc)
    exact ⟨.real, rfl, iff_of_false Bool.false_ne_true nofun⟩
  · cases ht
    exact ⟨_, rfl⟩

theorem isDecided_byte (value : Int) (info : Info) : (byte value info).IsDecided site := by
  refine isDecided_of rfl (fun hc => ?_) fun ht => ?_
  · obtain ⟨rfl, rfl⟩ := Prod.mk.inj (Except.ok.inj hc)
    exact ⟨.byte, rfl, iff_of_false Bool.false_ne_true nofun⟩
  · cases ht
    exact ⟨_, rfl⟩

/-- A node that is never checked with success has no type. -/
theorem isDecided_error {e : Expr} (hne : e.isComposite = false)
    (he : ∀ context, ∃ halt, e.check site context = .error halt) (ht : ∀ t, ¬site.context.HasType site.index e t) :
    e.IsDecided site := by
  refine isDecided_of hne (fun {context _ _} hc => ?_) fun h => absurd h (ht _)
  obtain ⟨halt, hhalt⟩ := he context
  rw [hhalt] at hc
  cases hc

theorem isDecided_ident (h : site.IsDistinct) (name : String) (symbol : Option Symbol) (info : Info) :
    (ident name symbol info).IsDecided site := by
  refine isDecided_of rfl (fun hc => ?_) fun ht => ?_
  · rw [check] at hc
    split at hc
    · cases hc
    · rename_i s t hv
      obtain ⟨rfl, rfl⟩ := Prod.mk.inj (Except.ok.inj hc)
      obtain ⟨hs, hk, ht⟩ := (Site.value_eq_ok_iff h).mp hv
      refine ⟨.ident hs hk ht, rfl, fun hp => .ident hs hp, fun hp => ?_⟩
      cases hp with
      | ident hs' hk' =>
        obtain rfl := Option.some.inj (((Site.lookup_eq_some_iff h).mpr hs).symm.trans ((Site.lookup_eq_some_iff h).mpr hs'))
        exact hk'
  · cases ht with
    | ident hs hk ht =>
      rw [check, (Site.value_eq_ok_iff h).mpr ⟨hs, hk, ht⟩]
      exact ⟨_, rfl⟩

/-! ## Selectors -/

theorem select_eq_ok_iff {base : Expr} {u : Ty} {name : String} {span : Span} {left e' : Expr} {t : Ty} :
    site.select base u name span left = .ok (e', t)
      ↔ site.fieldType u name = .ok t ∧ e' = .field base name { span, ty := some t } := by
  unfold Site.select
  cases site.fieldType u name with
  | error cause => exact iff_of_false nofun fun he => nomatch he.1
  | ok u' =>
    constructor
    · intro he
      obtain ⟨rfl, rfl⟩ := Prod.mk.inj (Except.ok.inj he)
      exact ⟨rfl, rfl⟩
    · rintro ⟨hu, rfl⟩
      obtain rfl := Except.ok.inj hu
      rfl

theorem isDecided_field {b : Expr} (hb : b.IsDecided site) (name : String) (info : Info) :
    (field b name info).IsDecided site := by
  refine isDecided_of rfl (fun hc => ?_) fun ht => ?_
  · rw [check] at hc
    split at hc
    · cases hc
    · rename_i base u hbase
      obtain ⟨hf, rfl⟩ := select_eq_ok_iff.mp hc
      obtain ⟨struct, fields, rfl, hs, hl⟩ := Site.fieldType_eq_ok_iff.mp hf
      obtain ⟨-, -, hstored⟩ := hb.sound hbase
      refine ⟨.field (hb.hasType hbase) hs hl, rfl, fun hp => .field (hstored.mp hp), fun hp => ?_⟩
      cases hp with
      | field hp => exact hstored.mpr hp
  · cases ht with
    | field ht hs hl =>
      obtain ⟨base, hbase⟩ := hb.check_of_hasType none ht
      rw [check, hbase]
      exact ⟨_, select_eq_ok_iff.mpr ⟨Site.fieldType_eq_ok_iff.mpr ⟨_, _, rfl, hs, hl⟩, rfl⟩⟩

theorem exists_ident {e : Expr} {name : String} (h : e.ident? = some name) : ∃ symbol info, e = .ident name symbol info := by
  cases e
  case ident name' symbol info => exact ⟨symbol, info, by rw [← Option.some.inj h]⟩
  all_goals cases h

/-- A type that is indexed by position. -/
theorem element?_eq_some_iff {u t : Ty} : u.element? = some t ↔ (∃ size, u = .array t size) ∨ u = .pointer t := by
  constructor
  · intro h
    cases u <;> cases h
    · exact .inr rfl
    · exact .inl ⟨_, rfl⟩
  · rintro (⟨size, rfl⟩ | rfl) <;> rfl

theorem isDecided_index {b i : Expr} (hb : b.IsDecided site) (hi : i.IsDecided site) (info : Info) :
    (index b i info).IsDecided site := by
  refine isDecided_of rfl (fun hc => ?_) fun ht => ?_
  · rw [check] at hc
    split at hc
    · cases hc
    · rename_i base u hbase
      obtain ⟨-, hty, hstored⟩ := hb.sound hbase
      have hu := hb.hasType hbase
      split at hc
      · rename_i struct
        split at hc
        · cases hc
        · rename_i name hname
          obtain ⟨symbol, info', rfl⟩ := exists_ident hname
          obtain ⟨hf, rfl⟩ := select_eq_ok_iff.mp hc
          obtain ⟨_, fields, hstruct, hs, hl⟩ := Site.fieldType_eq_ok_iff.mp hf
          obtain rfl := Ty.struct.inj hstruct
          refine ⟨.ofStruct hu hs hl, rfl, fun hp => .part (hstored.mp hp), fun hp => ?_⟩
          cases hp with
          | behind hp => cases hb.unique hu hp
          | part hp => exact hstored.mpr hp
      · split at hc
        · cases hc
        · rename_i element helement
          split at hc
          · cases hc
          · rename_i i' v hindex
            split at hc
            · rename_i hv
              subst hv
              obtain ⟨rfl, rfl⟩ := Prod.mk.inj (Except.ok.inj hc)
              have hint := hi.hasType hindex
              obtain ⟨size, rfl⟩ | rfl := element?_eq_some_iff.mp helement
              · refine ⟨.ofArray hu hint, rfl, fun hp => ?_, fun hp => ?_⟩
                · rw [isAddressable, hty] at hp
                  exact .part (hstored.mp hp)
                · rw [isAddressable, hty]
                  cases hp with
                  | behind hp => cases hb.unique hu hp
                  | part hp => exact hstored.mpr hp
              · refine ⟨.ofPointer hu hint, rfl, fun _ => .behind hu, fun _ => ?_⟩
                rw [isAddressable, hty]
            · cases hc
  · cases ht with
    | ofStruct ht hs hl =>
      obtain ⟨base, hbase⟩ := hb.check_of_hasType none ht
      rw [check, hbase]
      exact ⟨_, select_eq_ok_iff.mpr ⟨Site.fieldType_eq_ok_iff.mpr ⟨_, _, rfl, hs, hl⟩, rfl⟩⟩
    | ofArray ht hint =>
      obtain ⟨base, hbase⟩ := hb.check_of_hasType none ht
      obtain ⟨i', hindex⟩ := hi.check_of_hasType none hint
      rw [check, hbase]
      simp only [Ty.element?, hindex]
      exact ⟨_, rfl⟩
    | ofPointer ht hint =>
      obtain ⟨base, hbase⟩ := hb.check_of_hasType none ht
      obtain ⟨i', hindex⟩ := hi.check_of_hasType none hint
      rw [check, hbase]
      simp only [Ty.element?, hindex]
      exact ⟨_, rfl⟩

/-! ## Addresses -/

/-- The address form takes a name as a function if that is what it means. -/
theorem functionAddress?_of_func (h : site.IsDistinct) {name : String} {s : Symbol} {t : Ty}
    (hs : site.context.Means site.index name s) (hk : s.kind = .func) (ht : s.ty = some t) (symbol : Option Symbol)
    (info : Info) :
    site.functionAddress? (.ident name symbol info) = .ok (some (.ident name (some s) { info with ty := some t }, t)) := by
  rw [Site.functionAddress?, (Site.lookup_eq_some_iff h).mpr hs, Option.filter_some, if_pos (decide_eq_true hk)]
  simp only [ht]

theorem functionAddress?_eq_some (h : site.IsDistinct) {e e' : Expr} {t : Ty}
    (hf : site.functionAddress? e = .ok (some (e', t))) :
    ∃ name symbol info s, e = .ident name symbol info ∧ site.context.Means site.index name s ∧ s.kind = .func
      ∧ s.ty = some t := by
  cases e
  case ident name symbol info =>
    rw [Site.functionAddress?] at hf
    split at hf
    · rename_i s hs
      obtain ⟨hs, hk⟩ := Option.filter_eq_some_iff.mp hs
      split at hf
      · rename_i u hu
        obtain ⟨-, rfl⟩ := Prod.mk.inj (Option.some.inj (Except.ok.inj hf))
        exact ⟨name, symbol, info, s, rfl, (Site.lookup_eq_some_iff h).mp hs, of_decide_eq_true hk, hu⟩
      · cases hf
    · split at hf <;> cases hf
  all_goals cases hf

/-- Nothing but a function or a builtin has an address of a kind of its own. -/
theorem functionAddress?_of_hasType (h : site.IsDistinct) {e : Expr} {t : Ty} (hn : ¬e.IsBuiltinName)
    (ht : site.context.HasType site.index e t) : site.functionAddress? e = .ok none := by
  cases e
  case ident name symbol info =>
    cases ht with
    | @ident _ _ _ s _ hs hk _ =>
      have hfunc : (some s).filter (fun s => s.kind = .func) = none := by
        rw [Option.filter_some, if_neg]
        intro hf
        rw [of_decide_eq_true hf] at hk
        obtain hk | hk | hk | hk := hk <;> cases hk
      rw [Site.functionAddress?, (Site.lookup_eq_some_iff h).mpr hs, hfunc]
      exact if_neg hn
  all_goals rfl

theorem not_isBuiltinName {e : Expr} (hf : site.functionAddress? e = .ok none) : ¬e.IsBuiltinName := by
  cases e
  case ident name symbol info =>
    rw [Site.functionAddress?] at hf
    split at hf
    · split at hf <;> cases hf
    · split at hf
      · cases hf
      · assumption
  all_goals exact id

theorem isDecided_addrOf (h : site.IsDistinct) {e : Expr} (he : e.IsDecided site) (info : Info) :
    (addrOf e info).IsDecided site := by
  have hstored : ∀ e' info', (addrOf e' info').isAddressable = true ↔ site.context.IsStored site.index (addrOf e info) :=
    fun _ _ => iff_of_false Bool.false_ne_true nofun
  refine isDecided_of rfl (fun hc => ?_) fun ht => ?_
  · rw [check] at hc
    split at hc
    · cases hc
    · rename_i e' t hf
      obtain ⟨rfl, rfl⟩ := Prod.mk.inj (Except.ok.inj hc)
      obtain ⟨name, symbol, info', s, rfl, hs, hk, ht⟩ := functionAddress?_eq_some h hf
      exact ⟨.addrFunction hs hk ht, rfl, hstored _ _⟩
    · rename_i hf
      split at hc
      · cases hc
      · rename_i e' t htarget
        split at hc
        · rename_i hp
          obtain ⟨rfl, rfl⟩ := Prod.mk.inj (Except.ok.inj hc)
          obtain ⟨-, -, hplace⟩ := he.sound htarget
          exact ⟨.addrPlace (not_isBuiltinName hf) (he.hasType htarget) (hplace.mp hp), rfl, hstored _ _⟩
        · cases hc
  · cases ht with
    | addrFunction hs hk ht =>
      rw [check, functionAddress?_of_func h hs hk ht]
      exact ⟨_, rfl⟩
    | addrPlace hn ht hp =>
      obtain ⟨e', htarget⟩ := he.check_of_hasType none ht
      obtain ⟨-, -, hplace⟩ := he.sound htarget
      rw [check, functionAddress?_of_hasType h hn ht, htarget]
      simp only [hplace.mpr hp]
      exact ⟨_, rfl⟩

/-! ## Composite literals -/

theorem length_elementSlots {c : Catalog} {t : Ty} {count : Nat} {slots : List Slot}
    (h : c.elementSlots t count = .ok slots) : slots.length = count := by
  unfold Catalog.elementSlots at h
  split at h
  · split at h
    · obtain rfl := Except.ok.inj h
      rw [Slot.numbered, List.length_mapIdx, List.length_replicate]
    · cases h
  · split at h
    · cases h
    · split at h
      · rename_i hcount
        obtain rfl := Except.ok.inj h
        rw [Slot.numbered, List.length_mapIdx, List.length_map, hcount]
      · cases h
  · cases h

/-- A composite literal fits a type that has slots for its elements. -/
theorem conforms_composite_iff {es : List Expr} {info : Info} {t : Ty} :
    (∃ slots ts, site.catalog.elementSlots t es.length = .ok slots ∧ site.AcceptAll slots es ts)
      ↔ site.context.Conforms site.index (.composite es info) t := by
  constructor
  · rintro ⟨slots, ts, hslots, ha⟩
    unfold Catalog.elementSlots at hslots
    split at hslots
    · split at hslots
      · rename_i hsize
        obtain rfl := Except.ok.inj hslots
        obtain ⟨hes, -⟩ := Site.acceptAll_elements.mp ha
        rw [Context.conformAll_iff, forall₂_replicate] at hes
        exact .array hsize hes
      · cases hslots
    · split at hslots
      · cases hslots
      · rename_i info' hinfo
        split at hslots
        · obtain rfl := Except.ok.inj hslots
          obtain ⟨hes, -⟩ := Site.acceptAll_elements.mp ha
          exact .struct (Site.hasFields_iff.mpr ⟨info', hinfo, rfl⟩) hes
        · cases hslots
    · cases hslots
  · intro hc
    cases hc with
    | value ht => cases ht
    | @array _ _ element _ hsize hes =>
      refine ⟨Slot.numbered (.element _) (.replicate es.length element), .replicate es.length element, if_pos hsize, ?_⟩
      refine Site.acceptAll_elements.mpr ⟨?_, rfl⟩
      rw [Context.conformAll_iff, forall₂_replicate]
      exact hes
    | @struct _ _ name _ hs hes =>
      obtain ⟨info', hinfo, rfl⟩ := Site.hasFields_iff.mp hs
      have hl : es.length = info'.fields.length := by
        rw [(Context.conformAll_iff.mp hes).length_eq, List.length_map]
      refine ⟨Slot.numbered (.element (.struct name)) (info'.fields.map (·.2)), _, ?_, Site.acceptAll_elements.mpr ⟨hes, rfl⟩⟩
      simp only [Catalog.elementSlots, hinfo, hl, if_true]

theorem isDecided_composite (h : site.IsDistinct) {es : List Expr} (hes : ∀ e ∈ es, e.IsDecided site) (info : Info) :
    (composite es info).IsDecided site where
  sound {context e' t} hc := by
    cases context with
    | none => cases hc
    | some t =>
      rw [check] at hc
      split at hc
      · cases hc
      · rename_i slots hslots
        split at hc
        · cases hc
        · rename_i es' ts hall
          obtain ⟨rfl, rfl⟩ := Prod.mk.inj (Except.ok.inj hc)
          have ha := (checkAll_eq_ok_iff h hes (length_elementSlots hslots)).mp ⟨es', hall⟩
          refine ⟨.inr ⟨rfl, conforms_composite_iff.mp ⟨slots, ts, hslots, ha⟩⟩, rfl, ?_⟩
          exact iff_of_false Bool.false_ne_true (by rintro ⟨⟩)
  complete hf := by
    obtain ht | ⟨rfl, hc⟩ := hf
    · cases ht
    · obtain ⟨slots, ts, hslots, ha⟩ := conforms_composite_iff.mpr hc
      obtain ⟨es', hall⟩ := (checkAll_eq_ok_iff h hes (length_elementSlots hslots)).mpr ha
      rw [check]
      simp only [hslots, hall]
      exact ⟨_, rfl⟩

/-! ## Calls -/

theorem length_slots {form : CallForm} {count : Nat} {slots : List Slot} (h : form.slots count = .ok slots) :
    slots.length = count := by
  cases form with
  | fixed callee s =>
    rw [CallForm.slots] at h
    split at h
    · rename_i hcount
      obtain rfl := Except.ok.inj h
      rw [Slot.numbered, List.length_mapIdx, hcount]
    · cases h
  | alloc =>
    match count with
    | 0 => cases h
    | 1 | 2 =>
      cases h
      rfl
    | _ + 3 => cases h
  | free =>
    rw [CallForm.slots] at h
    split at h
    · rename_i hcount
      obtain rfl := Except.ok.inj h
      exact hcount.symm
    · cases h

/-- What a call form makes of arguments: the slots for them, and the type of the call. -/
def Takes (site : Site) (form : CallForm) (args : List Expr) (t : Ty) : Prop :=
  ∃ slots ts, form.slots args.length = .ok slots ∧ site.AcceptAll slots args ts ∧ form.result ts = t

theorem takes_fixed_iff {callee : Option String} {s : Signature} {args : List Expr} {t : Ty} :
    Takes site (.fixed callee s) args t ↔ site.context.HaveTypes site.index args s.params ∧ t = s.result := by
  constructor
  · rintro ⟨slots, ts, hslots, ha, rfl⟩
    rw [CallForm.slots] at hslots
    split at hslots
    · obtain rfl := Except.ok.inj hslots
      exact ⟨(Site.acceptAll_arguments.mp ha).1, rfl⟩
    · cases hslots
  · rintro ⟨ha, rfl⟩
    have hl : args.length = s.params.length := (Context.haveTypes_iff.mp ha).length_eq
    exact ⟨_, s.params, if_pos hl, Site.acceptAll_arguments.mpr ⟨ha, rfl⟩, rfl⟩

theorem takes_alloc_iff {args : List Expr} {t : Ty} : Takes site .alloc args t ↔
    ∃ e u, site.context.Allocates site.index e u ∧ t = .pointer u
      ∧ (args = [e] ∨ ∃ count, args = [e, count] ∧ site.context.HasType site.index count .int) := by
  constructor
  · rintro ⟨slots, ts, hslots, ha, rfl⟩
    match args with
    | [] => cases hslots
    | [e] =>
      obtain rfl := Except.ok.inj hslots
      match ts with
      | [] => exact ha.elim
      | u :: [] => exact ⟨e, u, ha.1, rfl, .inl rfl⟩
      | _ :: _ :: _ => exact ha.2.elim
    | [e, count] =>
      obtain rfl := Except.ok.inj hslots
      match ts with
      | [] => exact ha.elim
      | [u] => exact ha.2.elim
      | [u, v] =>
        obtain ⟨he, ⟨hc, rfl⟩, -⟩ := ha
        exact ⟨e, u, he, rfl, .inr ⟨count, rfl, hc⟩⟩
      | _ :: _ :: _ :: _ => exact ha.2.2.elim
    | _ :: _ :: _ :: _ => cases hslots
  · rintro ⟨e, u, he, rfl, rfl | ⟨count, rfl, hc⟩⟩
    · exact ⟨_, [u], rfl, ⟨he, trivial⟩, rfl⟩
    · exact ⟨_, [u, .int], rfl, ⟨he, ⟨hc, rfl⟩, trivial⟩, rfl⟩

theorem takes_free_iff {args : List Expr} {t : Ty} : Takes site .free args t ↔
    ∃ e u, args = [e] ∧ site.context.HasType site.index e (.pointer u) ∧ t = .void := by
  constructor
  · rintro ⟨slots, ts, hslots, ha, rfl⟩
    match args with
    | [] => cases hslots
    | [e] =>
      obtain rfl := Except.ok.inj hslots
      match ts with
      | [] => exact ha.elim
      | [u] =>
        obtain ⟨⟨he, v, rfl⟩, -⟩ := ha
        exact ⟨e, v, rfl, he, rfl⟩
      | _ :: _ :: _ => exact ha.2.elim
    | _ :: _ :: _ =>
      rw [CallForm.slots] at hslots
      split at hslots
      · rename_i hl
        simp at hl
      · cases hslots
  · rintro ⟨e, u, rfl, he, rfl⟩
    exact ⟨_, [.pointer u], rfl, ⟨⟨he, u, rfl⟩, trivial⟩, rfl⟩

theorem specialForm_name {name : String} {f : SpecialForm} (h : SpecialForm.ofName? name = some f) : name = f.name := by
  rw [SpecialForm.ofName?] at h
  have hf := List.find?_some h
  exact (of_decide_eq_true hf).symm

/-- What sort of call a name is called in. -/
inductive NamedCall (site : Site) (name : String) : CallForm → Prop
  | alloc (hn : name = SpecialForm.alloc.name) : NamedCall site name .alloc
  | free (hn : name = SpecialForm.free.name) : NamedCall site name .free
  | builtin {s : Signature} (hn : isBuiltinName name = true) (hf : SpecialForm.ofName? name = none)
      (hs : site.builtins.lookup name = some s) : NamedCall site name (.fixed (some name) s)
  | function {s : Symbol} {params : List Ty} {result : Ty} (hn : isBuiltinName name = false)
      (hs : site.context.Means site.index name s) (hk : s.kind = .func) (ht : s.ty = some (.func params result)) :
    NamedCall site name (.fixed (some name) { params, result })

theorem namedCall_of_callForm? (h : site.IsDistinct) {span : Span} {e e' : Expr} {form : CallForm}
    (hc : site.callForm? span e = .ok (some (e', form))) :
    ∃ name symbol info, e = .ident name symbol info ∧ NamedCall site name form := by
  cases e
  case ident name symbol info =>
    refine ⟨name, symbol, info, rfl, ?_⟩
    rw [Site.callForm?] at hc
    split at hc
    · rename_i hn
      split at hc
      · rename_i hf
        obtain ⟨-, rfl⟩ := Prod.mk.inj (Option.some.inj (Except.ok.inj hc))
        exact .alloc (specialForm_name hf)
      · rename_i hf
        obtain ⟨-, rfl⟩ := Prod.mk.inj (Option.some.inj (Except.ok.inj hc))
        exact .free (specialForm_name hf)
      · cases hc
      · rename_i hf
        split at hc
        · rename_i s hs
          obtain ⟨-, rfl⟩ := Prod.mk.inj (Option.some.inj (Except.ok.inj hc))
          exact .builtin hn hf hs
        · cases hc
    · rename_i hn
      rw [Bool.not_eq_true] at hn
      split at hc
      · cases hc
      · rename_i s hs
        split at hc
        · rename_i params result hk ht
          obtain ⟨-, rfl⟩ := Prod.mk.inj (Option.some.inj (Except.ok.inj hc))
          exact .function hn ((Site.lookup_eq_some_iff h).mp hs) hk ht
        all_goals cases hc
  all_goals cases hc

theorem callForm?_of_namedCall (h : site.IsDistinct) {name : String} {form : CallForm} (hc : NamedCall site name form)
    (symbol : Option Symbol) (info : Info) (span : Span) :
    ∃ e', site.callForm? span (.ident name symbol info) = .ok (some (e', form)) := by
  cases hc with
  | alloc hn => exact ⟨_, by rw [hn]; rfl⟩
  | free hn => exact ⟨_, by rw [hn]; rfl⟩
  | builtin hn hf hs =>
    rw [Site.callForm?, if_pos hn]
    simp only [hf, hs]
    exact ⟨_, rfl⟩
  | function hn hs hk ht =>
    rw [Site.callForm?, if_neg (by rw [hn]; exact Bool.false_ne_true), (Site.lookup_eq_some_iff h).mpr hs]
    simp only [hk, ht]
    exact ⟨_, rfl⟩

theorem not_isBuiltinName_of_callForm? {span : Span} {e : Expr} (hc : site.callForm? span e = .ok none) :
    ¬e.IsBuiltinName := by
  cases e
  case ident name symbol info =>
    intro hn
    have hn : isBuiltinName name = true := hn
    rw [Site.callForm?, if_pos hn] at hc
    split at hc
    · cases hc
    · cases hc
    · cases hc
    · split at hc <;> cases hc
  all_goals exact id

/-- A callee that is a value is checked as one. -/
theorem callForm?_of_hasType (h : site.IsDistinct) {e : Expr} {t : Ty} (hn : ¬e.IsBuiltinName)
    (ht : site.context.HasType site.index e t) (span : Span) : site.callForm? span e = .ok none := by
  cases e
  case ident name symbol info =>
    cases ht with
    | @ident _ _ _ s _ hs hk ht =>
      have hn : ¬isBuiltinName name = true := hn
      rw [Site.callForm?, if_neg hn, (Site.lookup_eq_some_iff h).mpr hs]
      obtain hk | hk | hk | hk := hk <;> simp only [hk]
  all_goals rfl

/-- A named call has the type that its form makes of its arguments. -/
theorem NamedCall.hasType {name : String} {form : CallForm} (hc : NamedCall site name form) {args : List Expr} {t : Ty}
    (ht : Takes site form args t) (symbol : Option Symbol) (info info' : Info) :
    site.context.HasType site.index (.call (.ident name symbol info) args info') t := by
  cases hc with
  | alloc hn =>
    obtain ⟨e, u, he, rfl, rfl | ⟨count, rfl, hcount⟩⟩ := takes_alloc_iff.mp ht
    · rw [hn]
      exact .alloc he
    · rw [hn]
      exact .allocMany he hcount
  | free hn =>
    obtain ⟨e, u, rfl, he, rfl⟩ := takes_free_iff.mp ht
    rw [hn]
    exact .free he
  | builtin hn hf hs =>
    obtain ⟨ha, rfl⟩ := takes_fixed_iff.mp ht
    exact .callBuiltin hn hf hs ha
  | function hn hs hk hty =>
    obtain ⟨ha, rfl⟩ := takes_fixed_iff.mp ht
    exact .callFunction hn hs hk hty ha

/-- An expression is called in a way that the rules allow. -/
def IsCalled (site : Site) (e : Expr) (form : CallForm) : Prop :=
  (∃ name symbol info, e = .ident name symbol info ∧ NamedCall site name form)
    ∨ ∃ callee params result, ¬e.IsBuiltinName ∧ site.context.HasType site.index e (.func params result)
      ∧ form = .fixed callee { params, result }

theorem isCalled_of_callee (h : site.IsDistinct) {e e' : Expr} (he : e.IsDecided site) {span : Span} {form : CallForm}
    (hc : callee site span e = .ok (e', form)) : IsCalled site e form := by
  unfold callee at hc
  split at hc
  · cases hc
  · rename_i hform
    obtain rfl := Except.ok.inj hc
    exact .inl (namedCall_of_callForm? h hform)
  · rename_i hform
    split at hc
    · cases hc
    · rename_i e'' params result hcheck
      obtain ⟨-, rfl⟩ := Prod.mk.inj (Except.ok.inj hc)
      exact .inr ⟨_, params, result, not_isBuiltinName_of_callForm? hform, he.hasType hcheck, rfl⟩
    · cases hc

theorem hasType_of_isCalled {e : Expr} {form : CallForm} {args : List Expr} {t : Ty} (hc : IsCalled site e form)
    (ht : Takes site form args t) (info : Info) : site.context.HasType site.index (.call e args info) t := by
  obtain ⟨name, symbol, info', rfl, hn⟩ | ⟨_, params, result, hn, he, rfl⟩ := hc
  · exact hn.hasType ht symbol info' info
  · obtain ⟨ha, rfl⟩ := takes_fixed_iff.mp ht
    exact .callPointer hn he ha

/-- A call that has a type is made in some form. -/
theorem exists_callee (h : site.IsDistinct) {e : Expr} (he : e.IsDecided site) {args : List Expr} {info : Info} {t : Ty}
    (ht : site.context.HasType site.index (.call e args info) t) (span : Span) :
    ∃ e' form, callee site span e = .ok (e', form) ∧ Takes site form args t := by
  have hnamed : ∀ {name symbol info' form}, NamedCall site name form → Takes site form args t →
      ∃ e' form, callee site span (.ident name symbol info') = .ok (e', form) ∧ Takes site form args t := by
    intro name symbol info' form hn ht
    obtain ⟨e', hform⟩ := callForm?_of_namedCall h hn symbol info' span
    exact ⟨e', form, by rw [callee, hform], ht⟩
  cases ht with
  | callFunction hn hs hk ht ha => exact hnamed (.function hn hs hk ht) (takes_fixed_iff.mpr ⟨ha, rfl⟩)
  | callBuiltin hn hf hs ha => exact hnamed (.builtin hn hf hs) (takes_fixed_iff.mpr ⟨ha, rfl⟩)
  | alloc ha => exact hnamed (.alloc rfl) (takes_alloc_iff.mpr ⟨_, _, ha, rfl, .inl rfl⟩)
  | allocMany ha hc => exact hnamed (.alloc rfl) (takes_alloc_iff.mpr ⟨_, _, ha, rfl, .inr ⟨_, rfl, hc⟩⟩)
  | free ha => exact hnamed (.free rfl) (takes_free_iff.mpr ⟨_, _, rfl, ha, rfl⟩)
  | @callPointer _ _ _ params _ hn hc ha =>
    obtain ⟨e', hcheck⟩ := he.check_of_hasType none hc
    refine ⟨e', .fixed e.ident? { params, result := t }, ?_, takes_fixed_iff.mpr ⟨ha, rfl⟩⟩
    rw [callee, callForm?_of_hasType h hn hc]
    simp only [hcheck]

theorem isDecided_call (h : site.IsDistinct) {e : Expr} {args : List Expr} (he : e.IsDecided site)
    (hargs : ∀ e ∈ args, e.IsDecided site) (info : Info) : (call e args info).IsDecided site := by
  refine isDecided_of rfl (fun hc => ?_) fun ht => ?_
  · rw [check_call] at hc
    split at hc
    · cases hc
    · rename_i e' form hcallee
      split at hc
      · cases hc
      · rename_i slots hslots
        split at hc
        · cases hc
        · rename_i args' ts hall
          obtain ⟨rfl, rfl⟩ := Prod.mk.inj (Except.ok.inj hc)
          have ha := (checkAll_eq_ok_iff h hargs (length_slots hslots)).mp ⟨args', hall⟩
          have hcalled := isCalled_of_callee h he hcallee
          refine ⟨hasType_of_isCalled hcalled ⟨slots, ts, hslots, ha, rfl⟩ info, rfl, ?_⟩
          exact iff_of_false Bool.false_ne_true (by rintro ⟨⟩)
  · obtain ⟨e', form, hcallee, slots, ts, hslots, ha, rfl⟩ := exists_callee h he ht info.span
    obtain ⟨args', hall⟩ := (checkAll_eq_ok_iff h hargs (length_slots hslots)).mpr ha
    rw [check_call, hcallee]
    simp only [hslots, hall]
    exact ⟨_, rfl⟩

/-! ## All expressions -/

mutual

/-- Every expression is checked as the rules say. -/
theorem isDecided (h : site.IsDistinct) : (e : Expr) → e.IsDecided site
  | .int value info => isDecided_int value info
  | .real value info => isDecided_real value info
  | .byte value info => isDecided_byte value info
  | .ident name symbol info => isDecided_ident h name symbol info
  | .index b i info => isDecided_index (b.isDecided h) (i.isDecided h) info
  | .field b name info => isDecided_field (b.isDecided h) name info
  | .call e args info => isDecided_call h (e.isDecided h) (allDecided h args) info
  | .composite es info => isDecided_composite h (allDecided h es) info
  | .addrOf e info => isDecided_addrOf h (e.isDecided h) info
  | .typeArg _ _ => isDecided_error rfl (fun _ => ⟨_, rfl⟩) nofun
  | .foreign _ => isDecided_error rfl (fun _ => ⟨_, rfl⟩) nofun

theorem allDecided (h : site.IsDistinct) : (es : List Expr) → ∀ e ∈ es, e.IsDecided site
  | [] => nofun
  | e :: es => List.forall_mem_cons.mpr ⟨e.isDecided h, allDecided h es⟩

end

end FlatScope.Expr
