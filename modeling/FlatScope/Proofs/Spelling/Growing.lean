/-
  More names. A context in which every name that means a symbol means the same, but more names may mean one, is wider than
  another one (`Context.Widens`). What the rules allow they allow in a wider context, since they ask what names mean, and never
  what they do not mean: so a function that is typed is typed among more global symbols (`FuncDecl.IsTyped.widen`).

  A catalog grows if every name that means a symbol goes on to mean it while others may come to mean one. What a catalog gives a
  written type, a list of fields or a header, it still gives when it has grown, since a name that means nothing leads to a
  problem there. So a step that goes through goes through where more is known, and more is known behind it (`Step.Grows`), and
  so do the bodies of functions, by their rules (`Step.Passes.grow_body`).
-/
import FlatScope.Proofs.Isolation
import FlatScope.Proofs.Reordering.Unit
import FlatScope.Proofs.Typing.Rules

namespace FlatScope

namespace Context

/-- A context knows what another one knows, with the same local symbols, and perhaps more global ones. -/
structure Widens (Γ Δ : Context) : Prop where
  builtins : Δ.builtins = Γ.builtins
  structs : Δ.structs = Γ.structs
  locals : Δ.locals = Γ.locals
  globals : ∀ name s, Symbol.find? Γ.globals name = some s → Symbol.find? Δ.globals name = some s

variable {Γ Δ : Context} {n : Nat}

/-! ## Names and types -/

theorem Means.widen (h : Γ.Widens Δ) {name : String} {s : Symbol} (hs : Γ.Means n name s) : Δ.Means n name s := by
  cases hs with
  | ofLocal hm hn hseen => exact .ofLocal (h.locals ▸ hm) hn hseen
  | ofGlobal hl hg => exact .ofGlobal (h.locals ▸ hl) (h.globals name s hg)

theorem IsLength.widen (h : Γ.Widens Δ) : {size : ArraySize} → {k : Int} → Γ.IsLength n size k → Δ.IsLength n size k
  | .int _, _, hk => hk
  | .name _, _, ⟨s, hs, hrest⟩ => ⟨s, hs.widen h, hrest⟩

mutual

theorem Denotes.widen (h : Γ.Widens Δ) : {isResult : Bool} → {w : TypeExpr} → {t : Ty} → Γ.Denotes n isResult w t →
    Δ.Denotes n isResult w t
  | _, _, _, .void hw => .void hw
  | _, _, _, .primitive hw => .primitive hw
  | _, _, _, .struct hw hg hk => .struct hw (h.globals _ _ hg) hk
  | _, _, _, .pointer he => .pointer (he.widen h)
  | _, _, _, .array he hl hk => .array (he.widen h) (hl.widen h) hk
  | _, _, _, .func hps hr => .func (hps.widen h) (hr.widen h)

theorem DenoteAll.widen (h : Γ.Widens Δ) : {ws : List TypeExpr} → {ts : List Ty} → Γ.DenoteAll n ws ts → Δ.DenoteAll n ws ts
  | _, _, .nil => .nil
  | _, _, .cons hw hws => .cons (hw.widen h) (hws.widen h)

end

theorem Allocates.widen (h : Γ.Widens Δ) {e : Expr} {t : Ty} : Γ.Allocates n e t → Δ.Allocates n e t
  | ⟨w, hw, he⟩ => ⟨w, hw.widen h, he⟩

theorem HasFields.widen (h : Γ.Widens Δ) {name : String} {fields : List (String × Ty)} (hf : Γ.HasFields name fields) :
    Δ.HasFields name fields := by
  obtain ⟨info, hinfo, hrest⟩ := hf
  exact ⟨info, h.structs ▸ hinfo, hrest⟩

/-! ## Expressions -/

mutual

theorem HasType.widen (h : Γ.Widens Δ) : {e : Expr} → {t : Ty} → Γ.HasType n e t → Δ.HasType n e t
  | _, _, .int => .int
  | _, _, .real => .real
  | _, _, .byte => .byte
  | _, _, .ident hs hk ht => .ident (hs.widen h) hk ht
  | _, _, .ofArray hb hi => .ofArray (hb.widen h) (hi.widen h)
  | _, _, .ofPointer hb hi => .ofPointer (hb.widen h) (hi.widen h)
  | _, _, .ofStruct hb hs hf => .ofStruct (hb.widen h) (hs.widen h) hf
  | _, _, .field hb hs hf => .field (hb.widen h) (hs.widen h) hf
  | _, _, .callFunction hn hs hk ht ha => .callFunction hn (hs.widen h) hk ht (ha.widen h)
  | _, _, .callBuiltin hn hf hs ha => .callBuiltin hn hf (h.builtins ▸ hs) (ha.widen h)
  | _, _, .callPointer hn hc ha => .callPointer hn (hc.widen h) (ha.widen h)
  | _, _, .alloc he => .alloc (he.widen h)
  | _, _, .allocMany he hc => .allocMany (he.widen h) (hc.widen h)
  | _, _, .free he => .free (he.widen h)
  | _, _, .addrFunction hs hk ht => .addrFunction (hs.widen h) hk ht
  | _, _, .addrPlace hn he hp => .addrPlace hn (he.widen h) (hp.widen h)

theorem HaveTypes.widen (h : Γ.Widens Δ) : {es : List Expr} → {ts : List Ty} → Γ.HaveTypes n es ts → Δ.HaveTypes n es ts
  | _, _, .nil => .nil
  | _, _, .cons he hes => .cons (he.widen h) (hes.widen h)

theorem IsStored.widen (h : Γ.Widens Δ) : {e : Expr} → Γ.IsStored n e → Δ.IsStored n e
  | _, .ident hs hk => .ident (hs.widen h) hk
  | _, .behind hb => .behind (hb.widen h)
  | _, .part hb => .part (hb.widen h)
  | _, .field hb => .field (hb.widen h)

end

mutual

theorem Conforms.widen (h : Γ.Widens Δ) : {e : Expr} → {t : Ty} → Γ.Conforms n e t → Δ.Conforms n e t
  | _, _, .value he => .value (he.widen h)
  | _, _, .array hn hes => .array hn fun e he => (hes e he).widen h
  | _, _, .struct hs hes => .struct (hs.widen h) (hes.widen h)

theorem ConformAll.widen (h : Γ.Widens Δ) : {es : List Expr} → {ts : List Ty} → Γ.ConformAll n es ts → Δ.ConformAll n es ts
  | _, _, .nil => .nil
  | _, _, .cons he hes => .cons (he.widen h) (hes.widen h)

end

theorem IsAssignable.widen (h : Γ.Widens Δ) : (e : Expr) → Γ.IsAssignable n e → Δ.IsAssignable n e
  | .ident _ _ _, he => he.imp fun _ hs => hs.imp_left (Means.widen h)
  | .index b _ _, he => IsAssignable.widen h b he
  | .field b _ _, he => IsAssignable.widen h b he
  | .int .., he | .real .., he | .byte .., he | .call .., he | .composite .., he | .addrOf .., he | .typeArg .., he
  | .foreign _, he => he.elim

end Context

/-! ## Statements -/

namespace Stmt

variable {Γ Δ : Context}

mutual

theorem IsTyped.widen (h : Γ.Widens Δ) {inLoop : Bool} {n : Nat} : (s : Stmt) → s.IsTyped Γ inLoop n → s.IsTyped Δ inLoop n
  | .var _, _ | .label .., _ => trivial
  | .assign target value _, hs => by
    obtain ⟨htarget, t, ht, hvalue⟩ := hs
    exact ⟨htarget.widen h target, t, ht.widen h, hvalue.widen h⟩
  | .call e _, hs => hs.imp_right fun he => he.imp fun _ ht => ht.widen h
  | .ifThen c body _ otherwise _, hs => by
    obtain ⟨hc, hbody, helse⟩ := hs
    exact ⟨hc.widen h, AreTyped.widen h body hbody, ElseTyped.widen h otherwise helse⟩
  | .whileDo c body _ _, hs => hs.imp (Context.HasType.widen h) (AreTyped.widen h body)
  | .breakLoop _, hs | .continueLoop _, hs => hs
  | .goto name _ _, hs => by
    obtain ⟨s, hs, hrest⟩ := hs
    exact ⟨s, h.locals ▸ hs, hrest⟩
  | .block body _, hs => AreTyped.widen h body hs
  | .foreign _, hs => hs.elim

theorem ElseTyped.widen (h : Γ.Widens Δ) {inLoop : Bool} {n : Nat} : (o : Option Stmt) → ElseTyped Γ inLoop n o →
    ElseTyped Δ inLoop n o
  | none, _ => trivial
  | some (.block body _), ho => AreTyped.widen h body ho
  | some (.ifThen c body _ otherwise _), ho => by
    obtain ⟨hc, hbody, helse⟩ := ho
    exact ⟨hc.widen h, AreTyped.widen h body hbody, ElseTyped.widen h otherwise helse⟩
  | some (.var _), ho | some (.assign ..), ho | some (.call ..), ho | some (.whileDo ..), ho | some (.breakLoop _), ho
  | some (.continueLoop _), ho | some (.label ..), ho | some (.goto ..), ho | some (.foreign _), ho => ho.elim

theorem AreTyped.widen (h : Γ.Widens Δ) {inLoop : Bool} {n : Nat} : (ss : List Stmt) → AreTyped Γ inLoop n ss →
    AreTyped Δ inLoop n ss
  | [], _ => trivial
  | s :: ss, hs => hs.imp (IsTyped.widen h s) (AreTyped.widen h ss)

end

/-- What statements declare depends on what is declared before them and on the global symbols that their types name. -/
theorem Declare.widen (h : Γ.Widens Δ) {function : String} {before locals : List Symbol} {n : Nat} {ss : List Stmt}
    (hs : Declare Γ function before n ss locals) : Declare Δ function before n ss locals := by
  induction hs with
  | nil => exact .nil
  | @var before _ _ _ _ _ ht _ ih =>
    have hbefore : Context.Widens { Γ with locals := before } { Δ with locals := before } :=
      ⟨h.builtins, h.structs, rfl, h.globals⟩
    exact .var (ht.widen hbefore) ih
  | label _ ih => exact .label ih
  | other hs _ ih => exact .other hs ih

end Stmt

/-- A function that is typed is typed among more global symbols. -/
theorem FuncDecl.IsTyped.widen {b : Builtins} {c c' : Catalog} (hstructs : c'.structs = c.structs)
    (hglobals : ∀ name s, c.lookupGlobal name = some s → c'.lookupGlobal name = some s) {s : Signature} {d : FuncDecl}
    (h : d.IsTyped b c s) : d.IsTyped b c' s where
  distinct := h.distinct
  body := by
    have hwiden (locals : List Symbol) : Context.Widens ⟨b, c.globals, c.structs, locals⟩ ⟨b, c'.globals, c'.structs, locals⟩ :=
      ⟨rfl, hstructs, rfl, hglobals⟩
    obtain ⟨locals, hdeclare, hbody⟩ := h.body
    exact ⟨locals, hdeclare.widen (hwiden []), Stmt.AreTyped.widen (hwiden locals) d.body hbody⟩

/-! ## Catalogs -/

namespace Catalog

/-- A catalog knows what another one knows, with the same open scope, and perhaps more global symbols. -/
structure Grows (c c' : Catalog) : Prop where
  current : c'.current = c.current
  globals : ∀ name s, c.lookupGlobal name = some s → c'.lookupGlobal name = some s

namespace Grows

variable {c c' : Catalog} (h : c.Grows c')
include h

theorem lookup {name : String} {at? : Option Int} {s : Symbol} (hs : c.lookup name at? = some s) :
    c'.lookup name at? = some s := by
  obtain hsame | ⟨hglobal, hglobal'⟩ := lookup_cases h.current name at?
  · rw [hsame, hs]
  · rw [hglobal', h.globals name s (hglobal ▸ hs)]

theorem namedType {allowVoid : Bool} {name : String} {t : Ty} (ht : c.namedType allowVoid name = .ok t) :
    c'.namedType allowVoid name = .ok t := by
  unfold Catalog.namedType at ht ⊢
  -- The words of types come before all declarations, so only the name of a struct is looked up.
  by_cases hvoid : name = "void"
  · rwa [if_pos hvoid] at ht ⊢
  rw [if_neg hvoid] at ht ⊢
  cases hp : Primitive.ofName? name with
  | some p => rwa [hp] at ht
  | none =>
    simp only [hp] at ht ⊢
    cases hs : c.lookupGlobal name with
    | none =>
      rw [hs] at ht
      cases ht
    | some s =>
      rw [hs] at ht
      rwa [h.globals name s hs]

theorem intConstant? {name : String} {at? : Option Int} {k : Int} (hk : c.intConstant? name at? = some k) :
    c'.intConstant? name at? = some k := by
  obtain ⟨s, hs, -⟩ := intConstant?_eq_some hk
  rw [intConstant?_eq_of_lookup ((h.lookup hs).trans hs.symm), hk]

theorem arraySize {at? : Option Int} {size : ArraySize} {k : Int} (hk : c.arraySize at? size = .ok k) :
    c'.arraySize at? size = .ok k := by
  cases size with
  | int n => exact hk
  | name name =>
    obtain ⟨hconstant, -⟩ := TypeExpr.intConstant?_of_arraySize hk
    rw [TypeExpr.arraySize_congr ((h.intConstant? hconstant).trans hconstant.symm), hk]

end Grows

end Catalog

namespace TypeExpr

variable {c c' : Catalog} {at? : Option Int}

mutual

theorem resolve_grow (h : c.Grows c') : (w : TypeExpr) → {allowVoid : Bool} → {t : Ty} → w.resolve c at? allowVoid = .ok t →
    w.resolve c' at? allowVoid = .ok t
  | .named name span, allowVoid, t, ht => by
    rw [resolve, Except.mapError_eq_ok] at ht ⊢
    exact h.namedType ht
  | .pointer e _, _, _, ht => by
    obtain ⟨t, he, hdone⟩ := Except.bind_eq_ok.mp ht
    exact Except.bind_eq_ok.mpr ⟨t, resolve_grow h e he, hdone⟩
  | .array e size _, _, _, ht => by
    obtain ⟨t, he, ht⟩ := Except.bind_eq_ok.mp ht
    obtain ⟨k, hk, hdone⟩ := Except.bind_eq_ok.mp ht
    rw [Except.mapError_eq_ok] at hk
    exact Except.bind_eq_ok.mpr ⟨t, resolve_grow h e he,
      Except.bind_eq_ok.mpr ⟨k, Except.mapError_eq_ok.mpr (h.arraySize hk), hdone⟩⟩
  | .func r ps _, _, _, ht => by
    obtain ⟨ts, hps, ht⟩ := Except.bind_eq_ok.mp ht
    obtain ⟨t, hr, hdone⟩ := Except.bind_eq_ok.mp ht
    exact Except.bind_eq_ok.mpr ⟨ts, resolveAll_grow h ps hps, Except.bind_eq_ok.mpr ⟨t, resolve_grow h r hr, hdone⟩⟩
  | .foreign _, _, _, ht => nomatch ht

theorem resolveAll_grow (h : c.Grows c') : (ws : List TypeExpr) → {ts : List Ty} → resolveAll c at? ws = .ok ts →
    resolveAll c' at? ws = .ok ts
  | [], _, ht => ht
  | w :: ws, _, ht => by
    obtain ⟨t, hw, ht⟩ := Except.bind_eq_ok.mp ht
    obtain ⟨ts, hws, hdone⟩ := Except.bind_eq_ok.mp ht
    exact Except.bind_eq_ok.mpr ⟨t, resolve_grow h w hw, Except.bind_eq_ok.mpr ⟨ts, resolveAll_grow h ws hws, hdone⟩⟩

end

end TypeExpr

/-- Computations that succeed one by one where others do, and come to the same, do so on a list. -/
theorem Except.mapM_eq_ok_of_imp {ε α β : Type} {f g : α → Except ε β} (h : ∀ a b, f a = .ok b → g a = .ok b)
    {as : List α} {bs : List β} (hf : as.mapM f = .ok bs) : as.mapM g = .ok bs := by
  induction as generalizing bs with
  | nil => exact hf
  | cons a as ih =>
    rw [List.mapM_cons] at hf ⊢
    obtain ⟨b, hb, hf⟩ := Except.bind_eq_ok.mp hf
    obtain ⟨bs', hbs, hdone⟩ := Except.bind_eq_ok.mp hf
    exact Except.bind_eq_ok.mpr ⟨b, h a b hb, Except.bind_eq_ok.mpr ⟨bs', ih hbs, hdone⟩⟩

namespace Catalog.Grows

variable {c c' : Catalog} (h : c.Grows c')
include h

theorem member {m : Member} {t : Ty} (ht : m.resolve c = .ok t) : m.resolve c' = .ok t := by
  obtain ⟨w, hw, ht⟩ := Except.bind_eq_ok.mp ht
  exact Except.bind_eq_ok.mpr ⟨w, hw, w.resolve_grow h ht⟩

theorem field {struct : String} {known : List (String × Ty)} {m : Member} {f : String × Ty}
    (hf : StructDecl.field c struct known m = .ok f) : StructDecl.field c' struct known m = .ok f := by
  obtain ⟨name, hname, hf⟩ := Except.bind_eq_ok.mp hf
  refine Except.bind_eq_ok.mpr ⟨name, hname, ?_⟩
  split at hf
  · cases hf
  · rw [if_neg (by assumption)]
    obtain ⟨t, ht, hdone⟩ := Except.bind_eq_ok.mp hf
    exact Except.bind_eq_ok.mpr ⟨t, h.member ht, hdone⟩

theorem resolveFields {struct : String} {known fields : List (String × Ty)} {ms : List Member}
    (hfields : StructDecl.resolveFields c struct known ms = (fields, none)) :
    StructDecl.resolveFields c' struct known ms = (fields, none) := by
  induction ms generalizing known with
  | nil => exact hfields
  | cons m ms ih =>
    rw [StructDecl.resolveFields] at hfields ⊢
    cases hf : StructDecl.field c struct known m with
    | error halt =>
      rw [hf] at hfields
      cases hfields
    | ok f =>
      rw [hf] at hfields
      rw [h.field hf]
      exact ih hfields

theorem signature {d : FuncDecl} {s : Signature} (hs : d.signature c = .ok s) : d.signature c' = .ok s := by
  obtain ⟨params, hparams, hs⟩ := Except.bind_eq_ok.mp hs
  obtain ⟨result, hresult, hdone⟩ := Except.bind_eq_ok.mp hs
  exact Except.bind_eq_ok.mpr ⟨params, Except.mapM_eq_ok_of_imp (fun _ _ => h.member) hparams,
    Except.bind_eq_ok.mpr ⟨result, d.result.resolve_grow h hresult, hdone⟩⟩

theorem initializer {d : ConstDecl} {i : Initializer} (hi : d.initializer c = .ok i) : d.initializer c' = .ok i := by
  unfold ConstDecl.initializer at hi ⊢
  cases hvalue : d.value with
  | ident name symbol info =>
    rw [hvalue] at hi
    cases hs : c.lookupGlobal name with
    | none =>
      simp only [hs] at hi
      cases hi
    | some s =>
      simp only [hs] at hi
      simp only [h.globals name s hs]
      exact hi
  | _ =>
    rw [hvalue] at hi
    exact hi

/-- A header that is resolved is resolved to the same. -/
theorem header? {d : Decl} {x : String × Ty × Option Signature} (hx : d.header? c = some (.ok x)) :
    d.header? c' = some (.ok x) := by
  cases d with
  | var d =>
    obtain ⟨t, ht, rfl⟩ := Except.map_eq_ok.mp (Option.some.inj hx)
    exact congrArg some (Except.map_eq_ok.mpr ⟨t, d.type.resolve_grow h ht, rfl⟩)
  | func d =>
    obtain ⟨s, hs, rfl⟩ := Except.map_eq_ok.mp (Option.some.inj hx)
    exact congrArg some (Except.map_eq_ok.mpr ⟨s, h.signature hs, rfl⟩)
  | const _ | struct _ | foreign _ => cases hx

end Catalog.Grows

/-- The search for a struct inside itself looks at structs alone. -/
theorem Catalog.cycle?_congr {c c' : Catalog} (h : c'.structs = c.structs) (name : String) : c'.cycle? name = c.cycle? name := by
  have hheld (x : String) : c'.held x = c.held x := by
    rw [held, held, struct?, struct?, h]
  have hfollow (start : String) (seen : List String) (ways : List (String × List String)) :
      c'.follow start seen ways = c.follow start seen ways := by
    induction seen, ways using Catalog.follow.induct c start with
    | case1 seen => rw [follow, follow]
    | case2 seen before ways => rw [follow, follow, if_pos rfl, if_pos rfl]
    | case3 seen x before ways hx hseen ih => rw [follow, follow, if_neg hx, if_neg hx, dif_pos hseen, dif_pos hseen, ih]
    | case4 seen x before ways hx hseen ih =>
      rw [follow, follow, if_neg hx, if_neg hx, dif_neg hseen, dif_neg hseen, hheld, ih]
  rw [cycle?, cycle?, hheld, hfollow]

/-! ## States -/

namespace Progress

/-- A state knows what another one knows, and perhaps more global symbols. -/
structure Grows (p q : Progress) : Prop where
  catalog : p.catalog.Grows q.catalog
  structs : q.catalog.structs = p.catalog.structs
  signature : ∀ name, (q.function? name).map FunctionInfo.signature = (p.function? name).map FunctionInfo.signature
  onCycle : q.onCycle = p.onCycle

variable {p q : Progress}

theorem Grows.bind_signature (h : p.Grows q) (name : String) :
    (q.function? name).bind FunctionInfo.signature = (p.function? name).bind FunctionInfo.signature := by
  have hjoin := congrArg (Option.bind · id) (h.signature name)
  simp only [Option.bind_map] at hjoin
  exact hjoin

theorem Grows.evaluate (h : p.Grows q) (name : String) (i : Initializer) : (p.evaluate name i).Grows (q.evaluate name i) where
  catalog := by
    refine ⟨h.catalog.current, fun x s hs => ?_⟩
    rw [lookupGlobal_evaluate, Option.map_eq_some_iff] at hs ⊢
    obtain ⟨g, hg, hs⟩ := hs
    exact ⟨g, h.catalog.globals x g hg, hs⟩
  structs := h.structs
  signature := h.signature
  onCycle := h.onCycle

theorem Grows.complete (h : p.Grows q) (name : String) (known : List (String × Ty)) :
    (p.complete name known).Grows (q.complete name known) where
  catalog := ⟨h.catalog.current, h.catalog.globals⟩
  structs := congrArg (List.map _) h.structs
  signature := h.signature
  onCycle := h.onCycle

theorem signature_settle (p : Progress) (name : String) (t : Ty) (s : Option Signature) (x : String) :
    ((p.settle name t s).function? x).map FunctionInfo.signature
      = ((p.function? x).map FunctionInfo.signature).map fun known => if x = name then s <|> known else known := by
  rw [function?_settle]
  cases hf : p.function? x with
  | none => rfl
  | some f =>
    obtain rfl : f.name = x := by simpa using List.find?_some hf
    simp only [Option.map_some]
    split <;> rfl

theorem Grows.settle (h : p.Grows q) (name : String) (t : Ty) (s : Option Signature) :
    (p.settle name t s).Grows (q.settle name t s) where
  catalog := by
    refine ⟨h.catalog.current, fun x g hg => ?_⟩
    rw [lookupGlobal_settle, Option.map_eq_some_iff] at hg ⊢
    obtain ⟨g', hg', hg⟩ := hg
    exact ⟨g', h.catalog.globals x g' hg', hg⟩
  structs := h.structs
  signature x := by rw [signature_settle, signature_settle, h.signature]
  onCycle := h.onCycle

theorem map_signature_enter (p : Progress) (name : String) (e : Entered) (x : String) :
    ((p.enter name e).function? x).map FunctionInfo.signature = (p.function? x).map FunctionInfo.signature := by
  rw [function?_enter, Option.map_map]
  congr 1
  funext f
  simp only [Function.comp_apply]
  split <;> rfl

theorem Grows.enter (h : p.Grows q) (name : String) (e e' : Entered) : (p.enter name e).Grows (q.enter name e') where
  catalog := ⟨h.catalog.current, h.catalog.globals⟩
  structs := h.structs
  signature x := by rw [map_signature_enter, map_signature_enter, h.signature]
  onCycle := h.onCycle

/-- A variable that is declared behind everything else takes no name away. -/
theorem grows_declare (p : Progress) (s : Symbol) (d : VarDecl) : p.Grows (p.declare s (.var d)) where
  catalog := by
    refine ⟨rfl, fun x g hg => ?_⟩
    rw [lookupGlobal_declare, hg, Option.some_or]
  structs := List.append_nil _
  signature x := by rw [function?_declare, show (Decl.var d).ownFunctions = [] from rfl, List.find?_nil, Option.or_none]
  onCycle := rfl

/-- A state that knows nothing of a name does not see it get a type. -/
theorem Grows.settle_none (h : p.Grows q) {name : String} (hfree : p.catalog.lookupGlobal name = none) (t : Ty) :
    p.Grows (q.settle name t none) where
  catalog := by
    refine ⟨h.catalog.current, fun x g hg => ?_⟩
    obtain rfl : g.name = x := by simpa using List.find?_some hg
    have hne : g.name ≠ name := fun hname => nomatch (hname ▸ hg).symm.trans hfree
    rw [lookupGlobal_settle, h.catalog.globals g.name g hg, Option.map_some, if_neg hne]
  structs := h.structs
  signature x := by
    rw [signature_settle, ← h.signature x]
    cases (q.function? x).map FunctionInfo.signature with
    | none => rfl
    | some known => exact congrArg some (ite_self known)
  onCycle := h.onCycle

end Progress

/-! ## Steps -/

namespace Step

/-- A step goes through where more is known, as it does where less is. -/
def Grows (step : Step) : Prop :=
  ∀ p q p' d d', p.Grows q → step p d = .ok (p', d', none) →
    ∃ q', step q d = .ok (q', d', none) ∧ p'.Grows q'

theorem grows_constant : Grows constant := by
  intro p q p' d d' h hstep
  cases d with
  | const d =>
    obtain ⟨i, hi, rfl, rfl⟩ := constant_eq_ok.mp hstep
    exact ⟨_, constant_eq_ok.mpr ⟨i, h.catalog.initializer hi, rfl, rfl⟩, h.evaluate d.name i⟩
  | var _ | struct _ | func _ | foreign _ =>
    obtain ⟨rfl, rfl⟩ := (ignores_constant rfl).eq hstep
    exact ⟨q, rfl, h⟩

theorem grows_fields : Grows fields := by
  intro p q p' d d' h hstep
  cases d with
  | struct d =>
    obtain ⟨known, hknown, rfl, rfl⟩ := fields_eq_ok.mp hstep
    exact ⟨_, fields_eq_ok.mpr ⟨known, h.catalog.resolveFields hknown, rfl, rfl⟩, h.complete d.name known⟩
  | const _ | var _ | func _ | foreign _ =>
    obtain ⟨rfl, rfl⟩ := (show Ignores fields _ from fun _ => rfl).eq hstep
    exact ⟨q, rfl, h⟩

theorem grows_containment : Grows containment := by
  intro p q p' d d' h hstep
  obtain ⟨rfl, rfl⟩ := containment_eq hstep
  refine ⟨q, ?_, h⟩
  cases d' with
  | struct d =>
    obtain ⟨hcycle, -, -⟩ := containment_eq_ok.mp hstep
    refine containment_eq_ok.mpr ⟨?_, rfl, rfl⟩
    rwa [h.onCycle, Catalog.cycle?_congr h.structs]
  | const _ | var _ | func _ | foreign _ => rfl

theorem grows_header : Grows header := by
  intro p q p' d d' h hstep
  obtain ⟨hnone, rfl, rfl⟩ | ⟨name, t, s, hsome, rfl, rfl⟩ := header_eq_ok.mp hstep
  · exact ⟨q, ignores_header hnone q, h⟩
  · exact ⟨_, header_eq_ok.mpr (.inr ⟨name, t, s, h.catalog.header? hsome, rfl, rfl⟩), h.settle name t s⟩

/-- A body that is entered without a problem is typed, and so it is among more global symbols. -/
theorem exists_body_grow {b : Builtins} {p q p' : Progress} {d d' : Decl} (h : p.Grows q)
    (hd : ∀ f s, d = .func f → (p.function? f.name).bind FunctionInfo.signature = some s →
      f.IsWellFormed ∧ s.params.length = f.params.length)
    (hstep : body b p d = .ok (p', d', none)) : ∃ q' d'', body b q d = .ok (q', d'', none) ∧ p'.Grows q' := by
  cases d with
  | func f =>
    have hsignature := h.bind_signature f.name
    obtain ⟨hnone, rfl, rfl, -⟩ | ⟨s, f', e, hs, hbody, rfl, rfl, hproblem⟩ := body_eq_ok.mp hstep
    · exact ⟨q, .func f, body_eq_ok.mpr (.inl ⟨hsignature.trans hnone, rfl, rfl, rfl⟩), h⟩
    · obtain ⟨hf, harity⟩ := hd f s rfl hs
      obtain ⟨_, _, hbody', -, htyped⟩ := f.resolveBody_iff hf harity b p.catalog
      obtain ⟨rfl, rfl⟩ := Prod.mk.inj (Except.ok.inj (hbody.symm.trans hbody'))
      obtain ⟨g, e', hg, -, htyped'⟩ := f.resolveBody_iff hf harity b q.catalog
      have hwide := (htyped.mp hproblem.symm).widen h.structs h.catalog.globals
      exact ⟨_, .func g, body_eq_ok.mpr (.inr ⟨s, g, e', hsignature.trans hs, hg, rfl, rfl, (htyped'.mpr hwide).symm⟩),
        h.enter f.name e e'⟩
  | const _ | var _ | struct _ | foreign _ =>
    obtain ⟨rfl, -⟩ := done_eq_ok hstep
    exact ⟨q, _, rfl, h⟩

namespace Passes

variable {step : Step} {p p' q q' : Progress} {ds ds' es es' : List Decl}

/-- A step that goes through goes through where more is known. -/
theorem grow (hstep : step.Grows) (h : p.Grows q) (hp : step.Passes p ds p' ds') :
    ∃ q', step.Passes q ds q' ds' ∧ p'.Grows q' := by
  induction hp generalizing q with
  | nil p => exact ⟨q, .nil q, h⟩
  | cons hone _ ih =>
    obtain ⟨q₁, hq₁, hgrows⟩ := hstep _ _ _ _ _ h hone
    obtain ⟨q', hq', hgrows'⟩ := ih hgrows
    exact ⟨q', .cons hq₁ hq', hgrows'⟩

theorem append (h : step.Passes p ds q ds') (h' : step.Passes q es q' es') : step.Passes p (ds ++ es) q' (ds' ++ es') := by
  induction h with
  | nil p => exact h'
  | cons hone _ ih => exact .cons hone (ih h')

/-- Bodies that are entered without problems are so where more is known. -/
theorem grow_body {b : Builtins} (h : p.Grows q)
    (hds : ∀ f s, .func f ∈ ds → (p.function? f.name).bind FunctionInfo.signature = some s →
      f.IsWellFormed ∧ s.params.length = f.params.length)
    (hp : (body b).Passes p ds p' ds') : ∃ q' es', (body b).Passes q ds q' es' ∧ p'.Grows q' := by
  induction hp generalizing q with
  | nil p => exact ⟨q, [], .nil q, h⟩
  | @cons p p₁ _ d _ ds _ hone _ ih =>
    obtain ⟨q₁, d'', hq₁, hgrows⟩ := exists_body_grow h (fun f s hf => hds f s (hf ▸ List.mem_cons_self)) hone
    have hground := ground_body hone
    obtain ⟨q', es', hq', hgrows'⟩ := ih hgrows fun f s hf hs =>
      hds f s (List.mem_cons_of_mem d hf) ((hground.signature f.name).symm.trans hs)
    exact ⟨q', d'' :: es', .cons hq₁ hq', hgrows'⟩

end Passes

end Step

end FlatScope
