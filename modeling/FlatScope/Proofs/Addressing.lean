/-
  Targets and addresses. What can be assigned to is decided in front of the check, by the symbol at the root; what has an address
  is decided behind it, on the checked tree, where all that is behind a pointer has one. For a name with selectors both come to the
  same, since a constant has a primitive type and nothing can be selected from that (`Context.isAssignable_iff_isStored`). So at
  every statement of a parsed unit a value is taken as a target exactly if it is taken by the address form
  (`Program.target_iff_address`).
-/
import FlatScope.Proofs.Renaming
import FlatScope.Proofs.Scopes.Unit
import FlatScope.Proofs.Totality.Phases

namespace FlatScope

/-- The type of a constant, if it is known, is a primitive one. -/
def Symbol.IsScalar (s : Symbol) : Prop := s.kind = .const → ∀ t, s.ty = some t → t.isPrimitive = true

theorem Symbol.isScalar_of_ne {s : Symbol} (h : s.kind ≠ .const) : s.IsScalar := fun hconst => absurd hconst h

theorem Symbol.Kind.IsValue.const_or_isStorage {kind : Symbol.Kind} (h : kind.IsValue) :
    kind = .const ∨ kind.isStorage = true := by
  obtain rfl | rfl | rfl | rfl := h
  · exact .inl rfl
  · exact .inr rfl
  · exact .inr rfl
  · exact .inr rfl

/-! ## Places -/

namespace Context

variable {Γ : Context} {n : Nat} {name : String} {symbol : Option Symbol} {info : Info} {s : Symbol} {t : Ty}

/-- The function declares no constants, all constants are scalars, and no name is that of a builtin. -/
structure IsRegular (Γ : Context) : Prop where
  locals : ∀ s ∈ Γ.locals, s.kind ≠ .const ∧ IsName s.name
  globals : ∀ name s, Symbol.find? Γ.globals name = some s → s.IsScalar ∧ IsName name

namespace IsRegular

theorem isScalar (h : Γ.IsRegular) (hs : Γ.Means n name s) : s.IsScalar := by
  cases hs with
  | ofLocal hm _ _ => exact Symbol.isScalar_of_ne (h.locals s hm).1
  | ofGlobal _ hg => exact (h.globals name s hg).1

theorem isName (h : Γ.IsRegular) (hs : Γ.Means n name s) : IsName name := by
  cases hs with
  | ofLocal hm hn _ => exact hn ▸ (h.locals s hm).2
  | ofGlobal _ hg => exact (h.globals name s hg).2

theorem not_isBuiltinName (h : Γ.IsRegular) {e : Expr} (he : Γ.HasType n e t) : ¬e.IsBuiltinName := by
  cases he with
  | ident hs _ _ =>
    rw [Expr.IsBuiltinName, (h.isName hs).isBuiltinName_eq_false]
    exact Bool.false_ne_true
  | _ => exact id

end IsRegular

/-- Nothing is selected from a value of a primitive type. -/
theorem HasType.exists_base_of_index {b i : Expr} (h : Γ.HasType n (.index b i info) t) :
    ∃ u, Γ.HasType n b u ∧ u.isPrimitive = false := by
  cases h with
  | ofArray hb _ => exact ⟨_, hb, rfl⟩
  | ofPointer hb _ => exact ⟨_, hb, rfl⟩
  | ofStruct hb _ _ => exact ⟨_, hb, rfl⟩

theorem HasType.exists_base_of_field {b : Expr} {field : String} (h : Γ.HasType n (.field b field info) t) :
    ∃ u, Γ.HasType n b u ∧ u.isPrimitive = false := by
  cases h with
  | field hb _ _ => exact ⟨_, hb, rfl⟩

/-- A value with a name at its root can be assigned to, or it is the name itself and has a primitive type. -/
theorem isAssignable_or_isPrimitive (h : Γ.IsRegular) : (e : Expr) → {t : Ty} → e.root = .ident name symbol info →
    Γ.HasType n e t → Γ.IsAssignable n e ∨ e = .ident name symbol info ∧ t.isPrimitive = true
  | .ident _ _ _, t, hroot, he => by
    cases he with
    | @ident _ _ _ s _ hs hk ht =>
      obtain hconst | hstorage := hk.const_or_isStorage
      · exact .inr ⟨hroot, h.isScalar hs hconst t ht⟩
      · exact .inl ⟨s, hs, hstorage⟩
  | .index b i _, t, hroot, he => by
    obtain ⟨u, hb, hu⟩ := he.exists_base_of_index
    obtain hassignable | ⟨-, hprimitive⟩ := isAssignable_or_isPrimitive h b hroot hb
    · exact .inl hassignable
    · exact absurd (hu.symm.trans hprimitive) Bool.false_ne_true
  | .field b _ _, t, hroot, he => by
    obtain ⟨u, hb, hu⟩ := he.exists_base_of_field
    obtain hassignable | ⟨-, hprimitive⟩ := isAssignable_or_isPrimitive h b hroot hb
    · exact .inl hassignable
    · exact absurd (hu.symm.trans hprimitive) Bool.false_ne_true
  | .int .., _, hroot, _ | .real .., _, hroot, _ | .byte .., _, hroot, _ | .call .., _, hroot, _
  | .composite .., _, hroot, _ | .addrOf .., _, hroot, _ | .typeArg .., _, hroot, _ | .foreign _, _, hroot, _ => nomatch hroot

/-- What can be assigned to is a place in storage. -/
theorem isStored_of_isAssignable : (e : Expr) → Γ.IsAssignable n e → Γ.IsStored n e
  | .ident .., ⟨_, hs, hstorage⟩ => .ident hs hstorage
  | .index b _ _, h => .part (isStored_of_isAssignable b h)
  | .field b _ _, h => .field (isStored_of_isAssignable b h)
  | .int .., h | .real .., h | .byte .., h | .call .., h | .composite .., h | .addrOf .., h | .typeArg .., h
  | .foreign _, h => h.elim

/-- A value with a name at its root can be assigned to exactly if it is a place in storage. -/
theorem isAssignable_iff_isStored (h : Γ.IsRegular) {e : Expr} (hroot : e.root = .ident name symbol info) (he : Γ.HasType n e t) :
    Γ.IsAssignable n e ↔ Γ.IsStored n e := by
  refine ⟨isStored_of_isAssignable e, fun hstored => ?_⟩
  obtain hassignable | ⟨rfl, -⟩ := isAssignable_or_isPrimitive h e hroot he
  · exact hassignable
  · cases hstored with
    | ident hs hstorage => exact ⟨_, hs, hstorage⟩

end Context

/-! ## Targets and addresses at a site -/

namespace Site

variable {site : Site} {e : Expr} {info : Info} {t u : Ty}

/-- Where an expression is a value of a type, it is taken as a target exactly if it is taken by the address form. Then
the target has that type, and the address the type of a pointer to it. -/
structure TakesAlike (site : Site) (e : Expr) (info : Info) (t : Ty) : Prop where
  both : (∃ r, site.checkTarget e = .ok r) ↔ ∃ r, (Expr.addrOf e info).check site none = .ok r
  target : ∀ e' u, site.checkTarget e = .ok (e', u) → u = t ∧ e'.info.ty = some t
  address : ∀ e' u, (Expr.addrOf e info).check site none = .ok (e', u) → u = .pointer t ∧ e'.info.ty = some (.pointer t)

/-- A target is checked as a value. -/
theorem check_of_checkTarget {r : Expr × Ty} (h : site.checkTarget e = .ok r) : e.check site none = .ok r := by
  unfold checkTarget at h
  split at h
  · cases h
  · split at h
    · cases h
    · exact h

/-- The address form gives a pointer to a value that is a place in storage, and takes no other value. -/
theorem hasType_addrOf_iff (h : site.IsDistinct) (hregular : site.context.IsRegular) (he : site.context.HasType site.index e t) :
    site.context.HasType site.index (.addrOf e info) u ↔ u = .pointer t ∧ site.context.IsStored site.index e := by
  constructor
  · intro haddress
    cases haddress with
    | addrFunction hs hk _ =>
      -- The name of a function is no value.
      cases he with
      | ident hs' hvalue _ =>
        rw [← lookup_eq_some_iff h] at hs hs'
        obtain rfl := Option.some.inj (hs.symm.trans hs')
        rw [hk] at hvalue
        obtain hkind | hkind | hkind | hkind := hvalue <;> cases hkind
    | addrPlace _ he' hstored => exact ⟨congrArg Ty.pointer ((e.isDecided h).unique he' he), hstored⟩
  · rintro ⟨rfl, hstored⟩
    exact .addrPlace (hregular.not_isBuiltinName he) he hstored

/-- A value with a name at its root is taken alike as a target and by the address form. -/
theorem takesAlike (h : site.IsDistinct) (hregular : site.context.IsRegular) {name : String} {symbol : Option Symbol} {note : Info}
    (hroot : e.root = .ident name symbol note) {e' : Expr} (he : e.check site none = .ok (e', t)) (info : Info) :
    site.TakesAlike e info t := by
  have hdecided := e.isDecided h
  have haddress := (Expr.addrOf e info).isDecided h
  have htype := hdecided.hasType he
  have hplace := Context.isAssignable_iff_isStored hregular hroot htype
  refine ⟨⟨?_, ?_⟩, fun target u htarget => ?_, fun address u hcheck => ?_⟩
  · rintro ⟨⟨target, u⟩, htarget⟩
    obtain ⟨hassignable, -⟩ := (checkTarget_iff h).mp ⟨target, htarget⟩
    have hpointer : site.context.HasType site.index (.addrOf e info) (.pointer t) :=
      (hasType_addrOf_iff h hregular htype).mpr ⟨rfl, hplace.mp hassignable⟩
    obtain ⟨address, hcheck⟩ := haddress.check_of_hasType none hpointer
    exact ⟨(address, .pointer t), hcheck⟩
  · rintro ⟨⟨address, u⟩, hcheck⟩
    obtain ⟨-, hstored⟩ := (hasType_addrOf_iff h hregular htype).mp (haddress.hasType hcheck)
    obtain ⟨target, htarget⟩ := (checkTarget_iff h).mpr ⟨hplace.mpr hstored, htype⟩
    exact ⟨(target, t), htarget⟩
  · have hcheck := check_of_checkTarget htarget
    obtain ⟨-, hnote, -⟩ := hdecided.sound hcheck
    obtain ⟨-, rfl⟩ := Prod.mk.inj (Except.ok.inj (hcheck.symm.trans he))
    exact ⟨rfl, hnote⟩
  · obtain ⟨-, hnote, -⟩ := haddress.sound hcheck
    obtain ⟨rfl, -⟩ := (hasType_addrOf_iff h hregular htype).mp (haddress.hasType hcheck)
    exact ⟨rfl, hnote⟩

end Site

/-! ## Constants are scalars -/

/-- The global constants are scalars. -/
def Catalog.HasScalars (c : Catalog) : Prop := ∀ name s, c.lookupGlobal name = some s → s.IsScalar

theorem Catalog.HasScalars.of_globals {c c' : Catalog} (h : c.HasScalars) (hglobals : c'.globals = c.globals) : c'.HasScalars := by
  intro name s hs
  rw [lookupGlobal, hglobals] at hs
  exact h name s hs

/-- A constant gets a primitive type, if those it can be initialized with have such types. -/
theorem ConstDecl.isPrimitive_of_initializer {c : Catalog} (h : c.HasScalars) {d : ConstDecl} {i : Initializer}
    (hi : d.initializer c = .ok i) : i.ty.isPrimitive = true := by
  obtain ⟨name, value, span⟩ := d
  rw [initializer] at hi
  cases value with
  | int n info | real x info | byte n info =>
    obtain rfl := Except.ok.inj hi
    rfl
  | ident source symbol info =>
    dsimp only at hi
    split at hi
    · cases hi
    · rename_i s hs
      split at hi
      · cases hi
      · rename_i hkind
        split at hi
        · cases hi
        · rename_i ty hty
          obtain rfl := Except.ok.inj hi
          exact h source s hs (not_not.mp hkind) ty hty
  | index _ _ _ | field _ _ _ | call _ _ _ | composite _ _ | addrOf _ _ | typeArg _ _ | foreign _ => cases hi

namespace Step

variable {p p' : Progress} {d d' : Decl} {problem : Option Problem}

theorem hasScalars_register (h : p.catalog.HasScalars) (hstep : register p d = .ok (p', d', problem)) :
    p'.catalog.HasScalars := by
  obtain ⟨s, hs, -, ⟨previous, -, rfl, -⟩ | ⟨-, rfl, -⟩⟩ := register_eq_ok.mp hstep
  · exact h
  · intro name g hg
    rw [Progress.lookupGlobal_declare, Option.or_eq_some_iff] at hg
    obtain hg | ⟨-, hg⟩ := hg
    · exact h name g hg
    · obtain rfl : s = g := (Option.ite_none_right_eq_some.mp hg).2 |> Option.some.inj
      -- A constant has no type when it is registered.
      cases d with
      | const d =>
        obtain rfl := Except.ok.inj hs
        exact fun _ _ hty => nomatch hty
      | var d | struct d | func d =>
        obtain rfl := Except.ok.inj hs
        exact Symbol.isScalar_of_ne nofun
      | foreign node => cases hs

theorem hasScalars_constant (h : p.catalog.HasScalars) (hstep : constant p d = .ok (p', d', problem)) :
    p'.catalog.HasScalars := by
  cases d with
  | const d =>
    obtain ⟨i, hi, rfl, -⟩ | ⟨rfl, -⟩ := constant_cases hstep
    · intro name g hg
      rw [Progress.lookupGlobal_evaluate, Option.map_eq_some_iff] at hg
      obtain ⟨s, hs, rfl⟩ := hg
      split
      · rintro - t hty
        obtain rfl := Option.some.inj hty
        exact d.isPrimitive_of_initializer h hi
      · exact h name s hs
    · exact h
  | var _ | struct _ | func _ | foreign _ =>
    rw [((ignores_constant rfl).cases hstep).1]
    exact h

theorem hasScalars_header (h : p.catalog.HasScalars) (hd : p.KnowsKind d) (hstep : header p d = .ok (p', d', problem)) :
    p'.catalog.HasScalars := by
  cases hheader : d.header? p.catalog with
  | none =>
    rw [((ignores_header hheader).cases hstep).1]
    exact h
  | some x =>
    obtain ⟨-, ⟨name, t, signature, rfl, rfl, -⟩ | ⟨rfl, -⟩⟩ := header_cases hheader hstep
    · obtain ⟨hname, hconst⟩ := Decl.name?_of_header? hheader
      intro x g hg
      rw [Progress.lookupGlobal_settle, Option.map_eq_some_iff] at hg
      obtain ⟨s, hs, rfl⟩ := hg
      split
      · -- What gets the type is no constant.
        have hx : s.name = x := by simpa using List.find?_some hs
        rename_i hsname
        refine Symbol.isScalar_of_ne fun hkind => ?_
        have hdecl := (hd name s hname (hsname ▸ hx ▸ hs)).mp hkind
        rw [hconst] at hdecl
        cases hdecl
      · exact h x s hs
    · exact h

end Step

theorem Phase.hasScalars_run {phase : Phase} {step : Step}
    (hstep : ∀ p d p' d' problem, p.catalog.HasScalars → step p d = .ok (p', d', problem) → p'.catalog.HasScalars)
    {p p' : Progress} {es es' : List Entry} (hrun : phase.run step p es = .ok (p', es')) (h : p.catalog.HasScalars) :
    p'.catalog.HasScalars := by
  have hkept : p'.catalog.HasScalars ∧ ∀ e ∈ es', True :=
    keeps_run (Q := fun q => q.catalog.HasScalars) (E := fun _ => True) (fun _ _ he => he)
      (fun q d q' d' problem hq he hone => ⟨hstep q d q' d' problem hq hone, he⟩) hrun h fun _ _ => trivial
  exact hkept.1

namespace Program

variable {b : Builtins} {p : Program} {p₁ p₂ p₃ p₄ p₅ p₆ : Progress} {es₁ es₂ es₃ es₄ es₅ es₆ : List Entry}

/-- The constants of a unit are scalars when it is resolved. -/
theorem Runs.hasScalars (h : p.Runs b p₁ p₂ p₃ p₄ p₅ p₆ es₁ es₂ es₃ es₄ es₅ es₆) : p₆.catalog.HasScalars := by
  have hempty : Catalog.HasScalars {} := fun _ _ hs => nomatch hs
  have h₁ := Phase.hasScalars_run (fun _ _ _ _ _ => Step.hasScalars_register) h.registration hempty
  have h₂ := Phase.hasScalars_run (fun _ _ _ _ _ => Step.hasScalars_constant) h.constants h₁
  have h₃ := Phase.hasScalars_run (fun _ _ _ _ _ hp hone => hp.of_globals (Step.globals_fields hone)) h.fields h₂
  have h₄ := Phase.hasScalars_run (fun _ _ _ _ _ hp hone => hp.of_globals (Step.globals_containment hone)) h.containment h₃
  -- The kinds of the declarations ahead are known in front of the headers, and the headers keep them.
  have hknown : ∀ e ∈ es₄, e.failure = none → p₄.KnowsKind e.decl := fun e he => h.accounts_containment.knowsKind he
  have h₅ : (p₅.catalog.HasScalars ∧ p₄.SameKinds p₅) ∧ ∀ e ∈ es₅, True := by
    refine Phase.keeps_run (Q := fun q => q.catalog.HasScalars ∧ p₄.SameKinds q)
      (E := fun e => e.failure = none → p₄.KnowsKind e.decl) (fun _ _ _ => trivial) ?_ h.headers ⟨h₄, fun _ => rfl⟩ hknown
    intro q d q' d' problem hq hd hone
    have hd := (hd rfl).congr hq.2
    obtain ⟨hkinds, -⟩ := Step.agreesOnTypes_header hd hone
    exact ⟨⟨Step.hasScalars_header hq.1 hd hone, fun name => (hkinds name).trans (hq.2 name)⟩, trivial⟩
  exact Phase.hasScalars_run (fun _ _ _ _ _ hp hone => hp.of_globals (Step.globals_body hone)) h.bodies h₅.1.1

/-- A global symbol has the name of a declaration. -/
theorem Runs.isName_of_lookupGlobal (h : p.Runs b p₁ p₂ p₃ p₄ p₅ p₆ es₁ es₂ es₃ es₄ es₅ es₆) (hp : p.IsWellFormed) {name : String}
    {s : Symbol} (hs : p₆.catalog.lookupGlobal name = some s) : IsName name := by
  have hglobal : s.name = name := by simpa using List.find?_some hs
  obtain ⟨e, he, -, hname⟩ := h.accounts.names.registered s.name (List.mem_map_of_mem (List.mem_of_find?_eq_some hs))
  have hdecl := h.isAccounted.names ▸ List.mem_map_of_mem (f := fun e : Entry => e.decl.name?) he
  obtain ⟨d, hd, hdname⟩ := List.mem_map.mp hdecl
  have hwf := hp d hd
  rw [hname, hglobal] at hdname
  cases d with
  | const d | var d | struct d | func d =>
    obtain rfl := Option.some.inj hdname
    exact hwf.1
  | foreign node => cases hdname

end Program

/-! ## Names that a function declares -/

namespace FuncDecl

variable {c : Catalog} {s : Signature} {d : FuncDecl} {scope : LocalScope}

/-- A well-formed function declares names only. -/
theorem isName_of_mem_localNames (h : d.IsWellFormed) {name : String} (hname : name ∈ d.localNames s) : IsName name := by
  rw [localNames, List.mem_append, List.mem_append] at hname
  obtain (hname | hname) | hname := hname
  · split at hname
    · cases hname
    · obtain rfl := List.mem_singleton.mp hname
      exact ⟨rfl, rfl⟩
  · obtain ⟨m, hm, hname⟩ := List.mem_filterMap.mp hname
    obtain ⟨param, rfl, hparam⟩ := h.2.2.1 m hm
    obtain rfl := Option.some.inj hname
    exact hparam.1
  · obtain ⟨stmt, hstmt, hname⟩ := List.mem_filterMap.mp hname
    have hwf := Stmt.isWellFormed_of_mem_flattenAll d.body h.2.2.2.1 stmt hstmt
    cases stmt with
    | var v =>
      obtain rfl := Option.some.inj hname
      exact hwf.1
    | label _ _ _ =>
      obtain rfl := Option.some.inj hname
      exact hwf
    | _ => cases hname

/-- The scope of a function has the names that the function declares. -/
theorem Collects.names_eq (h : d.Collects c s scope) (hd : d.IsWellFormed) (hs : s.params.length = d.params.length) :
    scope.names = d.localNames s := by
  obtain ⟨hdeclare, -⟩ := h.declare hd hs []
  have hnames := ((hdeclare _).mpr rfl).names
  have hhead : (d.headLocals s).map Symbol.name = (d.headRows s).map Prod.fst := by
    rw [← map_row_headLocals hd hs, List.map_map]
    rfl
  rw [hhead, map_fst_headRows] at hnames
  exact hnames

end FuncDecl

/-! ## Units -/

/-- Where the statement with number `n` is checked in a function with a scope. -/
def Resolution.site (r : Resolution) (b : Builtins) (scope : LocalScope) (n : Nat) : Site :=
  Surroundings.site ⟨b, r.catalog.within scope, scope.function⟩ n

/-- At every statement of a function that has read its declarations, a value that is a name with selectors behind it is taken
alike as a target and by the address form. -/
def Resolution.TakesAlike (b : Builtins) (p : Program) (r : Resolution) : Prop :=
  ∀ f ∈ r.functions, ∀ e, f.entered = some e → ∃ d d' s, r.HasCollected b p f e d d' s
    ∧ ∀ scope, d.Collects r.catalog s scope → ∀ n value name symbol note value' t,
      value.root = .ident name symbol note → value.check (r.site b scope n) none = .ok (value', t) →
        ∀ info, (r.site b scope n).TakesAlike value info t

/-- Targets and addresses in a parsed unit. Wherever the declarations of a function are read without a halt, so that its statements
are checked, a value that is a name with selectors behind it is taken as the target of an assignment exactly if it is taken by the
address form in the same statement; and then the target has the type of the value, and the address that of a pointer to it. -/
theorem Program.target_iff_address {source : String} {file : Option String} {p : Program} (h : ofSource source file = .ok p)
    (b : Builtins) : ∃ r, p.resolve b = .ok r ∧ r.TakesAlike b p := by
  have hp := isWellFormed_of_ofSource h
  obtain ⟨r, -, hr, -⟩ := exists_resolve hp b
  refine ⟨r, hr, fun f hf e he => ?_⟩
  obtain ⟨d, d', s, hfunction⟩ := exists_hasCollected hp hr hf he
  refine ⟨d, d', s, hfunction, fun scope hcollects n value name symbol note value' t hroot hvalue info => ?_⟩
  obtain ⟨-, hnodup, -⟩ := hcollects.declare hfunction.wellFormed hfunction.arity b
  have hdistinct : (r.site b scope n).IsDistinct := hnodup
  have hnames := hcollects.names_eq hfunction.wellFormed hfunction.arity
  obtain ⟨p₁, p₂, p₃, p₄, p₅, p₆, es₁, es₂, es₃, es₄, es₅, es₆, hruns, rfl⟩ := exists_runs hr
  have hregular : (Resolution.site ⟨es₆, p.file, p₆.catalog, p₆.functions⟩ b scope n).context.IsRegular := by
    refine ⟨fun x hx => ⟨hcollects.isOwn x hx, ?_⟩, fun x g hg => ⟨hruns.hasScalars x g hg, hruns.isName_of_lookupGlobal hp hg⟩⟩
    have hmem : x.name ∈ scope.names := List.mem_map_of_mem hx
    exact FuncDecl.isName_of_mem_localNames hfunction.wellFormed (hnames ▸ hmem)
  exact Site.takesAlike hdistinct hregular hroot hvalue info

/-- The types that expressions have in the first statements of the functions of a source whose structs hold no structs: as values,
as targets, and as operands of the address form. -/
def takenOf (source : String) (values : List Expr) : Option (List (List (Option Ty × Option Ty × Option Ty))) := do
  let p ← (Program.ofSource source).toOption
  let r ← p.resolveFlat.toOption
  let typeOf (checked : Checked Expr (Expr × Ty)) : Option Ty := checked.toOption.map Prod.snd
  return r.catalog.finished.map fun scope =>
    let site := r.site Builtins.standard scope 0
    values.map fun e => (typeOf (e.check site none), typeOf (site.checkTarget e), typeOf ((Expr.addrOf e {}).check site none))

/-- A function that sees constants, places and pointers. -/
def placesAround : String :=
  "struct s [var next s*, var x int[2]] const k 3 const j k var g s fun f int(var a s*) \x7b result := a[0][x][k] \x7d"

/-- The expressions `result`, `a[0][x][j]`, `g[next][k]`, `j` and `j[0]`. -/
def placesThere : List Expr :=
  let zero : Expr := .int 0 {}
  let ident (name : String) : Expr := .ident name none {}
  let select (e i : Expr) : Expr := .index e i {}
  [ident "result", select (select (select (ident "a") zero) (ident "x")) (ident "j"),
    select (select (ident "g") (ident "next")) (ident "k"), ident "j", select (ident "j") zero]

theorem Program.target_iff_address_places :
    ∃ p r, ofSource placesAround = .ok p ∧ p.resolve = .ok r ∧ r.problems = []
      ∧ takenOf placesAround placesThere = some [[(some .int, some .int, some (.pointer .int)),
        (some .int, some .int, some (.pointer .int)), (some (.struct "s"), some (.struct "s"), some (.pointer (.struct "s"))),
        (some .int, none, none), (none, none, none)]]
      ∧ r.TakesAlike Builtins.standard p := by
  have hkinds : problemKindsOf placesAround = some [] := Program.bind_ofSource (by decide +kernel)
  obtain ⟨p, r, hp, hr, hkinds⟩ := exists_of_problemKindsOf hkinds
  obtain ⟨r', hr', halike⟩ := target_iff_address hp Builtins.standard
  obtain rfl := Except.ok.inj (hr.symm.trans hr')
  exact ⟨p, r, hp, hr, List.map_eq_nil_iff.mp hkinds, Program.bind_ofSource (by decide +kernel), halike⟩

end FlatScope
