/-
  One more variable in a unit. A unit without problems goes on to have none if a variable with a new name is declared in it
  anywhere by the text of a type over its structs, and the variable has that type (`Program.resolve_declared`). So a text
  stands for one type at most, and where a problem tells two types apart its message shows two texts
  (`Program.resolve_declaring`).
-/
import FlatScope.Proofs.Accounting.Headers
import FlatScope.Proofs.Accounting.Unit
import FlatScope.Proofs.Concatenation.Unit
import FlatScope.Proofs.Notes.Unit
import FlatScope.Proofs.Spelling.Growing
import FlatScope.Proofs.Spelling.Type

namespace FlatScope

/-! ## Names -/

theorem Catalog.HasStructs.grow {structs : List String} {c c' : Catalog} (h : c.HasStructs structs)
    (hglobals : ∀ name s, c.lookupGlobal name = some s → c'.lookupGlobal name = some s) : c'.HasStructs structs := by
  intro name hname
  obtain ⟨hisName, s, hs, hkind⟩ := h name hname
  exact ⟨hisName, s, hglobals name s hs, hkind⟩

/-- The name of a well-formed declaration is one. -/
theorem Decl.isName_of_isWellFormed {d : Decl} (h : d.IsWellFormed) {name : String} (hname : d.name? = some name) :
    IsName name := by
  cases d with
  | const d | var d | struct d | func d =>
    obtain rfl := Option.some.inj hname
    exact h.1
  | foreign node => cases hname

namespace Program

variable {b : Builtins} {p : Program} {p₁ p₂ p₃ p₄ p₅ p₆ : Progress} {es₁ es₂ es₃ es₄ es₅ es₆ : List Entry}

/-- Behind the registration all names are there. -/
theorem Runs.sameNames (h : p.Runs b p₁ p₂ p₃ p₄ p₅ p₆ es₁ es₂ es₃ es₄ es₅ es₆) : p₁.SameNames p₆ :=
  (Phase.names_run Step.isLocal_constant h.constants).trans <|
    (Phase.names_run Step.isLocal_fields h.fields).trans <|
      (Phase.names_run Step.isLocal_containment h.containment).trans <|
        (Phase.names_run Step.isLocal_header h.headers).trans (Phase.names_run (Step.isLocal_body b) h.bodies)

/-- The structs of a unit have names, and these are known for those of structs. -/
theorem Runs.hasStructs (h : p.Runs b p₁ p₂ p₃ p₄ p₅ p₆ es₁ es₂ es₃ es₄ es₅ es₆) (hp : p.IsWellFormed) :
    p₆.catalog.HasStructs p₆.catalog.structNames := by
  obtain ⟨hnames, -, hstages⟩ := h.accounts
  intro name hname
  obtain ⟨i, hi, rfl⟩ := List.mem_map.mp hname
  obtain ⟨e, he, hr, hname⟩ := hnames.registered i.name (hnames.structs.mem hname)
  have hdecl : some i.name ∈ p.decls.map Decl.name? := by
    rw [← h.names_headers.2, ← Phase.map_name_run (Step.isLocal_body b).name h.bodies, ← hname]
    exact List.mem_map_of_mem he
  obtain ⟨d, hd, hdname⟩ := List.mem_map.mp hdecl
  have hstruct : (p₆.record i.name).struct = some i :=
    (find?_key_eq_some_iff (hnames.structs.nodup hnames.nodup)).mpr ⟨hi, rfl⟩
  exact ⟨Decl.isName_of_isWellFormed (hp d hd) hdname, (hstages e he hr i.name hname).kind_of_struct hstruct⟩

end Program

/-! ## Units without problems -/

/-- What the phases leave behind, one after another, when all of them pass through the declarations of a unit. -/
structure Program.Passes (b : Builtins) (p : Program) (p₁ p₂ p₃ p₄ p₅ p₆ : Progress) (ds₁ ds₂ ds₃ ds₄ ds₅ ds₆ : List Decl) :
    Prop where
  registration : Step.register.Passes {} p.decls p₁ ds₁
  constants : Step.constant.Passes p₁ ds₁ p₂ ds₂
  fields : Step.fields.Passes p₂ ds₂ p₃ ds₃
  containment : Step.containment.Passes p₃ ds₃ p₄ ds₄
  headers : Step.header.Passes p₄ ds₄ p₅ ds₅
  bodies : (Step.body b).Passes p₅ ds₅ p₆ ds₆

namespace Program

variable {b : Builtins} {p : Program} {r : Resolution}

theorem exists_passes (hr : p.resolve b = .ok r) (hnone : r.problems = []) : ∃ p₁ p₂ p₃ p₄ p₅ p₆ ds₁ ds₂ ds₃ ds₄ ds₅ ds₆,
    p.Passes b p₁ p₂ p₃ p₄ p₅ p₆ ds₁ ds₂ ds₃ ds₄ ds₅ ds₆ ∧ r = ⟨ds₆.map Entry.fresh, p.file, p₆.catalog, p₆.functions⟩ := by
  obtain ⟨p₆, ds₆, hpass, rfl⟩ := pass_of_resolve hr hnone
  obtain _ | ⟨h₁, hpass⟩ := hpass
  obtain _ | ⟨h₂, hpass⟩ := hpass
  obtain _ | ⟨h₃, hpass⟩ := hpass
  obtain _ | ⟨h₄, hpass⟩ := hpass
  obtain _ | ⟨h₅, hpass⟩ := hpass
  obtain _ | ⟨h₆, hpass⟩ := hpass
  cases hpass
  exact ⟨_, _, _, _, _, _, _, _, _, _, _, _, ⟨h₁, h₂, h₃, h₄, h₅, h₆⟩, rfl⟩

namespace Passes

variable {p₁ p₂ p₃ p₄ p₅ p₆ : Progress} {ds₁ ds₂ ds₃ ds₄ ds₅ ds₆ : List Decl}
variable (h : p.Passes b p₁ p₂ p₃ p₄ p₅ p₆ ds₁ ds₂ ds₃ ds₄ ds₅ ds₆)
include h

theorem runs : p.Runs b p₁ p₂ p₃ p₄ p₅ p₆ (ds₁.map Entry.fresh) (ds₂.map Entry.fresh) (ds₃.map Entry.fresh)
    (ds₄.map Entry.fresh) (ds₅.map Entry.fresh) (ds₆.map Entry.fresh) where
  registration := Phase.run_of_passes h.registration
  constants := Phase.run_of_passes h.constants
  fields := Phase.run_of_passes h.fields
  containment := Phase.run_of_passes h.containment
  headers := Phase.run_of_passes h.headers
  bodies := Phase.run_of_passes h.bodies

/-- In front of the bodies a function with a signature is well formed and has as many parameters as are written. -/
theorem arity (hp : p.IsWellFormed) (f : FuncDecl) (s : Signature) (hf : .func f ∈ ds₅)
    (hs : (p₅.function? f.name).bind FunctionInfo.signature = some s) : f.IsWellFormed ∧ s.params.length = f.params.length := by
  obtain ⟨ds, hheading⟩ := h.runs.heading hp
  have hknown := hheading.known (.fresh (.func f)) (List.mem_append_left _ (List.mem_map_of_mem hf)) rfl
  obtain ⟨i, hi, harity⟩ := hheading.heads f (hknown.2 f rfl)
  rw [hi, Option.bind_some] at hs
  exact ⟨hknown.1, (harity s hs).1⟩

/-- A variable is known for one, with the type that is written. -/
theorem exists_symbol {d : VarDecl} (hd : .var d ∈ ds₅) : ∃ s t, p₆.catalog.lookupGlobal d.name = some s ∧ s.kind = .var
    ∧ s.ty = some t ∧ d.type.resolve p₆.catalog none false = .ok t := by
  obtain ⟨i, hi, hget⟩ := List.getElem_of_mem (List.mem_map_of_mem (f := Entry.fresh) hd)
  have hentry : (ds₅.map Entry.fresh)[i]? = some ⟨.var d, none⟩ := List.getElem?_eq_some_iff.mpr ⟨hi, hget⟩
  obtain ⟨name, t, _, ht, hname, hty, -⟩ := h.runs.header hentry rfl
  obtain ⟨t', ht', hx⟩ := Except.map_eq_ok.mp ht
  obtain ⟨rfl, rfl, -⟩ : d.name = name ∧ t' = t ∧ _ := by simpa using hx
  obtain ⟨s, hrecord, hkind, -⟩ := h.runs.accounts_headers.stages _ (List.mem_of_getElem? hentry) (.of_eq_none rfl) d.name rfl
  have hs : p₅.catalog.lookupGlobal d.name = some s := congrArg Record.global hrecord
  have hagrees := (Phase.ground_run h.runs.bodies).agrees
  exact ⟨s, t', (hagrees.globals d.name).trans hs, hkind, hty s hs, (hagrees.onTypes.resolve none false d.type).trans ht'⟩

/-- All phases pass through the declarations with one more behind them, that of a variable whose type is one over the structs
of the unit, and in the end more is known than without it. -/
theorem declared (hp : p.IsWellFormed) {t : Ty} (ht : t.IsWellFormed p₆.catalog.structNames) {v : String}
    (hfree : p₆.catalog.lookupGlobal v = none) : ∃ q₁ q₂ q₃ q₄ q₅ q₆ es₆,
      Program.Passes b { p with decls := p.decls ++ [.var (t.declared v)] } q₁ q₂ q₃ q₄ q₅ q₆ (ds₁ ++ [.var (t.declared v)])
        (ds₂ ++ [.var (t.declared v)]) (ds₃ ++ [.var (t.declared v)]) (ds₄ ++ [.var (t.declared v)])
        (ds₅ ++ [.var (t.declared v)]) es₆ ∧ p₆.Grows q₆ := by
  let s : Symbol := { name := v, kind := .var, level := .global }
  have hagrees := (Phase.ground_run h.runs.bodies).agrees
  have hfree₁ : p₁.catalog.lookupGlobal v = none := by
    rw [Catalog.lookupGlobal_eq_none_iff, ← h.runs.sameNames.globals]
    exact Catalog.lookupGlobal_eq_none_iff.mp hfree
  have hfree₅ : p₅.catalog.lookupGlobal v = none := (hagrees.globals v).symm.trans hfree
  -- The variable is registered, passed over until the headers, and gets its type there.
  obtain ⟨q₂, h₂, hgrows₂⟩ := h.constants.grow Step.grows_constant (p₁.grows_declare s (t.declared v))
  obtain ⟨q₃, h₃, hgrows₃⟩ := h.fields.grow Step.grows_fields hgrows₂
  obtain ⟨q₄, h₄, hgrows₄⟩ := h.containment.grow Step.grows_containment hgrows₃
  obtain ⟨q₅, h₅, hgrows₅⟩ := h.headers.grow Step.grows_header hgrows₄
  have hstructs : q₅.catalog.HasStructs p₆.catalog.structNames := (h.runs.hasStructs hp).grow fun name g hg =>
    hgrows₅.catalog.globals name g ((hagrees.globals name).symm.trans hg)
  have hheader : (Decl.var (t.declared v)).header? q₅.catalog = some (.ok (v, t, none)) :=
    congrArg some (Except.map_eq_ok.mpr ⟨t, t.resolve_written hstructs none false (.inl ht), rfl⟩)
  obtain ⟨q₆, es₆, h₆, hgrows₆⟩ := h.bodies.grow_body (hgrows₅.settle_none hfree₅ t) (h.arity hp)
  exact ⟨_, q₂, q₃, q₄, _, q₆, _, {
    registration := h.registration.append (.cons (Step.register_of_none (s := s) rfl hfree₁) (.nil _))
    constants := h₂.append (.cons rfl (.nil q₂))
    fields := h₃.append (.cons rfl (.nil q₃))
    containment := h₄.append (.cons rfl (.nil q₄))
    headers := h₅.append (.cons (Step.header_eq_ok.mpr (.inr ⟨v, t, none, hheader, rfl, rfl⟩)) (.nil _))
    bodies := h₆.append (.cons rfl (.nil q₆)) }, hgrows₆⟩

end Passes

variable {q : Program} {t : Ty} {v : String}

/-- A unit without problems has none with one more variable in some place, whose type is one over the structs of the unit, and
the variable has that type. -/
theorem resolve_declared (hp : p.IsWellFormed) (hr : p.resolve b = .ok r) (hnone : r.problems = [])
    (ht : t.IsWellFormed r.catalog.structNames) (hfree : r.catalog.lookupGlobal v = none) {front back : List Decl}
    (hdecls : p.decls = front ++ back) (hq : q.decls = front ++ .var (t.declared v) :: back) :
    ∃ r' s, q.resolve b = .ok r' ∧ r'.problems = [] ∧ r'.catalog.lookupGlobal v = some s ∧ s.kind = .var ∧ s.ty = some t := by
  obtain ⟨p₁, p₂, p₃, p₄, p₅, p₆, ds₁, ds₂, ds₃, ds₄, ds₅, ds₆, hpasses, rfl⟩ := exists_passes hr hnone
  obtain ⟨q₁, q₂, q₃, q₄, q₅, q₆, es₆, hpasses', hgrows⟩ := hpasses.declared hp ht hfree
  obtain ⟨s, u, hs, hkind, hty, hu⟩ := hpasses'.exists_symbol (List.mem_append_right ds₅ List.mem_cons_self)
  have hstructs := (hpasses.runs.hasStructs hp).grow hgrows.catalog.globals
  obtain rfl := Except.ok.inj (hu.symm.trans (t.resolve_written hstructs none false (.inl ht)))
  -- The variable may stand in any place, since it is no constant.
  have hperm : (p.decls ++ [Decl.var (u.declared v)]).Perm q.decls := by
    rw [hdecls, hq, List.append_assoc]
    exact List.perm_append_comm.append_left front
  have hnotConst (ds : List Decl) : (Decl.var (u.declared v) :: ds).filter Decl.isConst = ds.filter Decl.isConst :=
    List.filter_cons_of_neg (Bool.eq_false_iff.mp rfl)
  have hconst : (p.decls ++ [Decl.var (u.declared v)]).filter Decl.isConst = q.decls.filter Decl.isConst := by
    rw [hdecls, hq, List.filter_append, List.filter_append, List.filter_append, hnotConst, hnotConst, List.filter_nil,
      List.append_nil]
  obtain ⟨r', hr', hnone', hsame⟩ := resolve_of_reorders (q := q) hpasses'.runs.resolve
    (Resolution.problems_eq_nil_iff.mpr (List.forall_mem_map.mpr fun _ _ => rfl)) (.of_perm hperm hconst)
  exact ⟨r', s, hr', hnone', (hsame.globals v).trans hs, hkind, hty⟩

end Program

/-! ## Texts -/

/-- A variable that is declared by the text of a type is declared by the type, up to places. -/
theorem VarDecl.strip_of_source {structs : List String} (hnames : ∀ name ∈ structs, IsName name) {t : Ty}
    (ht : t.IsWellFormed structs) {v : String} (hv : IsName v) {d : VarDecl} (hd : d.IsWellFormed)
    (hsource : d.source = "var " ++ v ++ " " ++ t.text) : d.strip = (t.declared v).strip := by
  have hwritten : (t.declared v).IsWellFormed := ⟨hv, Ty.isWellFormed_written hnames t (.inl ht)⟩
  obtain ⟨q, e, hq, he, hename, hetype⟩ := VarDecl.exists_ofSource hd none
  obtain ⟨q', e', hq', he', hename', hetype'⟩ := VarDecl.exists_ofSource hwritten none
  rw [Ty.source_declared, ← hsource, hq] at hq'
  obtain rfl := Except.ok.inj hq'
  obtain rfl := Decl.var.inj (List.cons.inj (he.symm.trans he')).1
  rw [strip, strip, ← hename, ← hetype, ← hename', ← hetype']

namespace Program

variable {b : Builtins} {p q : Program} {r : Resolution} {source source' : String} {file file' : Option String} {t : Ty}
  {v : String}

/-- A unit is another one with one more variable in some place, which a text declares. -/
def Declares (p q : Program) (text : String) : Prop :=
  ∃ front d back, p.bare.decls = front ++ back ∧ q.bare.decls = front ++ .var d :: back ∧ VarDecl.source d = text

/-- The text behind a source, in a line of its own, declares a variable. -/
theorem exists_declares (h : ofSource source file = .ok p) {d : VarDecl} (hd : d.IsWellFormed) :
    ∃ q, ofSource (source ++ "\n" ++ d.source) file = .ok q ∧ p.Declares q d.source := by
  obtain ⟨q, e, hq, he, hname, htype⟩ := VarDecl.exists_ofSource hd file
  obtain ⟨happend, hbare⟩ := ofSource_append h hq
  have hstrip : e.strip = d.strip := by rw [VarDecl.strip, VarDecl.strip, hname, htype]
  refine ⟨_, happend, p.bare.decls, e.strip, [], (List.append_nil _).symm, ?_, ?_⟩
  · rw [he] at hbare ⊢
    rw [bare, strip, List.map_append, List.map_map]
    exact congrArg (_ ++ ·) hbare
  · rw [hstrip, VarDecl.source_strip]

/-- What a unit that is parsed has one more variable in is, up to places, what the type in the text is a declaration of. -/
theorem exists_decls_of_declares (hp : ofSource source file = .ok p) (hq : ofSource source' file' = .ok q)
    {structs : List String} (hnames : ∀ name ∈ structs, IsName name) (ht : t.IsWellFormed structs) (hv : IsName v)
    (h : p.Declares q ("var " ++ v ++ " " ++ t.text)) : ∃ front back, p.decls = front ++ back
      ∧ q.strip true = Program.strip true { p with decls := front ++ .var (t.declared v) :: back } := by
  obtain ⟨front, d, back, hpdecls, hqdecls, hsource⟩ := h
  obtain ⟨front', back', hdecls, rfl, rfl⟩ := List.map_eq_append_iff.mp hpdecls
  have hmem : Decl.var d ∈ q.bare.decls := hqdecls ▸ List.mem_append_right _ List.mem_cons_self
  obtain ⟨e, he, hed⟩ := List.mem_map.mp hmem
  refine ⟨front', back', hdecls, ?_⟩
  have hd : d = (t.declared v).strip := by
    cases e with
    | var e =>
      obtain rfl := Decl.var.inj hed
      exact VarDecl.strip_of_source hnames ht hv (isWellFormed_of_ofSource hq _ he) (e.source_strip.symm.trans hsource)
    | const _ | struct _ | func _ | foreign _ => cases hed
  have hblank : ∀ x ∈ p.decls, x.strip true = x.bare := List.map_inj_left.mp (congrArg decls (strip_of_ofSource hp))
  rw [strip_of_ofSource hq, bare, strip, strip, Program.mk.injEq]
  refine ⟨?_, rfl⟩
  rw [hdecls, List.forall_mem_append] at hblank
  rw [List.map_append, List.map_cons, List.map_congr_left hblank.1, List.map_congr_left hblank.2]
  exact hqdecls.trans (by rw [hd]; rfl)

/-- A unit that is the same but for its places has no problems either, and global names stand for the same but for theirs. -/
theorem resolve_of_strip (h : q.strip true = p.strip true) (hr : p.resolve b = .ok r) (hnone : r.problems = []) :
    ∃ r', q.resolve b = .ok r' ∧ r'.problems = []
      ∧ ∀ name, (r'.catalog.lookupGlobal name).map Symbol.unplaced = (r.catalog.lookupGlobal name).map Symbol.unplaced := by
  obtain ⟨r', hr', hsame⟩ := resolve_unplaced h hr
  have hproblems : r'.problems.map (Problem.relabel .unplacing) = r.problems.map (Problem.relabel .unplacing) := by
    rw [← r'.problems_relabel, hsame, ← r.problems_relabel]
    rfl
  rw [hnone, List.map_nil, List.map_eq_nil_iff] at hproblems
  refine ⟨r', hr', hproblems, fun name => ?_⟩
  have hcatalog : r'.catalog.relabel .unplacing = r.catalog.relabel .unplacing := congrArg Resolution.catalog hsame
  have hglobals (c : Catalog) := (c.mirrors_relabel (φ := .unplacing)).globals name
  rw [show Symbol.unplaced = Symbol.relabel .unplacing from (funext Symbol.relabel_unplacing).symm, ← hglobals, hcatalog,
    hglobals]

/-- A unit without problems has none where the text of a type over its structs declares one more variable, which has that
type. -/
theorem resolve_of_declares (hp : ofSource source file = .ok p) (hq : ofSource source' file' = .ok q)
    (hr : p.resolve b = .ok r) (hnone : r.problems = []) (ht : t.IsWellFormed r.catalog.structNames) (hv : IsName v)
    (hfree : r.catalog.lookupGlobal v = none) (h : p.Declares q ("var " ++ v ++ " " ++ t.text)) :
    ∃ r' s, q.resolve b = .ok r' ∧ r'.problems = [] ∧ r'.catalog.lookupGlobal v = some s ∧ s.kind = .var ∧ s.ty = some t := by
  obtain ⟨p₁, p₂, p₃, p₄, p₅, p₆, es₁, es₂, es₃, es₄, es₅, es₆, hruns, rfl⟩ := exists_runs hr
  have hwf := isWellFormed_of_ofSource hp
  obtain ⟨front, back, hdecls, hstrip⟩ := exists_decls_of_declares hp hq (hruns.hasStructs hwf).isName ht hv h
  obtain ⟨r', s, hr', hnone', hs, hkind, hty⟩ :=
    resolve_declared (q := { p with decls := front ++ .var (t.declared v) :: back }) hwf hr hnone ht hfree hdecls rfl
  obtain ⟨r'', hr'', hnone'', hsame⟩ := resolve_of_strip hstrip hr' hnone'
  have hsymbol := hsame v
  rw [hs, Option.map_some, Option.map_eq_some_iff] at hsymbol
  obtain ⟨s', hs', heq⟩ := hsymbol
  exact ⟨r'', s', hr'', hnone'', hs', (congrArg Symbol.kind heq).trans hkind, (congrArg Symbol.ty heq).trans hty⟩

end Program

/-! ## Types that are told apart -/

/-- The message of a cause shows the texts of two types, one in front of the other. -/
def Problem.Cause.Shows (cause : Problem.Cause) (t u : Ty) : Prop :=
  ∃ before between behind, cause.message = before ++ t.text ++ between ++ u.text ++ behind

/-- The message of a cause that tells two types apart shows both. -/
theorem Problem.Cause.shows_of_mismatch {cause : Problem.Cause} {t u : Ty} (h : cause.mismatch? = some (t, u)) :
    cause.Shows t u ∨ cause.Shows u t := by
  cases cause with
  | indexNotInt ty =>
    obtain ⟨rfl, rfl⟩ := Prod.mk.inj (Option.some.inj h)
    exact .inl ⟨"index must be ", ", got ", "", String.append_empty.symm⟩
  | conditionType ty =>
    obtain ⟨rfl, rfl⟩ := Prod.mk.inj (Option.some.inj h)
    exact .inl ⟨"condition must be ", ", got ", "", String.append_empty.symm⟩
  | argumentType callee position expected actual =>
    obtain ⟨rfl, rfl⟩ := Prod.mk.inj (Option.some.inj h)
    exact .inl ⟨_, ", got ", "", String.append_empty.symm⟩
  | elementType position ty expected actual =>
    obtain ⟨rfl, rfl⟩ := Prod.mk.inj (Option.some.inj h)
    exact .inl ⟨_, ", got ", "", String.append_empty.symm⟩
  | assignedType value target =>
    obtain ⟨rfl, rfl⟩ := Prod.mk.inj (Option.some.inj h)
    exact .inr ⟨"cannot assign a value of type ", " to a target of type ", "", String.append_empty.symm⟩
  | _ => cases h

namespace Program

variable {b : Builtins} {p : Program} {p₁ p₂ p₃ p₄ p₅ p₆ : Progress} {es₁ es₂ es₃ es₄ es₅ es₆ : List Entry}

/-- The types that a problem tells apart are over the structs of the unit, or `void`, and they are different. -/
theorem Runs.mismatch (h : p.Runs b p₁ p₂ p₃ p₄ p₅ p₆ es₁ es₂ es₃ es₄ es₅ es₆) (hp : p.IsWellFormed)
    (hblank : ∀ d ∈ p.decls, d.IsBlank) (hb : ∀ structs, b.AreSound (Ty.IsWellFormed structs)) {e : Entry} (he : e ∈ es₆)
    {phase : Phase} {problem : Problem} (hfailure : e.failure = some (phase, problem)) {t u : Ty}
    (hmismatch : problem.cause.mismatch? = some (t, u)) : t ≠ u ∧ (t.IsWellFormed p₆.catalog.structNames ∨ t = .void)
      ∧ (u.IsWellFormed p₆.catalog.structNames ∨ u = .void) := by
  obtain ⟨-, hes⟩ := h.holds hp hblank (Ty.isClosed_isWellFormed _) (fun _ ht => ht) (hb p₅.catalog.structNames)
  obtain ⟨finished, hcatalog⟩ := (Phase.ground_run h.bodies).catalog
  rw [hcatalog]
  obtain hplain | ⟨-, hnone⟩ := (hes e he).plain (phase, problem) hfailure
  · exact hplain.differ t u hmismatch
  · cases hnone.symm.trans hmismatch

/-- Texts of types are sources, each of one type. A parsed unit is resolved, and if it has no problems, then by the text of every
type over its structs a variable with a new name can be declared, in a line behind the source, and wherever it is declared so,
the unit has no problems and the variable has that type. So two types over the structs of the unit with the same text are the
same. And where a problem of the unit tells two types apart its message shows two texts: the builtins are to take and give types
that values can have, as the standard ones do. -/
theorem resolve_declaring {source : String} {file : Option String} (h : ofSource source file = .ok p) (b : Builtins) :
    ∃ r, p.resolve b = .ok r
      ∧ (r.problems = [] → ∀ t : Ty, t.IsWellFormed r.catalog.structNames → ∀ v, IsName v → r.catalog.lookupGlobal v = none →
        (∃ q, ofSource (source ++ "\n" ++ ("var " ++ v ++ " " ++ t.text)) file = .ok q
          ∧ p.Declares q ("var " ++ v ++ " " ++ t.text))
        ∧ ∀ source' file' q, ofSource source' file' = .ok q → p.Declares q ("var " ++ v ++ " " ++ t.text) →
          ∃ r' s, q.resolve b = .ok r' ∧ r'.problems = [] ∧ r'.catalog.lookupGlobal v = some s ∧ s.kind = .var ∧ s.ty = some t)
      ∧ (∀ t u : Ty, t.IsWellFormed r.catalog.structNames → u.IsWellFormed r.catalog.structNames → t.text = u.text → t = u)
      ∧ ((∀ structs, b.AreSound (Ty.IsWellFormed structs)) → ∀ problem ∈ r.problems, ∀ t u,
        problem.cause.mismatch? = some (t, u) → t.text ≠ u.text ∧ (problem.cause.Shows t u ∨ problem.cause.Shows u t)) := by
  have hp := isWellFormed_of_ofSource h
  obtain ⟨r, -, hr, -⟩ := exists_resolve hp b
  obtain ⟨p₁, p₂, p₃, p₄, p₅, p₆, es₁, es₂, es₃, es₄, es₅, es₆, hruns, rfl⟩ := exists_runs hr
  have hnames := (hruns.hasStructs hp).isName
  refine ⟨_, hr, fun hnone t ht v hv hfree => ⟨?_, fun source' file' q hq hdeclares => ?_⟩, fun t u ht hu => ?_, ?_⟩
  · rw [← Ty.source_declared]
    exact exists_declares h ⟨hv, Ty.isWellFormed_written hnames t (.inl ht)⟩
  · exact resolve_of_declares h hq hr hnone ht hv hfree hdeclares
  · exact Ty.eq_of_text_eq hnames (.inl ht) (.inl hu)
  · intro hb problem hproblem t u hmismatch
    obtain ⟨e, he, hfailed⟩ := List.mem_filterMap.mp ((Resolution.problems_perm _).mem_iff.mp hproblem)
    obtain ⟨⟨phase, problem⟩, hfailure, rfl⟩ := Option.map_eq_some_iff.mp hfailed
    have hblank : ∀ d ∈ p.decls, d.IsBlank := fun d hd =>
      Decl.isBlank_of_strip (List.map_inj_left.mp (congrArg decls (strip_of_ofSource h)) d hd)
    obtain ⟨hne, ht, hu⟩ := hruns.mismatch hp hblank hb he hfailure hmismatch
    exact ⟨fun htext => hne (Ty.eq_of_text_eq hnames ht hu htext), Problem.Cause.shows_of_mismatch hmismatch⟩

/-- A struct, and a function whose parameter has a name that no declaration has. -/
def itemSource : String := "struct item [var next item*] fun f void(var v int) \x7b \x7d"

/-- A pointer to functions of structs and functions, which give lists. -/
def nestedType : Ty := .pointer (.func [.struct "item", .func [] .void] (.array (.pointer (.struct "item")) 2))

/-- An assignment of a pointer to one of another type. -/
def pointerSource : String := "fun f void(var a int*, var b int**) \x7b a := b \x7d"

/-- A variable of a nested type, with the name of a parameter, and two pointers that a problem tells apart. -/
theorem resolve_declaring_nested :
    (∃ p r q r' s, ofSource itemSource = .ok p ∧ p.resolve = .ok r ∧ r.problems = []
      ∧ nestedType.text = "item*[2](item, void()*)**"
      ∧ ofSource (itemSource ++ "\n" ++ ("var " ++ "v" ++ " " ++ nestedType.text)) = .ok q ∧ q.resolve = .ok r'
      ∧ r'.problems = [] ∧ r'.catalog.lookupGlobal "v" = some s ∧ s.kind = .var ∧ s.ty = some nestedType)
    ∧ ∃ p r problem, ofSource pointerSource = .ok p ∧ p.resolve = .ok r ∧ r.problems = [problem]
      ∧ problem.cause.mismatch? = some (.pointer .int, .pointer (.pointer .int))
      ∧ (Ty.pointer .int).text ≠ (Ty.pointer (.pointer .int)).text := by
  constructor
  · have hparts : (do
        let p ← (ofSource itemSource).toOption
        let r ← p.resolveFlat.toOption
        return (r.problems.map fun q => q.cause.kind, r.catalog.structNames, (r.catalog.lookupGlobal "v").isNone))
        = some ([], ["item"], true) := bind_ofSource (by decide +kernel)
    obtain ⟨p, r, hp, hr, hparts⟩ := exists_of_resolveFlat hparts
    obtain ⟨hproblems, hparts⟩ := Prod.mk.inj hparts
    obtain ⟨hstructs, hfree⟩ := Prod.mk.inj hparts
    have hnone : r.problems = [] := List.map_eq_nil_iff.mp hproblems
    have hitem : "item" ∈ r.catalog.structNames := hstructs ▸ List.mem_cons_self
    have htype : nestedType.IsWellFormed r.catalog.structNames :=
      ⟨⟨hitem, ⟨trivial, .inl rfl⟩, trivial⟩, .inr ⟨by decide, hitem⟩⟩
    obtain ⟨_, hr', hdeclares, -⟩ := resolve_declaring hp Builtins.standard
    obtain rfl := Except.ok.inj (hr.symm.trans hr')
    obtain ⟨⟨q, hq, hadds⟩, hkeeps⟩ := hdeclares hnone nestedType htype "v" ⟨rfl, rfl⟩ (Option.isNone_iff_eq_none.mp hfree)
    obtain ⟨r', s, hr', hrest⟩ := hkeeps _ _ q hq hadds
    exact ⟨p, r, q, r', s, hp, hr, hnone, rfl, hq, hr', hrest⟩
  · have htypes : (do
        let p ← (ofSource pointerSource).toOption
        let r ← p.resolveFlat.toOption
        return r.problems.map fun q => q.cause.mismatch?) = some [some (.pointer .int, .pointer (.pointer .int))] :=
      bind_ofSource (by decide +kernel)
    obtain ⟨p, r, hp, hr, htypes⟩ := exists_of_resolveFlat htypes
    obtain ⟨problem, hproblems, hmismatch⟩ := List.map_eq_singleton_iff.mp htypes
    obtain ⟨_, hr', -, -, hdiffer⟩ := resolve_declaring hp Builtins.standard
    obtain rfl := Except.ok.inj (hr.symm.trans hr')
    have htexts := hdiffer (fun _ => Builtins.areSound_standard (Ty.isClosed_isWellFormed _)) problem
      (hproblems ▸ List.mem_cons_self) _ _ hmismatch
    exact ⟨p, r, problem, hp, hr, hproblems, hmismatch, htexts.1⟩

end Program

end FlatScope
