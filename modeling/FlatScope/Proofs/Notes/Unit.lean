/-
  The types in a resolved unit. What the phases build up has types that values can have, in every phase and whatever fails
  (`Progress.IsSound`, `Phase.keeps_run`): structs are registered before any of them is named in a type, constants and headers
  are resolved in front of the bodies, and the bodies are entered without notes. So nothing in a resolved unit has a type that
  is not well formed, and `void` is the type of calls only; in a unit without problems it is the type of calls that are
  statements (`Program.resolve_typed`).
-/
import FlatScope.Proofs.Accounting.Names
import FlatScope.Proofs.Notes.Stmt
import FlatScope.Proofs.Reprinting

namespace FlatScope

/-! ## Runs -/

/-- What a step keeps of what is built up, and makes of each declaration, a run of the phase keeps and makes of all of them. -/
theorem Phase.keeps_run {phase : Phase} {step : Step} {Q : Progress → Prop} {E E' : Entry → Prop}
    (hfailed : ∀ e : Entry, e.failure.isSome = true → E e → E' e)
    (hstep : ∀ p d p' d' problem, Q p → E ⟨d, none⟩ → step p d = .ok (p', d', problem) →
      Q p' ∧ E' ⟨d', problem.map (phase, ·)⟩)
    {p p' : Progress} {es es' : List Entry} (hrun : phase.run step p es = .ok (p', es')) (hp : Q p) (hes : ∀ e ∈ es, E e) :
    Q p' ∧ ∀ e ∈ es', E' e := by
  induction es generalizing p es' with
  | nil =>
    obtain ⟨rfl, rfl⟩ := Prod.mk.inj (Except.ok.inj hrun)
    exact ⟨hp, List.forall_mem_nil _⟩
  | cons e es ih =>
    obtain ⟨he, hrestE⟩ := List.forall_mem_cons.mp hes
    obtain ⟨d, failure⟩ := e
    cases failure with
    | some failure =>
      obtain ⟨rest, hrest, rfl⟩ := (run_failed_eq_ok phase rfl).mp hrun
      obtain ⟨hp', hrest⟩ := ih hrest hp hrestE
      exact ⟨hp', List.forall_mem_cons.mpr ⟨hfailed _ rfl he, hrest⟩⟩
    | none =>
      obtain ⟨q, d', problem, rest, hone, hrest, rfl⟩ := (run_cons_eq_ok phase).mp hrun
      obtain ⟨hq, he'⟩ := hstep p d q d' problem hp he hone
      obtain ⟨hp', hrest⟩ := ih hrest hq hrestE
      exact ⟨hp', List.forall_mem_cons.mpr ⟨he', hrest⟩⟩

/-! ## What is built up -/

namespace Catalog

variable {c : Catalog}

theorem structNames_modifyStruct {f : StructInfo → StructInfo} (hf : ∀ i, (f i).name = i.name) (name : String) :
    (c.modifyStruct name f).structNames = c.structNames := Progress.map_name_ite StructInfo.name hf c.structs name

/-- More about a global symbol: its type. -/
theorem IsSound.modifyGlobal (h : c.IsSound) (name : String) {f : Symbol → Symbol} (hname : ∀ s, (f s).name = s.name)
    (hkind : ∀ s, (f s).kind = s.kind) (hf : ∀ s, (f s).IsSound (Ty.IsWellFormed c.structNames)) : (c.modifyGlobal name f).IsSound where
  structs x s hs hstruct := by
    rw [lookupGlobal_modifyGlobal hname, Option.map_eq_some_iff] at hs
    obtain ⟨s, hs, rfl⟩ := hs
    refine h.structs x s hs ?_
    split at hstruct
    · rwa [hkind] at hstruct
    · exact hstruct
  globals := List.forall_mem_map.mpr fun s hs => by
    split
    · exact hf s
    · exact h.globals s hs
  fields := h.fields

/-- More about a struct: its fields, and whether these are all. -/
theorem IsSound.modifyStruct (h : c.IsSound) (name : String) {f : StructInfo → StructInfo} (hname : ∀ i, (f i).name = i.name)
    (hf : ∀ i ∈ c.structs, ∀ x ∈ (f i).fields, x.2.IsWellFormed c.structNames) : (c.modifyStruct name f).IsSound where
  structs x s hs hstruct := by
    rw [structNames_modifyStruct hname]
    exact h.structs x s hs hstruct
  globals := by
    rw [structNames_modifyStruct hname]
    exact h.globals
  fields := by
    rw [structNames_modifyStruct hname]
    refine List.forall_mem_map.mpr fun i hi => ?_
    split
    · exact hf i hi
    · exact h.fields i hi

end Catalog

/-- All symbols, fields and signatures that are known have types that values can have. -/
structure Progress.IsSound (p : Progress) : Prop where
  catalog : p.catalog.IsSound
  scopes : ∀ scope ∈ p.catalog.finished, scope.IsSound (Ty.IsWellFormed p.catalog.structNames)
  signatures : ∀ f ∈ p.functions, ∀ s, f.signature = some s → s.ty.IsWellFormed p.catalog.structNames

/-- No body has been entered. -/
def Progress.IsWaiting (p : Progress) : Prop := ∀ f ∈ p.functions, f.entered = none

/-- A declaration, if it failed, failed at a plain cause, unless it is a struct inside itself. -/
def Entry.IsPlain (V : Ty → Prop) (e : Entry) : Prop :=
  ∀ f, e.failure = some f → f.2.cause.IsPlain V ∨ f.1 = .containment ∧ f.2.cause.mismatch? = none

/-- The notes of a well-formed declaration are sound whatever the structs are, with none in a body. -/
structure Decl.IsReady (structs : List String) (d : Decl) : Prop where
  wellFormed : d.IsWellFormed
  func : ∀ f, d = .func f → d.IsBlank
  notes : ∀ infos, ∀ x ∈ d.parts, x.IsSound (Ty.IsWellFormed structs) infos

theorem Decl.IsBlank.isReady {d : Decl} (h : d.IsBlank) (hd : d.IsWellFormed) (structs : List String) : d.IsReady structs where
  wellFormed := hd
  func _ _ := h
  notes _ x hx := (h x hx).isSound

theorem Halt.isPlain_of_report {V : Ty → Prop} {halt : Halt} {q : Problem} (h : halt.IsPlain V) (hq : halt.report = .ok q) :
    q.cause.IsPlain V := by
  cases halt with
  | problem p =>
    obtain rfl := Except.ok.inj hq
    exact h
  | misplaced m => cases hq

namespace Entry

variable {V V' : Ty → Prop}

theorem isPlain_none (d : Decl) : Entry.IsPlain V ⟨d, none⟩ := fun _ hf => (nomatch hf)

theorem isPlain_some (d : Decl) (phase : Phase) {q : Problem} (hq : q.cause.IsPlain V) : Entry.IsPlain V ⟨d, some (phase, q)⟩ := by
  intro f hf
  obtain rfl := Option.some.inj hf
  exact .inl hq

theorem IsPlain.mono {e : Entry} (h : e.IsPlain V) (hV : ∀ t, V t → V' t) : e.IsPlain V' :=
  fun f hf => (h f hf).imp_left fun hplain => hplain.mono hV

end Entry

/-! ## The phases in front of the bodies -/

namespace Progress

variable {p : Progress}

theorem isSound_empty : IsSound {} where
  catalog := ⟨fun _ _ h => (nomatch h), List.forall_mem_nil _, List.forall_mem_nil _⟩
  scopes := List.forall_mem_nil _
  signatures := List.forall_mem_nil _

/-- A declaration under a name that is free. -/
theorem IsSound.declare (h : p.IsSound) {s : Symbol} {d : Decl} (hs : Step.symbol d = .ok s) : (p.declare s d).IsSound := by
  have hsub : p.catalog.structNames ⊆ (p.declare s d).catalog.structNames := by
    rw [Catalog.structNames, Catalog.structNames, Progress.declare, List.map_append]
    exact List.subset_append_left _ _
  have hown : s.kind = .struct → s.name ∈ (p.declare s d).catalog.structNames := by
    intro hkind
    rw [Catalog.structNames, Progress.declare, List.map_append]
    refine List.mem_append_right _ ?_
    cases d with
    | struct d =>
      obtain rfl := Except.ok.inj hs
      exact List.mem_singleton_self _
    | const _ | var _ | func _ =>
      obtain rfl := Except.ok.inj hs
      cases hkind
    | foreign _ => cases hs
  have hsymbol : s.IsSound (Ty.IsWellFormed (p.declare s d).catalog.structNames) := by
    intro t ht
    cases d with
    | struct d =>
      obtain rfl := Except.ok.inj hs
      obtain rfl := Option.some.inj ht
      exact hown rfl
    | const _ | var _ | func _ =>
      obtain rfl := Except.ok.inj hs
      cases ht
    | foreign _ => cases hs
  refine ⟨⟨fun name t ht hkind => ?_, ?_, ?_⟩, fun scope hscope t ht => (h.scopes scope hscope t ht).mono (Ty.IsWellFormed.mono hsub), ?_⟩
  · rw [lookupGlobal_declare, Option.or_eq_some_iff] at ht
    obtain ht | ⟨-, ht⟩ := ht
    · exact hsub (h.catalog.structs name t ht hkind)
    · split at ht
      · rename_i hname
        obtain rfl := Option.some.inj ht
        exact hname ▸ hown hkind
      · cases ht
  · exact List.forall_mem_append.mpr
      ⟨fun t ht => (h.catalog.globals t ht).mono (Ty.IsWellFormed.mono hsub), List.forall_mem_singleton.mpr hsymbol⟩
  · refine List.forall_mem_append.mpr ⟨fun i hi f hf => Ty.IsWellFormed.mono hsub _ (h.catalog.fields i hi f hf), ?_⟩
    cases d with
    | struct d => exact List.forall_mem_singleton.mpr (List.forall_mem_nil _)
    | const _ | var _ | func _ | foreign _ => exact List.forall_mem_nil _
  · refine List.forall_mem_append.mpr ⟨fun f hf t ht => Ty.IsWellFormed.mono hsub _ (h.signatures f hf t ht), ?_⟩
    cases d with
    | func d => exact List.forall_mem_singleton.mpr (by rintro _ ⟨⟩)
    | const _ | var _ | struct _ | foreign _ => exact List.forall_mem_nil _

theorem IsWaiting.declare (h : p.IsWaiting) (s : Symbol) (d : Decl) : (p.declare s d).IsWaiting := by
  refine List.forall_mem_append.mpr ⟨h, ?_⟩
  cases d with
  | func d => exact List.forall_mem_singleton.mpr rfl
  | const _ | var _ | struct _ | foreign _ => exact List.forall_mem_nil _

theorem IsSound.modifyGlobal (h : p.IsSound) (name : String) {f : Symbol → Symbol} (hname : ∀ s, (f s).name = s.name)
    (hkind : ∀ s, (f s).kind = s.kind) (hf : ∀ s, (f s).IsSound (Ty.IsWellFormed p.catalog.structNames)) :
    (p.modifyCatalog fun c => c.modifyGlobal name f).IsSound where
  catalog := h.catalog.modifyGlobal name hname hkind hf
  scopes := h.scopes
  signatures := h.signatures

theorem IsSound.modifyStruct (h : p.IsSound) (name : String) {f : StructInfo → StructInfo} (hname : ∀ i, (f i).name = i.name)
    (hf : ∀ i ∈ p.catalog.structs, ∀ x ∈ (f i).fields, x.2.IsWellFormed p.catalog.structNames) :
    (p.modifyCatalog fun c => c.modifyStruct name f).IsSound := by
  have hnames := Catalog.structNames_modifyStruct (c := p.catalog) hname name
  refine ⟨h.catalog.modifyStruct name hname hf, ?_, ?_⟩
  · intro scope hscope
    rw [modifyCatalog, hnames]
    exact h.scopes scope hscope
  · intro i hi s hs
    rw [modifyCatalog, hnames]
    exact h.signatures i hi s hs

end Progress

namespace Step

/-- What holds in front of the bodies: all that is known is sound, no body has been entered, and the structs are those with
the given names. -/
structure Holds (structs : List String) (p : Progress) : Prop where
  sound : p.IsSound
  waiting : p.IsWaiting
  names : p.catalog.structNames = structs

/-- What holds of a declaration in front of the bodies. -/
structure HoldsOf (structs : List String) (e : Entry) : Prop where
  ready : e.decl.IsReady structs
  plain : e.IsPlain (Ty.IsWellFormed structs)

variable {p p' : Progress} {d d' : Decl} {problem : Option Problem} {structs : List String}

theorem holds_register {V : Ty → Prop} (hp : p.IsSound ∧ p.IsWaiting) (hd : d.IsBlank ∧ d.IsWellFormed)
    (h : register p d = .ok (p', d', problem)) : (p'.IsSound ∧ p'.IsWaiting)
      ∧ (d'.IsBlank ∧ d'.IsWellFormed) ∧ Entry.IsPlain V ⟨d', problem.map (.registration, ·)⟩ := by
  obtain ⟨s, hs, rfl, ⟨previous, -, rfl, rfl⟩ | ⟨-, rfl, rfl⟩⟩ := register_eq_ok.mp h
  · exact ⟨hp, hd, Entry.isPlain_some _ _ (.of_kind rfl rfl)⟩
  · exact ⟨⟨hp.1.declare hs, hp.2.declare s d'⟩, hd, Entry.isPlain_none _⟩

/-- A step that has nothing to do with a declaration. -/
theorem holds_ignores {step : Step} {phase : Phase} (hp : Holds structs p) (hd : d.IsReady structs) (hstep : step.Ignores d)
    (h : step p d = .ok (p', d', problem)) : Holds structs p' ∧ HoldsOf structs ⟨d', problem.map (phase, ·)⟩ := by
  obtain ⟨rfl, rfl, rfl⟩ := hstep.cases h
  exact ⟨hp, hd, Entry.isPlain_none _⟩

/-- A step that halts. -/
theorem holds_halted {phase : Phase} (hp : Holds structs p) (hd : d.IsReady structs) {halt : Halt}
    (hhalt : halt.IsPlain (Ty.IsWellFormed structs)) (h : halted p d halt = .ok (p', d', problem)) : Holds structs p' ∧ HoldsOf structs ⟨d', problem.map (phase, ·)⟩ := by
  obtain ⟨rfl, rfl, q, hq, rfl⟩ := halted_eq_ok.mp h
  exact ⟨hp, hd, Entry.isPlain_some _ _ (Halt.isPlain_of_report hhalt hq)⟩

theorem holds_constant (hp : Holds structs p) (hd : d.IsReady structs) (h : constant p d = .ok (p', d', problem)) :
    Holds structs p' ∧ HoldsOf structs ⟨d', problem.map (.constants, ·)⟩ := by
  cases d with
  | const d =>
    have hinitializer := d.meets_initializer (Ty.isClosed_isWellFormed _) fun name s hs =>
      hp.sound.catalog.globals s (List.mem_of_find?_eq_some hs)
    rw [constant] at h
    cases hi : d.initializer p.catalog with
    | error halt =>
      rw [hi] at h
      exact holds_halted hp hd (hp.names ▸ hinitializer.of_error hi) h
    | ok i =>
      rw [hi] at h
      obtain ⟨rfl, rfl, rfl⟩ := done_eq_ok h
      obtain ⟨hty, hnotes⟩ := hinitializer.of_ok hi
      refine ⟨⟨hp.sound.modifyGlobal d.name (fun _ => rfl) (fun _ => rfl) fun s => noted_of_value hty, hp.waiting, hp.names⟩,
        ⟨ConstDecl.isWellFormed_of_initializer hd.wellFormed hi, by rintro _ ⟨⟩, ?_⟩, Entry.isPlain_none _⟩
      exact hp.names ▸ hnotes
  | var _ | struct _ | func _ | foreign _ => exact holds_ignores hp hd (ignores_constant rfl) h

theorem holds_fields (hp : Holds structs p) (hd : d.IsReady structs) (h : fields p d = .ok (p', d', problem)) :
    Holds structs p' ∧ HoldsOf structs ⟨d', problem.map (.fields, ·)⟩ := by
  cases d with
  | struct d =>
    obtain ⟨hknown, hhalt⟩ := StructDecl.isWellFormed_of_resolveFields hp.sound.catalog.structs d.name d.fields []
      (List.forall_mem_nil _)
    rw [fields] at h
    generalize StructDecl.resolveFields p.catalog d.name [] d.fields = r at hknown hhalt h
    obtain ⟨known, halt⟩ := r
    have hrevise (i : StructInfo) : { i with fields := known, isComplete := halt.isNone }.name = i.name := rfl
    have hq : Holds structs
        (p.modifyCatalog fun c => c.modifyStruct d.name fun i => { i with fields := known, isComplete := halt.isNone }) :=
      ⟨hp.sound.modifyStruct d.name hrevise fun _ _ => hknown, hp.waiting,
        (Catalog.structNames_modifyStruct hrevise d.name).trans hp.names⟩
    cases halt with
    | none =>
      obtain ⟨rfl, rfl, rfl⟩ := done_eq_ok h
      exact ⟨hq, hd, Entry.isPlain_none _⟩
    | some halt => exact holds_halted hq hd (hhalt halt rfl) h
  | const _ | var _ | func _ | foreign _ => exact holds_ignores hp hd (fun _ => rfl) h

theorem holds_containment (hp : Holds structs p) (hd : d.IsReady structs) (h : containment p d = .ok (p', d', problem)) :
    Holds structs p' ∧ HoldsOf structs ⟨d', problem.map (.containment, ·)⟩ := by
  cases d with
  | struct d =>
    obtain ⟨rfl, ⟨rfl, rfl⟩ | ⟨cycle, rfl, rfl⟩⟩ := containment_cases h
    · exact ⟨hp, hd, Entry.isPlain_none _⟩
    · have hrevise (i : StructInfo) : { i with isComplete := false }.name = i.name := rfl
      have hq := hp.sound.modifyStruct d.name hrevise fun i hi => hp.sound.catalog.fields i hi
      refine ⟨⟨⟨hq.catalog, hq.scopes, hq.signatures⟩, hp.waiting,
        (Catalog.structNames_modifyStruct hrevise d.name).trans hp.names⟩, hd, fun f hf => ?_⟩
      obtain rfl := Option.some.inj hf
      exact .inr ⟨rfl, rfl⟩
  | const _ | var _ | func _ | foreign _ => exact holds_ignores hp hd (fun _ => rfl) h

theorem holds_header (hp : Holds structs p) (hd : d.IsReady structs) (h : header p d = .ok (p', d', problem)) :
    Holds structs p' ∧ HoldsOf structs ⟨d', problem.map (.headers, ·)⟩ := by
  cases d with
  | var d =>
    have htype := d.type.meets_resolve_value (V := Ty.IsWellFormed structs) hp.sound.catalog.structs none
    rw [header] at h
    cases ht : d.type.resolve p.catalog none false with
    | error halt =>
      rw [ht] at h
      exact holds_halted hp hd (htype.of_error ht) h
    | ok t =>
      rw [ht] at h
      obtain ⟨rfl, rfl, rfl⟩ := done_eq_ok h
      exact ⟨⟨hp.sound.modifyGlobal d.name (fun _ => rfl) (fun _ => rfl) fun _ => noted_of_value (htype.of_ok ht), hp.waiting,
        hp.names⟩, hd, Entry.isPlain_none _⟩
  | func d =>
    have hsignature := d.meets_signature (V := Ty.IsWellFormed structs) hp.sound.catalog.structs
    rw [header] at h
    cases hs : d.signature p.catalog with
    | error halt =>
      rw [hs] at h
      exact holds_halted hp hd (hsignature.of_error hs) h
    | ok signature =>
      rw [hs] at h
      obtain ⟨rfl, rfl, rfl⟩ := done_eq_ok h
      have hwf := hsignature.of_ok hs
      have hq := hp.sound.modifyGlobal d.name (f := fun s => { s with ty := some signature.ty }) (fun _ => rfl) (fun _ => rfl)
        fun _ => noted_of_value hwf
      refine ⟨⟨⟨hq.catalog, hq.scopes, List.forall_mem_map.mpr fun f hf s hs => ?_⟩, ?_, hp.names⟩, hd, Entry.isPlain_none _⟩
      · split at hs
        · obtain rfl := Option.some.inj hs
          exact hwf
        · exact hp.sound.signatures f hf s hs
      · refine List.forall_mem_map.mpr fun f hf => ?_
        split
        · exact hp.waiting f hf
        · exact hp.waiting f hf
  | const _ | struct _ | foreign _ => exact holds_ignores hp hd (fun _ => rfl) h

end Step

/-! ## The bodies -/

theorem Catalog.mem_finish {finished : List LocalScope} {scope s : LocalScope} (h : s ∈ finish finished scope) :
    s = scope ∨ s ∈ finished := by
  unfold finish at h
  split at h
  · obtain ⟨t, ht, rfl⟩ := List.mem_map.mp h
    split
    · exact .inl rfl
    · exact .inr ht
  · obtain h | h := List.mem_append.mp h
    · exact .inr h
    · exact .inl (List.mem_singleton.mp h)

/-- What has been left behind by a body is sound. -/
structure Entered.IsSound (V : Ty → Prop) (infos : List StructInfo) (e : Entered) : Prop where
  scope : e.scope.IsSound (Ty.IsWellFormed (infos.map StructInfo.name))
  notes : ∀ s ∈ e.statements, s.IsNoted V infos

theorem Progress.IsSound.enter {p : Progress} (h : p.IsSound) (name : String) {e : Entered}
    (he : e.scope.IsSound (Ty.IsWellFormed p.catalog.structNames)) : (p.enter name e).IsSound where
  catalog := ⟨h.catalog.structs, h.catalog.globals, h.catalog.fields⟩
  scopes scope hscope := by
    obtain rfl | hscope := Catalog.mem_finish hscope
    · exact he
    · exact h.scopes scope hscope
  signatures := List.forall_mem_map.mpr fun f hf s hs => by
    split at hs
    · exact h.signatures f hf s hs
    · exact h.signatures f hf s hs

namespace Step

/-- What holds among the bodies: all that is known is sound, the structs and the signatures are the given ones, and the bodies
that have been entered have left sound scopes and notes behind. -/
structure HoldsBehind (V : Ty → Prop) (infos : List StructInfo) (signature? : String → Option Signature) (p : Progress) : Prop where
  sound : p.IsSound
  structs : p.catalog.structs = infos
  signatures : ∀ name, (p.function? name).bind FunctionInfo.signature = signature? name
  entered : ∀ f ∈ p.functions, ∀ e, f.entered = some e → e.IsSound V infos

/-- What holds of a declaration behind the bodies: its notes are sound, and those of a function with a signature are in order
if it has not failed. -/
structure HoldsOfBehind (V : Ty → Prop) (infos : List StructInfo) (signature? : String → Option Signature) (e : Entry) : Prop where
  notes : ∀ x ∈ e.decl.parts, x.IsSound V infos
  plain : e.IsPlain V
  constant : ∀ d, e.decl = .const d → d.value.IsConstant
  settled : ∀ d, e.decl = .func d → e.failure = none → (signature? d.name).isSome = true →
    ∀ s ∈ Stmt.flattenAll d.body, s.IsSettled V infos

variable {V : Ty → Prop} {p p' : Progress} {d d' : Decl} {problem : Option Problem} {infos : List StructInfo}
  {signature? : String → Option Signature}

/-- A declaration that is not a function, or one that has failed before. -/
theorem HoldsOf.behind {e : Entry} (h : HoldsOf (infos.map StructInfo.name) e)
    (hwritten : ∀ t, t.IsWellFormed (infos.map StructInfo.name) → V t) (hd : ∀ f, e.decl = .func f → e.failure.isSome = true)
    (signature? : String → Option Signature) : HoldsOfBehind V infos signature? e where
  notes x hx := (h.ready.notes infos x hx).mono hwritten
  plain := h.plain.mono hwritten
  constant c hc := by
    have hwf := h.ready.wellFormed
    rw [hc] at hwf
    exact hwf.2.1
  settled f hf hnone := absurd hnone (Option.isSome_iff_ne_none.mp (hd f hf))

theorem holds_body {b : Builtins} (hV : Ty.IsClosed V) (hwritten : ∀ t, t.IsWellFormed (infos.map StructInfo.name) → V t)
    (hb : b.AreSound V) (hp : HoldsBehind V infos signature? p)
    (hd : HoldsOf (infos.map StructInfo.name) ⟨d, none⟩) (h : body b p d = .ok (p', d', problem)) :
    HoldsBehind V infos signature? p' ∧ HoldsOfBehind V infos signature? ⟨d', problem.map (.bodies, ·)⟩ := by
  cases d with
  | func f =>
    have hblank := Stmt.forall_mem_parts.mp (hd.ready.func f rfl)
    obtain ⟨hnone, rfl, rfl, rfl⟩ | ⟨s, f', e, hs, hbody, rfl, rfl, rfl⟩ := body_eq_ok.mp h
    · refine ⟨hp, fun x hx => (hd.ready.notes infos x hx).mono hwritten, Entry.isPlain_none _, fun c hc => (nomatch hc),
        fun d hd _ hsome => ?_⟩
      obtain rfl := Decl.func.inj hd
      rw [← hp.signatures, hnone] at hsome
      cases hsome
    · obtain ⟨i, hi, hsignature⟩ := Option.bind_eq_some_iff.mp hs
      obtain rfl := hp.structs
      have hwork := FuncDecl.isSound_work hp.sound.catalog hV hwritten hb
        (hp.sound.signatures i (List.mem_of_find?_eq_some hi) s hsignature) hblank
      rw [FuncDecl.resolveBody_eq] at hbody
      obtain ⟨rfl, hscope, hstatements, hproblem, hdone⟩ := Worked.report_eq_ok hbody
      have he : e.IsSound V p.catalog.structs := ⟨hscope ▸ hwork.scope, hstatements ▸ hwork.statements⟩
      refine ⟨⟨hp.sound.enter f.name he.scope, rfl, fun name => ?_, List.forall_mem_map.mpr fun g hg e' he' => ?_⟩,
        Stmt.forall_mem_parts.mpr hwork.notes, ?_, fun c hc => (nomatch hc), fun d hd hnone _ => ?_⟩
      · rw [p.signature_enter, hp.signatures]
      · split at he'
        · obtain rfl := Option.some.inj he'
          exact he
        · exact hp.entered g hg e' he'
      · cases hq : e.problem with
        | none => exact Entry.isPlain_none _
        | some q =>
          obtain ⟨halt, hhalt, hreport⟩ := hproblem q hq
          exact Entry.isPlain_some _ _ (Halt.isPlain_of_report (hwork.halt halt hhalt) hreport)
      · obtain rfl := Decl.func.inj hd
        exact hwork.settled (hdone (Option.map_eq_none_iff.mp hnone))
  | const _ | var _ | struct _ | foreign _ =>
    obtain ⟨rfl, rfl, rfl⟩ := (show Ignores (body b) _ from fun _ => rfl).cases h
    exact ⟨hp, hd.behind hwritten (fun _ hf => (nomatch hf)) signature?⟩

end Step

/-! ## Units -/

namespace Program

variable {b : Builtins} {p : Program} {p₁ p₂ p₃ p₄ p₅ p₆ : Progress} {es₁ es₂ es₃ es₄ es₅ es₆ : List Entry}

/-- What holds in front of the bodies of a unit. -/
theorem Runs.holds_headers (h : p.Runs b p₁ p₂ p₃ p₄ p₅ p₆ es₁ es₂ es₃ es₄ es₅ es₆) (hp : p.IsWellFormed)
    (hblank : ∀ d ∈ p.decls, d.IsBlank) :
    Step.Holds p₁.catalog.structNames p₅ ∧ ∀ e ∈ es₅, Step.HoldsOf p₁.catalog.structNames e := by
  have hkeep {step : Step} {phase : Phase} {structs : List String}
      (hstep : ∀ p d p' d' problem, Step.Holds structs p → d.IsReady structs → step p d = .ok (p', d', problem) →
        Step.Holds structs p' ∧ Step.HoldsOf structs ⟨d', problem.map (phase, ·)⟩)
      {q q' : Progress} {fs fs' : List Entry} (hrun : phase.run step q fs = .ok (q', fs'))
      (hq : Step.Holds structs q ∧ ∀ e ∈ fs, Step.HoldsOf structs e) :
      Step.Holds structs q' ∧ ∀ e ∈ fs', Step.HoldsOf structs e :=
    Phase.keeps_run (fun _ _ he => he) (fun p d p' d' problem hp hd => hstep p d p' d' problem hp hd.ready) hrun hq.1 hq.2
  have h₁ : (p₁.IsSound ∧ p₁.IsWaiting)
      ∧ ∀ e ∈ es₁, (e.decl.IsBlank ∧ e.decl.IsWellFormed) ∧ e.IsPlain (Ty.IsWellFormed p₁.catalog.structNames) :=
    Phase.keeps_run (Q := fun q => q.IsSound ∧ q.IsWaiting)
      (E := fun e => (e.decl.IsBlank ∧ e.decl.IsWellFormed) ∧ e.IsPlain (Ty.IsWellFormed p₁.catalog.structNames))
      (fun _ _ he => he) (fun _ _ _ _ _ hq hd hstep => Step.holds_register hq hd.1 hstep) h.registration
      ⟨Progress.isSound_empty, List.forall_mem_nil _⟩
      (List.forall_mem_map.mpr fun d hd => ⟨⟨hblank d hd, hp d hd⟩, Entry.isPlain_none d⟩)
  have hready : Step.Holds p₁.catalog.structNames p₁ ∧ ∀ e ∈ es₁, Step.HoldsOf p₁.catalog.structNames e :=
    ⟨⟨h₁.1.1, h₁.1.2, rfl⟩, fun e he => ⟨(h₁.2 e he).1.1.isReady (h₁.2 e he).1.2 _, (h₁.2 e he).2⟩⟩
  have h₂ := hkeep (fun _ _ _ _ _ => Step.holds_constant) h.constants hready
  have h₃ := hkeep (fun _ _ _ _ _ => Step.holds_fields) h.fields h₂
  have h₄ := hkeep (fun _ _ _ _ _ => Step.holds_containment) h.containment h₃
  exact hkeep (fun _ _ _ _ _ => Step.holds_header) h.headers h₄

/-- What holds behind the bodies of a unit, where the types of values are from a class that has the types of the builtins. -/
theorem Runs.holds (h : p.Runs b p₁ p₂ p₃ p₄ p₅ p₆ es₁ es₂ es₃ es₄ es₅ es₆) (hp : p.IsWellFormed)
    (hblank : ∀ d ∈ p.decls, d.IsBlank) {V : Ty → Prop} (hV : Ty.IsClosed V)
    (hwritten : ∀ t, t.IsWellFormed p₅.catalog.structNames → V t) (hb : b.AreSound V) :
    Step.HoldsBehind V p₅.catalog.structs (fun name => (p₆.function? name).bind FunctionInfo.signature) p₆
      ∧ ∀ e ∈ es₆, Step.HoldsOfBehind V p₅.catalog.structs (fun name => (p₆.function? name).bind FunctionInfo.signature) e := by
  obtain ⟨hq, hes⟩ := h.holds_headers hp hblank
  have hnames : p₅.catalog.structs.map StructInfo.name = p₁.catalog.structNames := hq.names
  have hbehind : Step.HoldsBehind V p₅.catalog.structs (fun name => (p₅.function? name).bind FunctionInfo.signature) p₅ :=
    ⟨hq.sound, rfl, fun _ => rfl, fun f hf e he => (nomatch (hq.waiting f hf).symm.trans he)⟩
  have hrun := Phase.keeps_run (E := Step.HoldsOf (p₅.catalog.structs.map StructInfo.name))
    (fun e hf he => he.behind hwritten (fun _ _ => hf) _) (fun _ _ _ _ _ => Step.holds_body hV hwritten hb) h.bodies hbehind
    (hnames ▸ hes)
  have hsame : (fun name => (p₆.function? name).bind FunctionInfo.signature)
      = fun name => (p₅.function? name).bind FunctionInfo.signature := funext hrun.1.signatures
  rw [hsame]
  exact hrun

end Program

/-- The statements of a declaration, with those inside them. -/
def Decl.statements : Decl → List Stmt
  | .func d => Stmt.flattenAll d.body
  | _ => []

/-- The type of an expression, if it is noted, is one that values can have, or the `void` of a call, and that of the
symbol, if one is noted, is a type that values can have. -/
def Expr.IsNoted (V : Ty → Prop) (e : Expr) : Prop :=
  (∀ t, e.info.ty = some t → V t ∨ t = .void ∧ e.isCall = true) ∧ ∀ name s info, e = .ident name (some s) info → s.IsSound V

theorem Expr.IsSound.isNoted {V : Ty → Prop} {infos : List StructInfo} {e : Expr} (h : e.IsSound V infos) : e.IsNoted V := by
  cases e with
  | ident name symbol info =>
    refine ⟨fun t ht => .inl (h.2 t ht), fun name' s info' heq => ?_⟩
    obtain ⟨-, rfl, -⟩ := Expr.ident.inj heq
    exact h.1 s rfl
  | call c args info => exact ⟨fun t ht => (h t ht).symm.imp_right fun hv => ⟨hv, rfl⟩, fun _ _ _ heq => (nomatch heq)⟩
  | index _ _ _ | field _ _ _ | composite _ _ => exact ⟨fun t ht => .inl (h t ht).1, fun _ _ _ heq => (nomatch heq)⟩
  | int _ _ | real _ _ | byte _ _ | addrOf _ _ | typeArg _ _ | foreign _ =>
    exact ⟨fun t ht => .inl (h t ht), fun _ _ _ heq => (nomatch heq)⟩

/-- In a statement that is in order only a call that is the statement is `void`. -/
theorem Stmt.IsSettled.call_of_void {structs : List String} {infos : List StructInfo} {s : Stmt}
    (h : s.IsSettled (Ty.IsWellFormed structs) infos) {x : Expr} (hx : x ∈ s.exprs) (hvoid : x.info.ty = some .void) :
    ∃ span, s = .call x span := by
  have hvalued : x ∉ s.values := by
    intro hx
    obtain ⟨t, ht, hwf⟩ := h.valued x hx
    exact hwf.ne_void (Option.some.inj (ht.symm.trans hvoid))
  cases s with
  | call c span => exact ⟨span, by rw [List.mem_singleton.mp hx]⟩
  | var _ | assign _ _ _ | ifThen _ _ _ _ _ | whileDo _ _ _ _ | breakLoop _ | continueLoop _ | label _ _ _ | goto _ _ _
  | block _ _ | foreign _ => exact absurd hx hvalued

/-- The standard builtins take and give primitive values. -/
theorem Builtins.areSound_standard {V : Ty → Prop} (hV : Ty.IsClosed V) : standard.AreSound V := by
  have hint : V .int := hV.primitive _
  have hfunc {ps : List Ty} {r : Ty} (hps : ∀ t ∈ ps, V t) (hr : V r) : V (Signature.ty ⟨ps, r⟩) :=
    (hV.func ps r).mpr ⟨hps, .inr hr⟩
  have hone {t : Ty} (ht : V t) : ∀ u ∈ [t], V u := List.forall_mem_singleton.mpr ht
  have htwo {t : Ty} (ht : V t) : ∀ u ∈ [t, t], V u := List.forall_mem_cons.mpr ⟨ht, hone ht⟩
  have hoperations (letter : String) {t : Ty} (ht : V t) (binary unary comparisons : List String) :
      (operations letter t binary unary comparisons).AreSound V := by
    refine List.forall_mem_append.mpr ⟨List.forall_mem_append.mpr ⟨?_, ?_⟩, ?_⟩
    · exact List.forall_mem_map.mpr fun _ _ => hfunc (htwo ht) ht
    · exact List.forall_mem_map.mpr fun _ _ => hfunc (hone ht) ht
    · exact List.forall_mem_map.mpr fun _ _ => hfunc (htwo ht) hint
  refine List.forall_mem_append.mpr ⟨List.forall_mem_append.mpr ⟨List.forall_mem_append.mpr ⟨?_, ?_⟩, ?_⟩, ?_⟩
  · exact hoperations "i" hint _ _ _
  · exact hoperations "u" hint _ _ _
  · exact hoperations "f" (hV.primitive _) _ _ _
  · have hconversion (name : String) (p q : Primitive) : V (name, (⟨[.primitive p], .primitive q⟩ : Signature)).2.ty :=
      hfunc (hone (hV.primitive p)) (hV.primitive q)
    exact List.forall_mem_cons.mpr ⟨hconversion _ _ _, List.forall_mem_cons.mpr ⟨hconversion _ _ _,
      List.forall_mem_cons.mpr ⟨hconversion _ _ _, List.forall_mem_singleton.mpr (hconversion _ _ _)⟩⟩⟩

/-- All types in a resolved unit are well formed, and `void` is no type of values. -/
structure Resolution.IsTyped (r : Resolution) : Prop where
  /-- Every type of a global symbol, a field, a signature or a local symbol is one that values can have. -/
  globals : ∀ s ∈ r.catalog.globals, s.IsSound (Ty.IsWellFormed r.catalog.structNames)
  fields : ∀ i ∈ r.catalog.structs, ∀ f ∈ i.fields, f.2.IsWellFormed r.catalog.structNames
  signatures : ∀ f ∈ r.functions, ∀ s, f.signature = some s → s.ty.IsWellFormed r.catalog.structNames
  scopes : ∀ scope ∈ r.catalog.finished, scope.IsSound (Ty.IsWellFormed r.catalog.structNames)
  entered : ∀ f ∈ r.functions, ∀ e, f.entered = some e → e.scope.IsSound (Ty.IsWellFormed r.catalog.structNames)
  /-- So is every type of an expression, unless it is the `void` of a call. -/
  expressions : ∀ e ∈ r.entries, ∀ x ∈ e.decl.parts, x.IsNoted (Ty.IsWellFormed r.catalog.structNames)
  statements : ∀ f ∈ r.functions, ∀ e, f.entered = some e →
    ∀ x ∈ Stmt.parts e.statements, x.IsNoted (Ty.IsWellFormed r.catalog.structNames)
  /-- In a unit without problems all that an expression is made of, or that a statement uses the value of, has a type that values
  can have. -/
  children : r.isValid = true → ∀ e ∈ r.entries, ∀ x ∈ e.decl.parts, ∀ child ∈ x.children,
    child.IsValued (Ty.IsWellFormed r.catalog.structNames)
  values : r.isValid = true → ∀ e ∈ r.entries, ∀ s ∈ e.decl.statements, ∀ v ∈ s.values,
    v.IsValued (Ty.IsWellFormed r.catalog.structNames)
  /-- What is `void` then is a call that is a statement of its own. -/
  voids : r.isValid = true → ∀ e ∈ r.entries, ∀ x ∈ e.decl.parts, x.info.ty = some .void →
    x.isCall = true ∧ ∃ span, .call x span ∈ e.decl.statements

theorem Expr.IsConstant.parts_eq {e : Expr} (h : e.IsConstant) : e.parts = [e] ∧ e.children = [] ∧ e.isCall = false := by
  cases e with
  | int _ _ | real _ _ | byte _ _ | ident _ _ _ => exact ⟨rfl, rfl, rfl⟩
  | index _ _ _ | field _ _ _ | call _ _ _ | composite _ _ | addrOf _ _ | typeArg _ _ | foreign _ => exact h.elim

/-- An expression is one of those given, or it stands in a part. -/
def Expr.IsAmong (x : Expr) (es parts : List Expr) : Prop := x ∈ es ∨ ∃ y ∈ parts, x ∈ y.children

theorem Expr.IsAmong.behind {x : Expr} {es parts parts' : List Expr} (h : x.IsAmong es parts) {e : Expr} (he : e ∈ parts')
    (hes : ∀ y ∈ es, y ∈ e.children) (hparts : parts ⊆ parts') : ∃ y ∈ parts', x ∈ y.children := by
  obtain hx | ⟨y, hy, hx⟩ := h
  · exact ⟨e, he, hes x hx⟩
  · exact ⟨y, hparts hy, hx⟩

namespace Expr

mutual

/-- A part of an expression is the expression itself, or it stands in a part. -/
theorem isAmong_parts : (e : Expr) → ∀ x ∈ e.parts, x.IsAmong [e] e.parts
  | .index b i info, x, hx => by
    obtain rfl | hx := List.mem_cons.mp hx
    · exact .inl (List.mem_singleton_self _)
    · obtain hx | hx := List.mem_append.mp hx
      · exact .inr ((isAmong_parts b x hx).behind List.mem_cons_self (List.forall_mem_singleton.mpr List.mem_cons_self)
          fun y hy => List.mem_cons_of_mem _ (List.mem_append_left _ hy))
      · exact .inr ((isAmong_parts i x hx).behind List.mem_cons_self
          (List.forall_mem_singleton.mpr (List.mem_cons_of_mem _ List.mem_cons_self))
          fun y hy => List.mem_cons_of_mem _ (List.mem_append_right _ hy))
  | .field b name info, x, hx => by
    obtain rfl | hx := List.mem_cons.mp hx
    · exact .inl (List.mem_singleton_self _)
    · exact .inr ((isAmong_parts b x hx).behind List.mem_cons_self (List.forall_mem_singleton.mpr List.mem_cons_self)
        fun y hy => List.mem_cons_of_mem _ hy)
  | .call c args info, x, hx => by
    obtain rfl | hx := List.mem_cons.mp hx
    · exact .inl (List.mem_singleton_self _)
    · obtain hx | hx := List.mem_append.mp hx
      · exact .inr ((isAmong_parts c x hx).behind List.mem_cons_self (List.forall_mem_singleton.mpr List.mem_cons_self)
          fun y hy => List.mem_cons_of_mem _ (List.mem_append_left _ hy))
      · exact .inr ((isAmong_partsAll args x hx).behind List.mem_cons_self (fun y hy => List.mem_cons_of_mem _ hy)
          fun y hy => List.mem_cons_of_mem _ (List.mem_append_right _ hy))
  | .composite es info, x, hx => by
    obtain rfl | hx := List.mem_cons.mp hx
    · exact .inl (List.mem_singleton_self _)
    · exact .inr ((isAmong_partsAll es x hx).behind List.mem_cons_self (fun y hy => hy) fun y hy => List.mem_cons_of_mem _ hy)
  | .addrOf e info, x, hx => by
    obtain rfl | hx := List.mem_cons.mp hx
    · exact .inl (List.mem_singleton_self _)
    · exact .inr ((isAmong_parts e x hx).behind List.mem_cons_self (List.forall_mem_singleton.mpr List.mem_cons_self)
        fun y hy => List.mem_cons_of_mem _ hy)
  | .int .., x, hx | .real .., x, hx | .byte .., x, hx | .ident .., x, hx | .typeArg .., x, hx | .foreign _, x, hx => .inl hx

theorem isAmong_partsAll : (es : List Expr) → ∀ x ∈ partsAll es, x.IsAmong es (partsAll es)
  | e :: es, x, hx => by
    obtain hx | hx := List.mem_append.mp hx
    · obtain hx | ⟨y, hy, hx⟩ := isAmong_parts e x hx
      · exact .inl (List.mem_singleton.mp hx ▸ List.mem_cons_self)
      · exact .inr ⟨y, List.mem_append_left _ hy, hx⟩
    · obtain hx | ⟨y, hy, hx⟩ := isAmong_partsAll es x hx
      · exact .inl (List.mem_cons_of_mem _ hx)
      · exact .inr ⟨y, List.mem_append_right _ hy, hx⟩

end

end Expr

namespace Program

variable {b : Builtins} {p : Program} {p₁ p₂ p₃ p₄ p₅ p₆ : Progress} {es₁ es₂ es₃ es₄ es₅ es₆ : List Entry}

/-- In a unit without problems every statement is in order. -/
theorem Runs.isSettled (h : p.Runs b p₁ p₂ p₃ p₄ p₅ p₆ es₁ es₂ es₃ es₄ es₅ es₆) (hp : p.IsWellFormed)
    (hblank : ∀ d ∈ p.decls, d.IsBlank) {V : Ty → Prop} (hV : Ty.IsClosed V)
    (hwritten : ∀ t, t.IsWellFormed p₅.catalog.structNames → V t) (hb : b.AreSound V) (hvalid : ∀ e ∈ es₆, e.failure = none) :
    ∀ e ∈ es₆, ∀ s ∈ e.decl.statements, s.IsSettled V p₆.catalog.structs := by
  obtain ⟨hq, hes⟩ := h.holds hp hblank hV hwritten hb
  intro e he s hs
  obtain ⟨decl, failure⟩ := e
  obtain rfl : failure = none := hvalid _ he
  cases decl with
  | const _ | var _ | struct _ | foreign _ => cases hs
  | func d =>
    obtain ⟨global, f, scope, hrecord, -, hstage⟩ := h.accounts.stages _ he (.of_eq_none rfl) d.name rfl
    have hfunction : p₆.function? d.name = some f := congrArg Record.function hrecord
    rw [hq.structs]
    refine (hes _ he).settled d rfl rfl ?_ s hs
    rw [hfunction, Option.bind_some]
    generalize hfailure : (Entry.mk (.func d) none).failure = failure at hstage
    cases hstage with
    | waiting hmem => exact absurd (show Phase.headers ∈ _ by decide) hmem
    | headed _ hmem => exact absurd (show Phase.bodies ∈ _ by decide) hmem
    | failed => cases hfailure
    | entered _ _ signature _ _ hsignature =>
      rw [hsignature]
      rfl

/-- The types in a unit whose declarations have no notes when it is resolved. -/
theorem Runs.isTyped (h : p.Runs b p₁ p₂ p₃ p₄ p₅ p₆ es₁ es₂ es₃ es₄ es₅ es₆) (hp : p.IsWellFormed)
    (hblank : ∀ d ∈ p.decls, d.IsBlank) (hb : ∀ structs, b.AreSound (Ty.IsWellFormed structs)) (file : Option String) :
    Resolution.IsTyped ⟨es₆, file, p₆.catalog, p₆.functions⟩ := by
  have hV := Ty.isClosed_isWellFormed p₅.catalog.structNames
  obtain ⟨hq, hes⟩ := h.holds hp hblank hV (fun _ ht => ht) (hb _)
  have hsettled (hvalid : ∀ e ∈ es₆, e.failure = none) := h.isSettled hp hblank hV (fun _ ht => ht) (hb _) hvalid
  obtain ⟨hsound, hstructs, -, hentered⟩ := hq
  have hnames : p₅.catalog.structNames = p₆.catalog.structNames := by rw [Catalog.structNames, ← hstructs]
  rw [← hstructs] at hes hentered
  rw [hnames] at hes hentered hsettled
  have hfailure (hvalid : Resolution.isValid ⟨es₆, file, p₆.catalog, p₆.functions⟩ = true) : ∀ e ∈ es₆, e.failure = none :=
    fun e he => Option.isNone_iff_eq_none.mp (List.all_eq_true.mp hvalid e he)
  have hchildren (hvalid : ∀ e ∈ es₆, e.failure = none) :
      ∀ e ∈ es₆, ∀ x ∈ e.decl.parts, ∀ child ∈ x.children, child.IsValued (Ty.IsWellFormed p₆.catalog.structNames) := by
    intro e he x hx child hchild
    have hstatements := hsettled hvalid e he
    have hconstant := (hes e he).constant
    obtain ⟨decl, failure⟩ := e
    cases decl with
    | const d =>
      obtain ⟨hparts, hnone, -⟩ := (hconstant d rfl).parts_eq
      obtain rfl := List.mem_singleton.mp (hparts ▸ hx : x ∈ [d.value])
      rw [hnone] at hchild
      cases hchild
    | func d =>
      have hparts := Stmt.forall_mem_parts (P := fun x => x.IsSettled (Ty.IsWellFormed p₆.catalog.structNames) p₆.catalog.structs).mpr
        fun s hs => (hstatements s hs).settled
      exact (hparts x hx).valued child hchild
    | var _ | struct _ | foreign _ => cases hx
  refine {
    globals := hsound.catalog.globals
    fields := hsound.catalog.fields
    signatures := hsound.signatures
    scopes := hsound.scopes
    entered := fun f hf e he => (hentered f hf e he).scope
    expressions := fun e he x hx => ((hes e he).notes x hx).isNoted
    statements := fun f hf e he => Stmt.forall_mem_parts.mpr fun s hs v hv x hx => ((hentered f hf e he).notes s hs v hv x hx).isNoted
    children := fun hvalid => hchildren (hfailure hvalid)
    values := fun hvalid e he s hs => (hsettled (hfailure hvalid) e he s hs).valued
    voids := fun hvalid e he x hx hvoid => ?_ }
  have hx' := ((hes e he).notes x hx).isNoted.1 _ hvoid
  have hcall : x.isCall = true := (hx'.resolve_left fun hwf => hwf).2
  refine ⟨hcall, ?_⟩
  have hstatements := hsettled (hfailure hvalid) e he
  have hnotChild : ∀ y ∈ e.decl.parts, x ∉ y.children := by
    intro y hy hchild
    obtain ⟨t, ht, hwf⟩ := hchildren (hfailure hvalid) e he y hy x hchild
    exact hwf.ne_void (Option.some.inj (ht.symm.trans hvoid))
  have hconstant := (hes e he).constant
  obtain ⟨decl, failure⟩ := e
  cases decl with
  | const d =>
    obtain ⟨hparts, -, hnone⟩ := (hconstant d rfl).parts_eq
    obtain rfl := List.mem_singleton.mp (hparts ▸ hx : x ∈ [d.value])
    cases hnone.symm.trans hcall
  | func d =>
    obtain ⟨s, hs, hxs⟩ := List.mem_flatMap.mp hx
    obtain hmem | ⟨y, hy, hchild⟩ := Expr.isAmong_partsAll s.exprs x hxs
    · obtain ⟨span, rfl⟩ := (hstatements s hs).call_of_void hmem hvoid
      exact ⟨span, hs⟩
    · exact absurd hchild (hnotChild y (List.mem_flatMap.mpr ⟨s, hs, hy⟩))
  | var _ | struct _ | foreign _ => cases hx

/-- The types in a parsed unit once it is resolved: they are well formed, and `void` is never the type of a value, whether the
unit has problems or not; and in a unit without problems it is the type of calls that are statements, and of nothing else. -/
theorem resolve_typed {source : String} {file : Option String} (h : ofSource source file = .ok p) :
    ∃ r, p.resolve = .ok r ∧ r.IsTyped := by
  have hp := isWellFormed_of_ofSource h
  obtain ⟨r, -, hr, -⟩ := exists_resolve hp Builtins.standard
  obtain ⟨p₁, p₂, p₃, p₄, p₅, p₆, es₁, es₂, es₃, es₄, es₅, es₆, hruns, rfl⟩ := exists_runs hr
  have hdecls : p.decls.map (Decl.strip true) = p.decls.map (Decl.strip false) := congrArg decls (strip_of_ofSource h)
  exact ⟨_, hr, hruns.isTyped hp (fun d hd => Decl.isBlank_of_strip (List.map_inj_left.mp hdecls d hd))
    (fun _ => Builtins.areSound_standard (Ty.isClosed_isWellFormed _)) p.file⟩

/-- A unit without problems, with a `void` call behind a field behind indices. -/
theorem resolve_typed_call : ∃ p r,
    ofSource "struct s [var x int[2]] fun g void(var n int) \x7b \x7d fun f int(var a s*) \x7b g(a[0][x][1]) \x7d" = .ok p
      ∧ p.resolve = .ok r ∧ r.problems = [] ∧ r.IsTyped := by
  have hkinds : problemKindsOf
      "struct s [var x int[2]] fun g void(var n int) \x7b \x7d fun f int(var a s*) \x7b g(a[0][x][1]) \x7d" = some [] :=
    Program.bind_ofSource (by decide +kernel)
  obtain ⟨p, r, hp, hr, hkinds⟩ := exists_of_problemKindsOf hkinds
  obtain ⟨r', hr', htyped⟩ := resolve_typed hp
  obtain rfl := Except.ok.inj (hr.symm.trans hr')
  exact ⟨p, r, hp, hr, List.map_eq_nil_iff.mp hkinds, htyped⟩

end Program

end FlatScope
