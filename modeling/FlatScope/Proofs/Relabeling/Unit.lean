/-
  Units are resolved in other labels as in the old ones (`Program.resolve_relabel`). Every step of a phase does in the
  new labels what it does in the old ones, so a phase does, and so do all phases one after another. Only what is said
  of a misplaced node may differ, for that is a text that quotes the node; then there is no resolution on either side.
-/
import FlatScope.Proofs.Relabeling.Global
import FlatScope.Proofs.Resolution.Runs

namespace FlatScope

variable {φ : Relabeling}

/-! ## Progress -/

theorem FunctionInfo.find?_relabel (fs : List FunctionInfo) (name : String) :
    (fs.map (FunctionInfo.relabel φ)).find? (fun f => f.name = φ.name name)
      = (fs.find? fun f => f.name = name).map (FunctionInfo.relabel φ) :=
  Relabeling.find?_map FunctionInfo.name (fun _ => rfl) fs name

/-- What is changed at a name is changed in other labels at the other name. -/
theorem Relabeling.map_at {α : Type} (key : α → String) {relabel : α → α} (hkey : ∀ a, key (relabel a) = φ.name (key a))
    {f f' : α → α} (hf : ∀ a, f' (relabel a) = relabel (f a)) (as : List α) (name : String) :
    (as.map relabel).map (fun a => if key a = φ.name name then f' a else a)
      = (as.map fun a => if key a = name then f a else a).map relabel := by
  rw [List.map_map, List.map_map]
  refine List.map_congr_left fun a _ => ?_
  simp only [Function.comp_apply, hkey, name_inj]
  split
  · exact hf a
  · rfl

namespace Catalog

theorem addGlobal_relabel (c : Catalog) (s : Symbol) :
    (c.relabel φ).addGlobal (s.relabel φ) = match c.addGlobal s with
      | .error d => .error (d.relabel φ)
      | .ok c => .ok (c.relabel φ) := by
  have hfind : Symbol.find? (c.relabel φ).globals (s.relabel φ).name
      = (Symbol.find? c.globals s.name).map (Symbol.relabel φ) := Symbol.find?_relabel c.globals s.name
  unfold addGlobal
  rw [hfind]
  cases Symbol.find? c.globals s.name with
  | some previous => rfl
  | none => simp [relabel]

theorem modifyGlobal_relabel {f f' : Symbol → Symbol} (hf : ∀ s, f' (s.relabel φ) = (f s).relabel φ) (c : Catalog)
    (name : String) : (c.relabel φ).modifyGlobal (φ.name name) f' = (c.modifyGlobal name f).relabel φ := by
  unfold modifyGlobal relabel
  dsimp only
  rw [Relabeling.map_at Symbol.name (fun _ => rfl) hf]

theorem modifyStruct_relabel {f f' : StructInfo → StructInfo} (hf : ∀ s, f' (s.relabel φ) = (f s).relabel φ)
    (c : Catalog) (name : String) :
    (c.relabel φ).modifyStruct (φ.name name) f' = (c.modifyStruct name f).relabel φ := by
  unfold modifyStruct relabel
  dsimp only
  rw [Relabeling.map_at StructInfo.name (fun _ => rfl) hf]

theorem finish_relabel (finished : List LocalScope) (scope : LocalScope) :
    finish (finished.map (LocalScope.relabel φ)) (scope.relabel φ)
      = (finish finished scope).map (LocalScope.relabel φ) := by
  have hany : (finished.map (LocalScope.relabel φ)).any (fun s => s.function = (scope.relabel φ).function)
      = finished.any fun s => s.function = scope.function := by
    rw [List.any_map]
    congr 1
    funext s
    simp [LocalScope.relabel, Relabeling.name_inj]
  unfold finish
  rw [hany]
  split
  · rw [List.map_map, List.map_map]
    refine List.map_congr_left fun s _ => ?_
    have hname : (s.relabel φ).function = (scope.relabel φ).function ↔ s.function = scope.function :=
      Relabeling.name_inj
    simp only [Function.comp_apply, hname]
    split <;> rfl
  · simp

end Catalog

namespace Progress

theorem modifyFunction_relabel {f f' : FunctionInfo → FunctionInfo} (hf : ∀ i, f' (i.relabel φ) = (f i).relabel φ)
    (p : Progress) (name : String) :
    (p.relabel φ).modifyFunction (φ.name name) f' = (p.modifyFunction name f).relabel φ := by
  unfold modifyFunction relabel
  dsimp only
  rw [Relabeling.map_at FunctionInfo.name (fun _ => rfl) hf]

theorem modifyCatalog_relabel {f f' : Catalog → Catalog} (hf : ∀ c, f' (c.relabel φ) = (f c).relabel φ) (p : Progress) :
    (p.relabel φ).modifyCatalog f' = (p.modifyCatalog f).relabel φ := by
  unfold modifyCatalog relabel
  dsimp only
  rw [hf]

theorem modifyGlobal_relabel {f f' : Symbol → Symbol} (hf : ∀ s, f' (s.relabel φ) = (f s).relabel φ) (p : Progress)
    (name : String) : (p.relabel φ).modifyCatalog (fun c => c.modifyGlobal (φ.name name) f')
      = (p.modifyCatalog fun c => c.modifyGlobal name f).relabel φ :=
  p.modifyCatalog_relabel fun c => c.modifyGlobal_relabel hf name

theorem modifyStruct_relabel {f f' : StructInfo → StructInfo} (hf : ∀ s, f' (s.relabel φ) = (f s).relabel φ)
    (p : Progress) (name : String) : (p.relabel φ).modifyCatalog (fun c => c.modifyStruct (φ.name name) f')
      = (p.modifyCatalog fun c => c.modifyStruct name f).relabel φ :=
  p.modifyCatalog_relabel fun c => c.modifyStruct_relabel hf name

theorem mirrors (p : Progress) : p.catalog.Mirrors φ (p.relabel φ).catalog := Catalog.mirrors_relabel p.catalog

end Progress

/-! ## Steps -/

/-- The outcome of a step in other labels. -/
def Relabeling.stepped (φ : Relabeling) (r : Progress × Decl × Option Problem) : Progress × Decl × Option Problem :=
  (r.1.relabel φ, r.2.1.relabel φ, r.2.2.map (Problem.relabel φ))

namespace Step

/-- A step does in other labels what another one does in the old ones. -/
def IsMirrored (φ : Relabeling) (step step' : Step) : Prop :=
  ∀ p d, (step' (p.relabel φ) (d.relabel φ)).toOption = (step p d).toOption.map φ.stepped

theorem halted_relabel (p : Progress) (d : Decl) (halt : Halt) :
    (halted (p.relabel φ) (d.relabel φ) (halt.relabel φ)).toOption = (halted p d halt).toOption.map φ.stepped := by
  cases halt <;> rfl

theorem symbol_relabel (d : Decl) : symbol (d.relabel φ) = (symbol d).map (Symbol.relabel φ) := by
  cases d with
  | const _ | var _ | func _ | foreign _ => rfl
  | struct d => simp [symbol, Decl.relabel, StructDecl.relabel, Except.map, Symbol.relabel, Ty.relabel]

theorem isMirrored_register : IsMirrored φ register register := by
  intro p d
  unfold register
  rw [symbol_relabel]
  cases symbol d with
  | error m => rfl
  | ok s =>
    have hadd : (p.relabel φ).catalog.addGlobal (s.relabel φ) = _ := p.catalog.addGlobal_relabel s
    simp only [Except.map, bind, Except.bind, hadd]
    cases p.catalog.addGlobal s with
    | error duplicate => rfl
    | ok c =>
      cases d with
      | struct d =>
        simp [Decl.relabel, Progress.modifyCatalog, Progress.relabel, Catalog.relabel, StructDecl.relabel,
          StructInfo.relabel, pure, Except.pure, Except.toOption, Relabeling.stepped]
      | func d =>
        simp [Decl.relabel, Progress.relabel, FuncDecl.relabel, FunctionInfo.relabel, pure, Except.pure,
          Except.toOption, Relabeling.stepped]
      | const _ | var _ | foreign _ => rfl

/-- The type and the value of a constant come into the catalog in other labels as in the old ones. -/
theorem constant_done (p : Progress) (d : ConstDecl) (i : Initializer) :
    (p.relabel φ).modifyCatalog (fun c => c.modifyGlobal (φ.name d.name) fun s =>
        { s with ty := some (i.relabel φ).ty, value := (i.relabel φ).constant })
      = (p.modifyCatalog fun c => c.modifyGlobal d.name fun s =>
        { s with ty := some i.ty, value := i.constant }).relabel φ := by
  refine p.modifyGlobal_relabel ?_ d.name
  intro s
  rfl

theorem isMirrored_constant : IsMirrored φ constant constant := by
  intro p d
  cases d with
  | const d =>
    obtain ⟨name, value, span⟩ := d
    have hdone (i : Initializer) : Except.toOption (.ok
          ((p.relabel φ).modifyCatalog (fun c => c.modifyGlobal (φ.name name) fun s =>
            { s with ty := some (i.relabel φ).ty, value := (i.relabel φ).constant }),
          Decl.const ⟨φ.name name, (i.relabel φ).value, φ.place span⟩, none) : Except Misplaced _)
        = (Except.toOption (.ok (p.modifyCatalog fun c => c.modifyGlobal name fun s =>
            { s with ty := some i.ty, value := i.constant }, Decl.const ⟨name, i.value, span⟩, none)
              : Except Misplaced _)).map φ.stepped := by
      rw [constant_done p ⟨name, value, span⟩ i]
      rfl
    cases value with
    | int n info => exact hdone ⟨.int n { info with ty := some .int }, .int, some (.int n)⟩
    | real x info => exact hdone ⟨.real x { info with ty := some .float }, .float, some (.real x)⟩
    | byte n info => exact hdone ⟨.byte n { info with ty := some .byte }, .byte, some (.int n)⟩
    | ident source symbol info =>
      have hlookup : (p.relabel φ).catalog.lookupGlobal (φ.name source)
          = (p.catalog.lookupGlobal source).map (Symbol.relabel φ) := p.mirrors.globals source
      simp only [constant, Decl.relabel, ConstDecl.relabel, Expr.relabel, ConstDecl.initializer, hlookup]
      cases p.catalog.lookupGlobal source with
      | none => rfl
      | some s =>
        by_cases hk : s.kind = .const
        · cases ht : s.ty with
          | none => simp [hk, ht, Symbol.relabel, halted, Halt.at, Halt.report]; rfl
          | some t =>
            have hi := hdone ⟨.ident source (some s) { info with ty := some t }, t, s.value⟩
            simp only [hk, ht, Symbol.relabel, Option.map_some, ne_eq, not_true_eq_false, if_false]
            simpa [Initializer.relabel, Expr.relabel, Symbol.relabel, Info.relabel, ht, hk] using hi
        · simp [hk, Symbol.relabel, halted, Halt.at, Halt.report]; rfl
    | index _ _ _ | field _ _ _ | call _ _ _ | composite _ _ | addrOf _ _ | typeArg _ _ | foreign _ => rfl
  | var _ | struct _ | func _ | foreign _ => rfl

theorem isMirrored_fields : IsMirrored φ fields fields := by
  intro p d
  cases d with
  | struct d =>
    have hfields := StructDecl.resolveFields_relabel p.mirrors (φ := φ) d.name [] d.fields
    rw [List.map_nil] at hfields
    simp only [fields, Decl.relabel, StructDecl.relabel, hfields]
    cases StructDecl.resolveFields p.catalog d.name [] d.fields with
    | mk known halt =>
      have hp : (p.relabel φ).modifyCatalog (fun c => c.modifyStruct (φ.name d.name) fun i =>
            { i with fields := known.map (StructDecl.relabelField φ), isComplete := (halt.map (Halt.relabel φ)).isNone })
          = (p.modifyCatalog fun c => c.modifyStruct d.name fun i =>
            { i with fields := known, isComplete := halt.isNone }).relabel φ := by
        rw [Option.isNone_map]
        refine p.modifyStruct_relabel ?_ d.name
        intro i
        rfl
      dsimp only
      rw [hp]
      cases halt with
      | none => rfl
      | some halt => exact halted_relabel _ (.struct d) halt
  | const _ | var _ | func _ | foreign _ => rfl

theorem isMirrored_containment : IsMirrored φ containment containment := by
  intro p d
  cases d with
  | struct d =>
    have hmem : φ.name d.name ∈ (p.relabel φ).onCycle ↔ d.name ∈ p.onCycle := by
      simp [Progress.relabel, Relabeling.name_inj]
    have hp : (p.relabel φ).modifyCatalog (fun c => c.modifyStruct (φ.name d.name) fun i =>
          { i with isComplete := false })
        = (p.modifyCatalog fun c => c.modifyStruct d.name fun i => { i with isComplete := false }).relabel φ := by
      refine p.modifyStruct_relabel ?_ d.name
      intro i
      rfl
    simp only [containment, Decl.relabel, StructDecl.relabel, p.mirrors.cycle?, hmem, hp]
    by_cases hm : d.name ∈ p.onCycle
    · simp only [hm, if_true]
      rfl
    · simp only [hm, if_false]
      cases p.catalog.cycle? d.name with
      | none => rfl
      | some cycle =>
        simp [Except.toOption, Relabeling.stepped, Progress.relabel, Progress.modifyCatalog, Decl.relabel,
          StructDecl.relabel, Problem.relabel, Problem.Cause.relabel]
  | const _ | var _ | func _ | foreign _ => rfl

theorem isMirrored_header : IsMirrored φ header header := by
  intro p d
  cases d with
  | var d =>
    have hp (t : Ty) : (p.relabel φ).modifyCatalog (fun c => c.modifyGlobal (φ.name d.name) fun s =>
          { s with ty := some (t.relabel φ) })
        = (p.modifyCatalog fun c => c.modifyGlobal d.name fun s => { s with ty := some t }).relabel φ := by
      refine p.modifyGlobal_relabel ?_ d.name
      intro s
      rfl
    simp only [header, Decl.relabel, VarDecl.relabel, d.type.resolve_relabel p.mirrors]
    cases d.type.resolve p.catalog none false with
    | error halt => exact halted_relabel p (.var d) halt
    | ok t =>
      simp only [Relabeling.halted, hp]
      rfl
  | func d =>
    have hp (s : Signature) : ((p.relabel φ).modifyCatalog fun c => c.modifyGlobal (φ.name d.name) fun g =>
          { g with ty := some (s.relabel φ).ty }).modifyFunction (φ.name d.name)
            (fun i => { i with signature := some (s.relabel φ) })
        = ((p.modifyCatalog fun c => c.modifyGlobal d.name fun g => { g with ty := some s.ty }).modifyFunction d.name
            fun i => { i with signature := some s }).relabel φ := by
      rw [Signature.ty_relabel, p.modifyGlobal_relabel (f := fun g => { g with ty := some s.ty })]
      · refine Progress.modifyFunction_relabel ?_ _ d.name
        intro i
        rfl
      · intro g
        rfl
    simp only [header, Decl.relabel, d.signature_relabel p.mirrors]
    cases d.signature p.catalog with
    | error halt => exact halted_relabel p (.func d) halt
    | ok s =>
      simp only [Relabeling.halted, FuncDecl.relabel] at hp ⊢
      rw [hp]
      rfl
  | const _ | struct _ | foreign _ => rfl

theorem isMirrored_body {b b' : Builtins}
    (hb : ∀ name, b'.lookup (φ.name name) = (b.lookup name).map (Signature.relabel φ)) :
    IsMirrored φ (body b) (body b') := by
  intro p d
  cases d with
  | func d =>
    have hfunction : ((p.relabel φ).function? (φ.name d.name)).bind FunctionInfo.signature
        = ((p.function? d.name).bind FunctionInfo.signature).map (Signature.relabel φ) := by
      rw [Progress.function?, Progress.function?, Progress.relabel, FunctionInfo.find?_relabel]
      cases p.functions.find? fun f => f.name = d.name <;> rfl
    have hname : (d.relabel φ).name = φ.name d.name := rfl
    simp only [body, Decl.relabel, hname, hfunction]
    cases (p.function? d.name).bind FunctionInfo.signature with
    | none => rfl
    | some s =>
      simp only [Option.map_some, d.resolveBody_relabel hb p.mirrors s]
      cases d.resolveBody b p.catalog s with
      | error m => rfl
      | ok r =>
        obtain ⟨d', entered⟩ := r
        have hp : ((p.relabel φ).modifyCatalog fun c =>
              { c with finished := Catalog.finish c.finished (entered.relabel φ).scope }).modifyFunction
                (φ.name d'.name) (fun i => { i with entered := some (entered.relabel φ) })
            = ((p.modifyCatalog fun c => { c with finished := Catalog.finish c.finished entered.scope }).modifyFunction
                d'.name fun i => { i with entered := some entered }).relabel φ := by
          rw [p.modifyCatalog_relabel (f := fun c => { c with finished := Catalog.finish c.finished entered.scope })]
          · refine Progress.modifyFunction_relabel ?_ _ d'.name
            intro i
            rfl
          · intro c
            simp [Catalog.relabel, Entered.relabel, Catalog.finish_relabel]
        simp only [Except.map, bind, Except.bind, pure, Except.pure, FuncDecl.relabel] at hp ⊢
        rw [hp]
        rfl
  | const _ | var _ | struct _ | foreign _ => rfl

theorem isMirrored_ofPhase {b b' : Builtins}
    (hb : ∀ name, b'.lookup (φ.name name) = (b.lookup name).map (Signature.relabel φ)) (phase : Phase) :
    IsMirrored φ (ofPhase b phase) (ofPhase b' phase) := by
  cases phase with
  | registration => exact isMirrored_register
  | constants => exact isMirrored_constant
  | fields => exact isMirrored_fields
  | containment => exact isMirrored_containment
  | headers => exact isMirrored_header
  | bodies => exact isMirrored_body hb

end Step

/-! ## Phases -/

namespace Phase

variable (phase : Phase)

/-- A phase does in other labels what it does in the old ones. -/
theorem run_relabel {step step' : Step} (h : step.IsMirrored φ step') (p : Progress) (es : List Entry) :
    (phase.run step' (p.relabel φ) (es.map (Entry.relabel φ))).toOption
      = (phase.run step p es).toOption.map fun r => (r.1.relabel φ, r.2.map (Entry.relabel φ)) := by
  induction es generalizing p with
  | nil => rfl
  | cons e es ih =>
    obtain ⟨d, failure⟩ := e
    cases failure with
    | some failure =>
      rw [List.map_cons, run_failed phase rfl, run_failed phase rfl, Except.toOption_bind, Except.toOption_bind, ih]
      cases (phase.run step p es).toOption <;> rfl
    | none =>
      have hentry : Entry.relabel φ ⟨d, none⟩ = ⟨d.relabel φ, none⟩ := rfl
      rw [List.map_cons, hentry, run_cons, run_cons, Except.toOption_bind, Except.toOption_bind, h p d]
      cases (step p d).toOption with
      | none => rfl
      | some r =>
        obtain ⟨p', d', problem⟩ := r
        simp only [Option.map_some, Option.bind_some, Relabeling.stepped, Except.toOption_bind, ih]
        cases (phase.run step p' es).toOption with
        | none => rfl
        | some r => cases problem <;> rfl

theorem runAll_relabel {b b' : Builtins}
    (hb : ∀ name, b'.lookup (φ.name name) = (b.lookup name).map (Signature.relabel φ)) (p : Progress) (es : List Entry)
    (phases : List Phase) :
    (runAll b' (p.relabel φ) (es.map (Entry.relabel φ)) phases).toOption
      = (runAll b p es phases).toOption.map fun r => (r.1.relabel φ, r.2.map (Entry.relabel φ)) := by
  induction phases generalizing p es with
  | nil => rfl
  | cons phase phases ih =>
    rw [runAll, runAll, Except.toOption_bind, Except.toOption_bind,
      phase.run_relabel (Step.isMirrored_ofPhase hb phase) p es]
    cases (phase.run (Step.ofPhase b phase) p es).toOption with
    | none => rfl
    | some r => exact ih r.1 r.2

end Phase

/-- A unit is resolved in other labels as in the old ones. -/
theorem Program.resolve_relabel {b b' : Builtins}
    (hb : ∀ name, b'.lookup (φ.name name) = (b.lookup name).map (Signature.relabel φ)) (p : Program) :
    ((p.relabel φ).resolve b').toOption = (p.resolve b).toOption.map (Resolution.relabel φ) := by
  have hrun := Phase.runAll_relabel hb {} (p.decls.map fun decl => { decl }) Phase.all
  rw [List.map_map] at hrun
  have hentries : (p.relabel φ).decls.map (fun decl => ({ decl } : Entry))
      = p.decls.map (Entry.relabel φ ∘ fun decl => { decl }) := by
    rw [relabel, List.map_map]
    rfl
  rw [resolve, resolve, Except.toOption_bind, Except.toOption_bind, hentries]
  have hempty : ({} : Progress).relabel φ = {} := rfl
  rw [hempty] at hrun
  rw [hrun]
  cases (Phase.runAll b {} (p.decls.map fun decl => { decl }) Phase.all).toOption <;> rfl

theorem Resolution.problems_relabel (r : Resolution) :
    (r.relabel φ).problems = r.problems.map (Problem.relabel φ) := by
  have hentry (phase : Phase) (e : Entry) :
      (e.relabel φ).problemIn? phase = (e.problemIn? phase).map (Problem.relabel φ) := by
    obtain ⟨d, failure⟩ := e
    cases failure with
    | none => rfl
    | some failure =>
      by_cases hp : failure.1 = phase
      · simp [Entry.relabel, Entry.problemIn?, Option.filter, hp]
      · simp [Entry.relabel, Entry.problemIn?, Option.filter, hp]
  simp only [problems, relabel, List.map_flatMap, List.filterMap_map, List.map_filterMap, Function.comp_def, hentry]

end FlatScope
