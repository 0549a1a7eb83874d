/-
  How far a declaration has got. Behind some phases, what is known under the name of a declaration tells in which of them it
  failed, or that it did not (`Entry.IsAt`): a constant or a variable has a type, a struct is complete, a function has
  a signature and then a body. Every phase takes each declaration one stage further, and leaves those alone that are
  none of its business (`Step.Advances`).
-/
import FlatScope.Proofs.Accounting.Records

namespace FlatScope

/-! ## Stages -/

/-- The stages of what is resolved in a single phase, `due`, when the phases in `past` are over. -/
inductive Stage (due : Phase) (past : List Phase) : (failure : Option (Phase × Problem)) → (isKnown : Bool) → Prop
  | waiting (h : due ∉ past) : Stage due past none false
  | failed (h : due ∈ past) (problem : Problem) : Stage due past (some (due, problem)) false
  | known (h : due ∈ past) : Stage due past none true

/-- The stages of a struct: it gets its fields, and then it is looked for inside itself. -/
inductive StructStage (past : List Phase) : (failure : Option (Phase × Problem)) → (isComplete : Bool) → Prop
  | waiting (h : .fields ∉ past) : StructStage past none false
  | failed (h : .fields ∈ past) (problem : Problem) : StructStage past (some (.fields, problem)) false
  | complete (h : .fields ∈ past) : StructStage past none true
  | selfContaining (h : .fields ∈ past) (h' : .containment ∈ past) (problem : Problem) :
    StructStage past (some (.containment, problem)) false

/-- The stages of a function: it gets its signature, and then its body is entered. -/
inductive FunctionStage (name : String) (past : List Phase) :
    (failure : Option (Phase × Problem)) → (global : Symbol) → FunctionInfo → (scope : Option LocalScope) → Prop
  | waiting {s : Symbol} {f : FunctionInfo} (h : .headers ∉ past) (hty : s.ty = none) (hf : f.signature = none)
    (he : f.entered = none) : FunctionStage name past none s f none
  | failed {s : Symbol} {f : FunctionInfo} (h : .headers ∈ past) (problem : Problem) (hty : s.ty = none)
    (hf : f.signature = none) (he : f.entered = none) : FunctionStage name past (some (.headers, problem)) s f none
  | headed {s : Symbol} {f : FunctionInfo} (h : .headers ∈ past) (h' : .bodies ∉ past) (signature : Signature)
    (hty : s.ty = some signature.ty) (hf : f.signature = some signature) (he : f.entered = none) :
    FunctionStage name past none s f none
  | entered {s : Symbol} {f : FunctionInfo} (h : .headers ∈ past) (h' : .bodies ∈ past) (signature : Signature) (e : Entered)
    (hty : s.ty = some signature.ty) (hf : f.signature = some signature) (he : f.entered = some e)
    (hscope : e.scope.function = name) : FunctionStage name past (e.problem.map (.bodies, ·)) s f (some e.scope)

/-- What is known under the name of an entry is what there is when the phases in `past` are over. -/
def Entry.IsAt (past : List Phase) (r : Record) (e : Entry) : Prop :=
  match e.decl with
  | .const _ => ∃ s, r = { global := some s } ∧ s.kind = .const ∧ Stage .constants past e.failure s.ty.isSome
  | .var _ => ∃ s, r = { global := some s } ∧ s.kind = .var ∧ Stage .headers past e.failure s.ty.isSome
  | .struct _ => ∃ s i, r = { global := some s, struct := some i } ∧ s.kind = .struct ∧ s.ty.isSome = true
    ∧ StructStage past e.failure i.isComplete
  | .func d => ∃ s f scope, r = { global := some s, function := some f, scope } ∧ s.kind = .func
    ∧ FunctionStage d.name past e.failure s f scope
  | .foreign _ => False

namespace Stage

variable {due phase : Phase} {past : List Phase} {failure : Option (Phase × Problem)} {isKnown : Bool}

theorem mem_cons_iff (h : due ≠ phase) : due ∈ phase :: past ↔ due ∈ past := by
  rw [List.mem_cons, or_iff_right h]

/-- A phase that has nothing to do here. -/
theorem pass (h : Stage due past failure isKnown) (hphase : due ≠ phase) : Stage due (phase :: past) failure isKnown := by
  cases h with
  | waiting h => exact .waiting (mt (mem_cons_iff hphase).mp h)
  | failed h problem => exact .failed ((mem_cons_iff hphase).mpr h) problem
  | known h => exact .known ((mem_cons_iff hphase).mpr h)

/-- A failure stays. -/
theorem skip (h : Stage due past failure isKnown) (hf : failure.isSome = true) : Stage due (phase :: past) failure isKnown := by
  cases h with
  | waiting h => cases hf
  | failed h problem => exact .failed (List.mem_cons_of_mem _ h) problem
  | known h => cases hf

end Stage

namespace StructStage

variable {phase : Phase} {past : List Phase} {failure : Option (Phase × Problem)} {isComplete : Bool}

theorem pass (h : StructStage past failure isComplete) (hphase : .fields ≠ phase) : StructStage (phase :: past) failure isComplete := by
  cases h with
  | waiting h => exact .waiting (mt (Stage.mem_cons_iff hphase).mp h)
  | failed h problem => exact .failed (List.mem_cons_of_mem _ h) problem
  | complete h => exact .complete (List.mem_cons_of_mem _ h)
  | selfContaining h h' problem => exact .selfContaining (List.mem_cons_of_mem _ h) (List.mem_cons_of_mem _ h') problem

theorem skip (h : StructStage past failure isComplete) (hf : failure.isSome = true) :
    StructStage (phase :: past) failure isComplete := by
  cases h with
  | waiting h | complete h => cases hf
  | failed h problem => exact .failed (List.mem_cons_of_mem _ h) problem
  | selfContaining h h' problem => exact .selfContaining (List.mem_cons_of_mem _ h) (List.mem_cons_of_mem _ h') problem

end StructStage

namespace FunctionStage

variable {phase : Phase} {past : List Phase} {failure : Option (Phase × Problem)} {name : String} {s : Symbol}
  {f : FunctionInfo} {scope : Option LocalScope}

theorem pass (h : FunctionStage name past failure s f scope) (hheaders : .headers ≠ phase) (hbodies : .bodies ≠ phase) :
    FunctionStage name (phase :: past) failure s f scope := by
  cases h with
  | waiting h hty hf he => exact .waiting (mt (Stage.mem_cons_iff hheaders).mp h) hty hf he
  | failed h problem hty hf he => exact .failed (List.mem_cons_of_mem _ h) problem hty hf he
  | headed h h' signature hty hf he =>
    exact .headed (List.mem_cons_of_mem _ h) (mt (Stage.mem_cons_iff hbodies).mp h') signature hty hf he
  | entered h h' signature e hty hf he hscope =>
    exact .entered (List.mem_cons_of_mem _ h) (List.mem_cons_of_mem _ h') signature e hty hf he hscope

theorem skip (h : FunctionStage name past failure s f scope) (hf : failure.isSome = true) :
    FunctionStage name (phase :: past) failure s f scope := by
  cases h with
  | waiting h | headed h => cases hf
  | failed h problem hty hf he => exact .failed (List.mem_cons_of_mem _ h) problem hty hf he
  | entered h h' signature e hty hf he hscope =>
    exact .entered (List.mem_cons_of_mem _ h) (List.mem_cons_of_mem _ h') signature e hty hf he hscope

end FunctionStage

/-- The phases in which a declaration is resolved. -/
def Decl.dues : Decl → List Phase
  | const _ => [.constants]
  | var _ => [.headers]
  | struct _ => [.fields, .containment]
  | func _ => [.headers, .bodies]
  | foreign _ => []

namespace Entry

variable {phase : Phase} {past : List Phase} {r : Record} {e : Entry}

/-- A failed entry stays where it is. -/
theorem IsAt.skip (h : e.IsAt past r) (hf : e.failure.isSome = true) : e.IsAt (phase :: past) r := by
  obtain ⟨d, failure⟩ := e
  cases d with
  | const d | var d =>
    obtain ⟨s, hr, hkind, hs⟩ := h
    exact ⟨s, hr, hkind, hs.skip hf⟩
  | struct d =>
    obtain ⟨s, i, hr, hkind, hty, hs⟩ := h
    exact ⟨s, i, hr, hkind, hty, hs.skip hf⟩
  | func d =>
    obtain ⟨s, f, scope, hr, hkind, hs⟩ := h
    exact ⟨s, f, scope, hr, hkind, hs.skip hf⟩
  | foreign node => exact h.elim

/-- An entry stays where it is in a phase that has nothing to do with it. -/
theorem IsAt.pass (h : e.IsAt past r) (hphase : phase ∉ e.decl.dues) : e.IsAt (phase :: past) r := by
  obtain ⟨d, failure⟩ := e
  cases d with
  | const d | var d =>
    obtain ⟨s, hr, hkind, hs⟩ := h
    exact ⟨s, hr, hkind, hs.pass (List.ne_of_not_mem_cons hphase).symm⟩
  | struct d =>
    obtain ⟨s, i, hr, hkind, hty, hs⟩ := h
    exact ⟨s, i, hr, hkind, hty, hs.pass (List.ne_of_not_mem_cons hphase).symm⟩
  | func d =>
    obtain ⟨s, f, scope, hr, hkind, hs⟩ := h
    have hbodies : phase ∉ [Phase.bodies] := List.not_mem_of_not_mem_cons hphase
    exact ⟨s, f, scope, hr, hkind, hs.pass (List.ne_of_not_mem_cons hphase).symm (List.ne_of_not_mem_cons hbodies).symm⟩
  | foreign node => exact h.elim

end Entry

/-! ## Steps -/

/-- The step of a phase takes every declaration one stage further, behind the phases that are over. -/
def Step.Advances (step : Step) (phase : Phase) (past : List Phase) : Prop :=
  ∀ p d name p' d' problem, d.name? = some name → Entry.IsAt past (p.record name) ⟨d, none⟩ →
    step p d = .ok (p', d', problem) → Entry.IsAt (phase :: past) (p'.record name) ⟨d', problem.map (phase, ·)⟩

namespace Step

variable {phase : Phase} {past : List Phase}

theorem advances_constant (hover : .constants ∉ past) : Advances constant .constants past := by
  intro p d name p' d' problem hname h hstep
  cases d with
  | const d =>
    obtain ⟨s, hr, hkind, hs⟩ := h
    obtain rfl : d.name = name := Option.some.inj hname
    obtain ⟨i, -, rfl, rfl, rfl⟩ | ⟨rfl, rfl, q, rfl⟩ := constant_cases hstep
    · refine ⟨{ s with ty := some i.ty, value := i.constant }, ?_, hkind, .known List.mem_cons_self⟩
      rw [Progress.record_evaluate, if_pos rfl, hr]
      rfl
    · refine ⟨s, hr, hkind, ?_⟩
      cases hty : s.ty.isSome with
      | false => exact .failed List.mem_cons_self q
      | true =>
        rw [hty] at hs
        cases hs with
        | known hmem => exact absurd hmem hover
  | var _ | struct _ | func _ | foreign _ =>
    obtain ⟨rfl, rfl, rfl⟩ := (ignores_constant rfl).cases hstep
    exact h.pass (by simp [Decl.dues])

theorem advances_fields : Advances fields .fields past := by
  intro p d name p' d' problem hname h hstep
  cases d with
  | struct d =>
    obtain ⟨s, i, hr, hkind, hty, -⟩ := h
    obtain rfl : d.name = name := Option.some.inj hname
    obtain ⟨rfl, known, rfl, -⟩ := fields_cases hstep
    refine ⟨s, { i with fields := known, isComplete := problem.isNone }, ?_, hkind, hty, ?_⟩
    · have hrevise (i : StructInfo) : { i with fields := known, isComplete := problem.isNone }.name = i.name := rfl
      rw [Progress.record_revise hrevise, if_pos rfl, hr]
      rfl
    · cases problem with
      | none => exact .complete List.mem_cons_self
      | some q => exact .failed List.mem_cons_self q
  | const _ | var _ | func _ | foreign _ =>
    obtain ⟨rfl, rfl, rfl⟩ := (show Ignores fields _ from fun _ => rfl).cases hstep
    exact h.pass (by simp [Decl.dues])

theorem advances_containment (hover : .fields ∈ past) : Advances containment .containment past := by
  intro p d name p' d' problem hname h hstep
  cases d with
  | struct d =>
    obtain ⟨s, i, hr, hkind, hty, hs⟩ := h
    obtain rfl : d.name = name := Option.some.inj hname
    obtain ⟨rfl, ⟨rfl, rfl⟩ | ⟨cycle, rfl, rfl⟩⟩ := containment_cases hstep
    · exact ⟨s, i, hr, hkind, hty, hs.pass nofun⟩
    · refine ⟨s, { i with isComplete := false }, ?_, hkind, hty, ?_⟩
      · have hrecord := Progress.record_revise (f := fun i => { i with isComplete := false }) (fun _ => rfl) p d.name d.name
        rw [if_pos rfl, hr] at hrecord
        exact hrecord
      · exact .selfContaining (List.mem_cons_of_mem _ hover) List.mem_cons_self _
  | const _ | var _ | func _ | foreign _ =>
    obtain ⟨rfl, rfl, rfl⟩ := (show Ignores containment _ from fun _ => rfl).cases hstep
    exact h.pass (by simp [Decl.dues])

theorem advances_header (hheaders : .headers ∉ past) (hbodies : .bodies ∉ past) : Advances header .headers past := by
  intro p d name p' d' problem hname h hstep
  cases d with
  | var d =>
    obtain ⟨s, hr, hkind, hs⟩ := h
    obtain rfl : d.name = name := Option.some.inj hname
    obtain ⟨rfl, ⟨name, t, signature, hheader, rfl, rfl⟩ | ⟨rfl, q, rfl⟩⟩ := header_cases rfl hstep
    · obtain ⟨t', -, hheader⟩ := Except.map_eq_ok.mp hheader
      obtain ⟨rfl, -⟩ := Prod.mk.inj hheader
      refine ⟨{ s with ty := some t }, ?_, hkind, .known List.mem_cons_self⟩
      rw [Progress.record_settle, if_pos rfl, hr]
      rfl
    · refine ⟨s, hr, hkind, ?_⟩
      cases hty : s.ty.isSome with
      | false => exact .failed List.mem_cons_self q
      | true =>
        rw [hty] at hs
        cases hs with
        | known hmem => exact absurd hmem hheaders
  | func d =>
    obtain ⟨s, f, scope, hr, hkind, hs⟩ := h
    obtain rfl : d.name = name := Option.some.inj hname
    generalize hfailure : (Entry.mk (.func d) none).failure = failure at hs
    cases hs with
    | failed => cases hfailure
    | headed hmem | entered hmem => exact absurd hmem hheaders
    | waiting _ hty hf he =>
      obtain ⟨rfl, ⟨name, t, signature, hheader, rfl, rfl⟩ | ⟨rfl, q, rfl⟩⟩ := header_cases rfl hstep
      · obtain ⟨signature', -, hheader⟩ := Except.map_eq_ok.mp hheader
        obtain ⟨rfl, hsettled⟩ := Prod.mk.inj hheader
        obtain ⟨rfl, rfl⟩ := Prod.mk.inj hsettled
        refine ⟨{ s with ty := some signature'.ty }, { f with signature := some signature' }, none, ?_, hkind, ?_⟩
        · rw [Progress.record_settle, if_pos rfl, hr]
          rfl
        · have hahead : .bodies ∉ .headers :: past := fun hmem => hbodies ((List.mem_cons.mp hmem).resolve_left nofun)
          exact .headed List.mem_cons_self hahead signature' rfl rfl he
      · exact ⟨s, f, none, hr, hkind, .failed List.mem_cons_self q hty hf he⟩
  | const _ | struct _ | foreign _ =>
    obtain ⟨rfl, rfl, rfl⟩ := (show Ignores header _ from fun _ => rfl).cases hstep
    exact h.pass (by simp [Decl.dues])

theorem advances_body (b : Builtins) (hheaders : .headers ∈ past) (hbodies : .bodies ∉ past) :
    Advances (body b) .bodies past := by
  intro p d name p' d' problem hname h hstep
  cases d with
  | func d =>
    obtain ⟨s, f, scope, hr, hkind, hs⟩ := h
    obtain rfl : d.name = name := Option.some.inj hname
    generalize hfailure : (Entry.mk (.func d) none).failure = failure at hs
    cases hs with
    | waiting hmem => exact absurd hheaders hmem
    | failed => cases hfailure
    | entered _ hmem => exact absurd hmem hbodies
    | headed _ _ signature hty hf he =>
      have hfunction : p.function? d.name = some f := congrArg Record.function hr
      obtain ⟨hnone, -⟩ | ⟨signature', f', e, hsome, hbody, rfl, rfl, rfl⟩ := body_eq_ok.mp hstep
      · rw [hfunction, Option.bind_some, hf] at hnone
        cases hnone
      · obtain ⟨hname', hscope⟩ := FuncDecl.name_of_resolveBody hbody
        refine ⟨s, { f with entered := some e }, some e.scope, ?_, hkind, ?_⟩
        · rw [p.record_enter hscope, if_pos rfl, hr]
          rfl
        · exact .entered (List.mem_cons_of_mem _ hheaders) List.mem_cons_self signature e hty hf rfl (hscope.trans hname'.symm)
  | const _ | var _ | struct _ | foreign _ =>
    obtain ⟨rfl, rfl, rfl⟩ := (show Ignores (body b) _ from fun _ => rfl).cases hstep
    exact h.pass (by simp [Decl.dues])

end Step

/-! ## The last stage -/

/-- Everything is found out that there is to find out under a name: its symbol has a type, a struct all its fields, and
a function a body without a problem. -/
def Record.IsResolved (r : Record) : Prop :=
  ∃ s, r.global = some s ∧ s.ty.isSome = true
    ∧ (s.kind = .struct → ∃ i, r.struct = some i ∧ i.isComplete = true)
    ∧ (s.kind = .func → ∃ f, r.function = some f ∧ f.state = .done)

namespace FunctionInfo

variable {f : FunctionInfo}

theorem state_of_entered {e : Entered} (h : f.entered = some e) : f.state = if e.problem.isNone then .done else .failed := by
  rw [state, h]

theorem state_of_not_entered (h : f.entered = none) : f.state = .waiting := by rw [state, h]

end FunctionInfo

theorem Stage.failure_iff {due : Phase} {past : List Phase} {failure : Option (Phase × Problem)} {isKnown : Bool}
    (h : Stage due past failure isKnown) (hdue : due ∈ past) : failure = none ↔ isKnown = true := by
  cases h with
  | waiting h => exact absurd hdue h
  | failed => exact iff_of_false nofun nofun
  | known => exact iff_of_true rfl rfl

theorem StructStage.failure_iff {past : List Phase} {failure : Option (Phase × Problem)} {isComplete : Bool}
    (h : StructStage past failure isComplete) (hfields : .fields ∈ past) : failure = none ↔ isComplete = true := by
  cases h with
  | waiting h => exact absurd hfields h
  | failed | selfContaining => exact iff_of_false nofun nofun
  | complete => exact iff_of_true rfl rfl

theorem FunctionStage.failure_iff {name : String} {past : List Phase} {failure : Option (Phase × Problem)} {s : Symbol}
    {f : FunctionInfo} {scope : Option LocalScope} (h : FunctionStage name past failure s f scope)
    (hheaders : .headers ∈ past) (hbodies : .bodies ∈ past) : failure = none ↔ s.ty.isSome = true ∧ f.state = .done := by
  cases h with
  | waiting h => exact absurd hheaders h
  | headed _ h => exact absurd hbodies h
  | failed h problem hty hf he =>
    refine iff_of_false nofun ?_
    rw [hty]
    nofun
  | entered _ _ signature e hty hf he =>
    rw [hty, FunctionInfo.state_of_entered he]
    cases e.problem with
    | none => exact iff_of_true rfl ⟨rfl, rfl⟩
    | some problem => exact iff_of_false nofun nofun

/-- A declaration that has got its name fails exactly if something about it is not found out. -/
theorem Entry.IsAt.failure_iff {r : Record} {e : Entry} (h : e.IsAt Phase.all.reverse r) : e.failure = none ↔ r.IsResolved := by
  obtain ⟨d, failure⟩ := e
  cases d with
  | const d | var d =>
    obtain ⟨s, rfl, hkind, hs⟩ := h
    rw [hs.failure_iff (by decide)]
    constructor
    · intro hty
      exact ⟨s, rfl, hty, by rw [hkind]; nofun, by rw [hkind]; nofun⟩
    · rintro ⟨s', hs', hty, -⟩
      rwa [Option.some.inj hs']
  | struct d =>
    obtain ⟨s, i, rfl, hkind, hty, hs⟩ := h
    rw [hs.failure_iff (by decide)]
    constructor
    · intro hcomplete
      exact ⟨s, rfl, hty, fun _ => ⟨i, rfl, hcomplete⟩, by rw [hkind]; nofun⟩
    · rintro ⟨s', hs', -, hstruct, -⟩
      obtain rfl := Option.some.inj hs'
      obtain ⟨i', hi', hcomplete⟩ := hstruct hkind
      rwa [Option.some.inj hi']
  | func d =>
    obtain ⟨s, f, scope, rfl, hkind, hs⟩ := h
    rw [hs.failure_iff (by decide) (by decide)]
    constructor
    · rintro ⟨hty, hstate⟩
      exact ⟨s, rfl, hty, by rw [hkind]; nofun, fun _ => ⟨f, rfl, hstate⟩⟩
    · rintro ⟨s', hs', hty, -, hfunc⟩
      obtain rfl := Option.some.inj hs'
      obtain ⟨f', hf', hstate⟩ := hfunc hkind
      exact ⟨hty, Option.some.inj hf' ▸ hstate⟩
  | foreign node => exact h.elim

/-- What is known of a struct belongs to a struct. -/
theorem Entry.IsAt.kind_of_struct {past : List Phase} {r : Record} {e : Entry} (h : e.IsAt past r) {i : StructInfo}
    (hi : r.struct = some i) : ∃ s, r.global = some s ∧ s.kind = .struct := by
  obtain ⟨d, failure⟩ := e
  cases d with
  | struct d =>
    obtain ⟨s, _, rfl, hkind, -⟩ := h
    exact ⟨s, rfl, hkind⟩
  | const d | var d =>
    obtain ⟨s, rfl, -⟩ := h
    cases hi
  | func d =>
    obtain ⟨s, f, scope, rfl, -⟩ := h
    cases hi
  | foreign node => exact h.elim

end FlatScope
