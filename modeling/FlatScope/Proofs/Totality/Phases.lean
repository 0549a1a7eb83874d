/-
  Phases that give up. A step asks for what it is going to change: a constant, a variable or a function for its global
  symbol, a struct for its fields, a function for what is known of it; a symbol is registered only if it is global, and types
  are resolved only while constants of type `int` are integers. A declaration that has got its name has all this at
  every stage, and steps keep the integers; so a phase that goes through does not give up (`Phase.guardedRun_eq`).
-/
import FlatScope.Proofs.Accounting.Unit
import FlatScope.Proofs.Totality.Body

namespace FlatScope

namespace Progress

/-- Gives up unless there is a global symbol of the name. -/
def needGlobal (p : Progress) (name : String) : Except Breach Unit :=
  if (p.catalog.lookupGlobal name).isSome then .ok () else .error (.noGlobal name)

/-- Gives up unless there is a struct of the name. -/
def needStruct (p : Progress) (name : String) : Except Breach Unit :=
  if (p.catalog.struct? name).isSome then .ok () else .error (.noStruct name)

/-- Gives up unless there is a function of the name. -/
def needFunction (p : Progress) (name : String) : Except Breach Unit :=
  if (p.function? name).isSome then .ok () else .error (.noFunction name)

end Progress

namespace Step

/-- What a phase does with one declaration, unless it gives up. -/
abbrev Guarded := Progress → Decl → Except Breach (Progress × Decl × Option Problem)

/-- Gives up unless there is what the step of a phase works on. -/
def access (p : Progress) : Phase → Decl → Except Breach Unit
  | .registration, d => do
    let s ← (symbol d).mapError Breach.misplaced
    match p.catalog.declareGlobal s with
    | .ok _ | .error (.duplicate _) => return ()
    | .error refusal => throw (.refused refusal)
  | .constants, .const d => p.needGlobal d.name
  | .fields, .struct d => do
    p.catalog.checkIntegers
    p.needStruct d.name
  | .containment, .struct d => p.needStruct d.name
  | .headers, .var d => do
    p.catalog.checkIntegers
    p.needGlobal d.name
  | .headers, .func d => do
    p.catalog.checkIntegers
    p.needGlobal d.name
    p.needFunction d.name
  | _, _ => return ()

/-- Resolves the body of a function with its scope in the catalog. -/
def guardedBody (b : Builtins) : Guarded := fun p d =>
  match d with
  | .func d =>
    match (p.function? d.name).bind FunctionInfo.signature with
    | none => .ok (p, .func d, none)
    | some signature => do
      let (d, entered, catalog) ← d.guardedBody b p.catalog signature
      let p := { p with catalog }.modifyFunction d.name fun i => { i with entered := some entered }
      return (p, .func d, entered.problem)
  | d => .ok (p, d, none)

/-- The step of a phase, behind what it asks for. -/
def accessing (b : Builtins) (phase : Phase) : Guarded := fun p d => do
  access p phase d
  (ofPhase b phase p d).mapError Breach.misplaced

/-- The step of a phase, unless it gives up. -/
def guarded (b : Builtins) : Phase → Guarded
  | .bodies => guardedBody b
  | phase => accessing b phase

end Step

namespace Phase

/-- Goes through the declarations that have not failed. -/
def guardedRun (phase : Phase) (step : Step.Guarded) (p : Progress) : List Entry → Except Breach (Progress × List Entry)
  | [] => return (p, [])
  | e :: es => do
    if e.failure.isSome then
      let (p, es) ← phase.guardedRun step p es
      return (p, e :: es)
    else
      let (p, decl, problem) ← step p e.decl
      let (p, es) ← phase.guardedRun step p es
      return (p, { decl, failure := problem.map (phase, ·) } :: es)

/-- Runs phases one after another. -/
def guardedRunAll (b : Builtins) (p : Progress) (es : List Entry) : List Phase → Except Breach (Progress × List Entry)
  | [] => return (p, es)
  | phase :: phases => do
    let (p, es) ← phase.guardedRun (Step.guarded b phase) p es
    guardedRunAll b p es phases

end Phase

/-! ## What is there -/

/-- There is all that the steps behind the registration work on: the entries that have got their names are at their
stages, constants of type `int` are integers, and no scope is open. -/
structure Progress.IsReady (p : Progress) (past : List Phase) (es : List Entry) : Prop where
  apart : es.Pairwise Entry.IsApart
  stages : Phase.Holds (Entry.IsAt past) p es
  nodup : (p.catalog.globals.map Symbol.name).Nodup
  integers : p.catalog.HasIntegers
  current : p.catalog.current = none

namespace Entry.IsAt

variable {past : List Phase} {p : Progress} {failure : Option (Phase × Problem)}

/-- There is a global symbol, and it is that of a constant only if a constant is declared. -/
theorem exists_global {e : Entry} {name : String} (h : e.IsAt past (p.record name)) :
    ∃ s, p.catalog.lookupGlobal name = some s ∧ (s.kind = .const → ∃ d, e.decl = .const d) := by
  obtain ⟨d, failure⟩ := e
  cases d with
  | const d =>
    obtain ⟨s, hr, -⟩ := h
    exact ⟨s, congrArg Record.global hr, fun _ => ⟨d, rfl⟩⟩
  | var d =>
    obtain ⟨s, hr, hkind, -⟩ := h
    exact ⟨s, congrArg Record.global hr, fun hconst => nomatch hkind.symm.trans hconst⟩
  | struct d =>
    obtain ⟨s, i, hr, hkind, -⟩ := h
    exact ⟨s, congrArg Record.global hr, fun hconst => nomatch hkind.symm.trans hconst⟩
  | func d =>
    obtain ⟨s, f, scope, hr, hkind, -⟩ := h
    exact ⟨s, congrArg Record.global hr, fun hconst => nomatch hkind.symm.trans hconst⟩
  | foreign node => exact h.elim

theorem needGlobal {e : Entry} {name : String} (h : e.IsAt past (p.record name)) : p.needGlobal name = .ok () := by
  obtain ⟨s, hs, -⟩ := h.exists_global
  rw [Progress.needGlobal, hs]
  rfl

theorem needStruct {d : StructDecl} {name : String} (h : IsAt past (p.record name) ⟨.struct d, failure⟩) :
    p.needStruct name = .ok () := by
  obtain ⟨s, i, hr, -⟩ := h
  rw [Progress.needStruct, show p.catalog.struct? name = some i from congrArg Record.struct hr]
  rfl

theorem needFunction {d : FuncDecl} {name : String} (h : IsAt past (p.record name) ⟨.func d, failure⟩) :
    p.needFunction name = .ok () := by
  obtain ⟨s, f, scope, hr, -⟩ := h
  rw [Progress.needFunction, show p.function? name = some f from congrArg Record.function hr]
  rfl

/-- The symbol of a variable or a function is no constant. -/
theorem kind_ne_const {e : Entry} {name : String} (h : e.IsAt past (p.record name)) (he : ∀ d, e.decl ≠ .const d) {s : Symbol}
    (hs : p.catalog.lookupGlobal name = some s) : s.kind ≠ .const := by
  obtain ⟨s', hs', hkind⟩ := h.exists_global
  obtain rfl := Option.some.inj (hs.symm.trans hs')
  intro hconst
  obtain ⟨d, hd⟩ := hkind hconst
  exact he d hd

end Entry.IsAt

/-! ## Integers are kept -/

theorem Symbol.lacksInteger_eq_false {s : Symbol} (h : s.kind = .const → s.ty = some .int → ∃ n, s.value = some (.int n)) :
    s.lacksInteger = false := by
  rw [lacksInteger]
  by_cases hkind : s.kind = .const
  · by_cases hty : s.ty = some .int
    · obtain ⟨n, hn⟩ := h hkind hty
      rw [hn, Bool.and_false]
    · rw [decide_eq_false hty, Bool.and_false, Bool.false_and]
  · rw [decide_eq_false hkind, Bool.false_and, Bool.false_and]

theorem Symbol.exists_integer {s : Symbol} (h : s.lacksInteger = false) (hkind : s.kind = .const) (hty : s.ty = some .int) :
    ∃ n, s.value = some (.int n) := by
  rw [lacksInteger, hkind, hty] at h
  cases hvalue : s.value with
  | none =>
    rw [hvalue] at h
    cases h
  | some value =>
    cases value with
    | int n => exact ⟨n, rfl⟩
    | real x =>
      rw [hvalue] at h
      cases h

/-- A constant of type `int` gets an integer, if those it can be initialized with are integers. -/
theorem ConstDecl.exists_integer {c : Catalog} (h : c.HasIntegers) {d : ConstDecl} {i : Initializer}
    (hi : d.initializer c = .ok i) (hty : i.ty = .int) : ∃ n, i.constant = some (.int n) := by
  obtain ⟨name, value, span⟩ := d
  rw [initializer] at hi
  cases value with
  | int n info =>
    obtain rfl := Except.ok.inj hi
    exact ⟨n, rfl⟩
  | real x info | byte n info =>
    obtain rfl := Except.ok.inj hi
    cases hty
  | ident name symbol info =>
    dsimp only at hi
    split at hi
    · cases hi
    · rename_i source hsource
      split at hi
      · cases hi
      · rename_i hkind
        split at hi
        · cases hi
        · rename_i ty hsourcety
          obtain rfl := Except.ok.inj hi
          obtain rfl : ty = .int := hty
          exact Symbol.exists_integer (h source (List.mem_of_find?_eq_some hsource)) (not_not.mp hkind) hsourcety
  | index _ _ _ | field _ _ _ | call _ _ _ | composite _ _ | addrOf _ _ | typeArg _ _ | foreign _ => cases hi

namespace Catalog.HasIntegers

variable {c : Catalog}

/-- Integers are kept by a change of the symbol of one name, if the changed symbol does not lack its integer. -/
theorem modifyGlobal (h : c.HasIntegers) {name : String} {f : Symbol → Symbol}
    (hf : ∀ s ∈ c.globals, s.name = name → (f s).lacksInteger = false) : (c.modifyGlobal name f).HasIntegers := by
  refine List.forall_mem_map.mpr fun s hs => ?_
  split
  · exact hf s hs ‹_›
  · exact h s hs

end Catalog.HasIntegers

namespace Step

variable {past : List Phase} {p p' : Progress} {d d' : Decl} {es : List Entry} {problem : Option Problem}

theorem lacksInteger_symbol {s : Symbol} (h : symbol d = .ok s) : s.lacksInteger = false := by
  refine Symbol.lacksInteger_eq_false fun _ hty => ?_
  cases d with
  | const d | var d | struct d | func d =>
    obtain rfl := Except.ok.inj h
    cases hty
  | foreign node => cases h

theorem hasIntegers_register (h : p.catalog.HasIntegers) (hstep : register p d = .ok (p', d', problem)) :
    p'.catalog.HasIntegers := by
  obtain ⟨s, hs, -, ⟨previous, -, rfl, -⟩ | ⟨-, rfl, -⟩⟩ := register_eq_ok.mp hstep
  · exact h
  · exact List.forall_mem_append.mpr ⟨h, List.forall_mem_singleton.mpr (lacksInteger_symbol hs)⟩

theorem hasIntegers_constant (h : p.catalog.HasIntegers) (hstep : constant p d = .ok (p', d', problem)) :
    p'.catalog.HasIntegers := by
  cases d with
  | const d =>
    obtain ⟨i, hi, rfl, -⟩ | ⟨rfl, -⟩ := constant_cases hstep
    · refine h.modifyGlobal fun s _ _ => Symbol.lacksInteger_eq_false fun _ hty => ?_
      exact d.exists_integer h hi (Option.some.inj hty)
    · exact h
  | var _ | struct _ | func _ | foreign _ =>
    rw [((ignores_constant rfl).cases hstep).1]
    exact h

theorem hasIntegers_header (h : p.IsReady past (⟨d, none⟩ :: es)) (hstep : header p d = .ok (p', d', problem)) :
    p'.catalog.HasIntegers := by
  cases hd : d.header? p.catalog with
  | none =>
    rw [((ignores_header hd).cases hstep).1]
    exact h.integers
  | some x =>
    obtain ⟨-, ⟨name, t, signature, rfl, rfl, -⟩ | ⟨rfl, -⟩⟩ := header_cases hd hstep
    · -- The symbol that gets the type is not one of a constant.
      have hname := (Decl.name?_of_header? hd).1
      have hat := h.stages _ List.mem_cons_self (.of_eq_none rfl) name hname
      have hconst : ∀ c, d ≠ .const c := by
        rintro c rfl
        cases hd
      refine h.integers.modifyGlobal fun s hs hsname => Symbol.lacksInteger_eq_false fun hkind _ => ?_
      have hfind : p.catalog.lookupGlobal name = some s := (Symbol.find?_eq_some_iff h.nodup).mpr ⟨hs, hsname⟩
      exact hat.kind_ne_const hconst hfind hkind |>.elim
    · exact h.integers

theorem globals_fields (hstep : fields p d = .ok (p', d', problem)) : p'.catalog.globals = p.catalog.globals := by
  cases d with
  | struct s =>
    obtain ⟨-, known, rfl, -⟩ := fields_cases hstep
    rfl
  | const _ | var _ | func _ | foreign _ => rw [((show Ignores fields _ from fun _ => rfl).cases hstep).1]

theorem globals_containment (hstep : containment p d = .ok (p', d', problem)) :
    p'.catalog.globals = p.catalog.globals := by
  cases d with
  | struct s =>
    obtain ⟨-, ⟨rfl, -⟩ | ⟨cycle, rfl, -⟩⟩ := containment_cases hstep <;> rfl
  | const _ | var _ | func _ | foreign _ => rw [((show Ignores containment _ from fun _ => rfl).cases hstep).1]

theorem globals_body {b : Builtins} (hstep : body b p d = .ok (p', d', problem)) :
    p'.catalog.globals = p.catalog.globals := by
  cases d with
  | func f => obtain ⟨-, rfl, -⟩ | ⟨s, f', e, -, -, rfl, -⟩ := body_eq_ok.mp hstep <;> rfl
  | const _ | var _ | struct _ | foreign _ => rw [((show Ignores (body b) _ from fun _ => rfl).cases hstep).1]

/-- Every step behind the registration keeps the integers. -/
theorem hasIntegers_ofPhase {b : Builtins} {phase : Phase} (hphase : phase ≠ .registration)
    (h : p.IsReady past (⟨d, none⟩ :: es)) (hstep : ofPhase b phase p d = .ok (p', d', problem)) :
    p'.catalog.HasIntegers := by
  cases phase with
  | registration => exact absurd rfl hphase
  | constants => exact hasIntegers_constant h.integers hstep
  | fields =>
    rw [Catalog.HasIntegers, globals_fields hstep]
    exact h.integers
  | containment =>
    rw [Catalog.HasIntegers, globals_containment hstep]
    exact h.integers
  | headers => exact hasIntegers_header h hstep
  | bodies =>
    rw [Catalog.HasIntegers, globals_body hstep]
    exact h.integers

/-! ## Steps do not give up -/

theorem accessing_eq {b : Builtins} {phase : Phase} (h : access p phase d = .ok ())
    (hstep : ofPhase b phase p d = .ok (p', d', problem)) : accessing b phase p d = .ok (p', d', problem) := by
  rw [accessing, h, hstep]
  rfl

theorem access_registration {s : Symbol} (h : symbol d = .ok s) : access p .registration d = .ok () := by
  have hlevel : s.level = .global := by
    cases d with
    | const d | var d | struct d | func d =>
      obtain rfl := Except.ok.inj h
      rfl
    | foreign node => cases h
  have hdeclare : p.catalog.declareGlobal s = (p.catalog.addGlobal s).mapError Catalog.Refusal.duplicate := by
    rw [Catalog.declareGlobal, if_neg (not_not.mpr hlevel)]
  rw [access, h]
  simp only [Except.mapError, bind, Except.bind, hdeclare]
  cases p.catalog.addGlobal s <;> rfl

/-- What the step of a phase works on is there. -/
theorem access_eq {phase : Phase} (hphase : phase ≠ .registration) (h : p.IsReady past (⟨d, none⟩ :: es)) :
    access p phase d = .ok () := by
  have hstage (name : String) (hname : d.name? = some name) : Entry.IsAt past (p.record name) ⟨d, none⟩ :=
    h.stages _ List.mem_cons_self (.of_eq_none rfl) name hname
  have hintegers : p.catalog.checkIntegers = .ok () :=
    Catalog.checkIntegers_eq h.integers (List.forall_mem_nil _) (by rw [h.current]; rfl)
  cases phase with
  | registration => exact absurd rfl hphase
  | constants =>
    cases d with
    | const d => exact (hstage d.name rfl).needGlobal
    | var _ | struct _ | func _ | foreign _ => rfl
  | fields =>
    cases d with
    | struct d =>
      rw [access, hintegers]
      exact (hstage d.name rfl).needStruct
    | const _ | var _ | func _ | foreign _ => rfl
  | containment =>
    cases d with
    | struct d => exact (hstage d.name rfl).needStruct
    | const _ | var _ | func _ | foreign _ => rfl
  | headers =>
    cases d with
    | var d =>
      rw [access, hintegers]
      exact (hstage d.name rfl).needGlobal
    | func d =>
      rw [access, hintegers, (hstage d.name rfl).needGlobal]
      exact (hstage d.name rfl).needFunction
    | const _ | struct _ | foreign _ => rfl
  | bodies => rfl

theorem guardedBody_eq {b : Builtins} (h : p.IsReady past (⟨d, none⟩ :: es)) (hstep : body b p d = .ok (p', d', problem)) :
    guardedBody b p d = .ok (p', d', problem) := by
  cases d with
  | func f =>
    rw [guardedBody]
    obtain ⟨hs, rfl, rfl, rfl⟩ | ⟨s, f', e, hs, hbody, rfl, rfl, rfl⟩ := body_eq_ok.mp hstep
    · rw [hs]
    · rw [hs]
      dsimp only
      rw [FuncDecl.guardedBody_eq h.integers h.current hbody, ← (FuncDecl.name_of_resolveBody hbody).1]
      rfl
  | const _ | var _ | struct _ | foreign _ =>
    obtain ⟨rfl, rfl, rfl⟩ := (show Ignores (body b) _ from fun _ => rfl).cases hstep
    rfl

theorem guarded_eq {b : Builtins} {phase : Phase} (hphase : phase ≠ .registration) (h : p.IsReady past (⟨d, none⟩ :: es))
    (hstep : ofPhase b phase p d = .ok (p', d', problem)) : guarded b phase p d = .ok (p', d', problem) := by
  cases phase with
  | registration => exact absurd rfl hphase
  | bodies => exact guardedBody_eq h hstep
  | constants | fields | containment | headers => exact accessing_eq (access_eq hphase h) hstep

end Step

/-! ## Phases do not give up -/

namespace Phase

variable {b : Builtins} {past : List Phase} {p p' : Progress} {es es' : List Entry}

theorem guardedRun_registration (b : Builtins) (h : p.catalog.HasIntegers) (hes : ∀ e ∈ es, e.failure = none)
    (hrun : Phase.registration.run Step.register p es = .ok (p', es')) :
    Phase.registration.guardedRun (Step.guarded b .registration) p es = .ok (p', es') ∧ p'.catalog.HasIntegers := by
  induction es generalizing p es' with
  | nil =>
    obtain ⟨rfl, rfl⟩ := Prod.mk.inj (Except.ok.inj hrun)
    exact ⟨rfl, h⟩
  | cons e es ih =>
    obtain ⟨d, failure⟩ := e
    obtain ⟨rfl, hfresh⟩ := List.forall_mem_cons.mp hes
    obtain ⟨q, d', problem, rest, hone, hrest, rfl⟩ := (run_cons_eq_ok _).mp hrun
    obtain ⟨hguarded, hintegers⟩ := ih (Step.hasIntegers_register h hone) hfresh hrest
    obtain ⟨s, hs, -⟩ := Step.register_eq_ok.mp hone
    have hstep : Step.guarded b .registration p d = .ok (q, d', problem) :=
      Step.accessing_eq (Step.access_registration hs) hone
    refine ⟨?_, hintegers⟩
    simp only [guardedRun, Option.isSome_none, Bool.false_eq_true, if_false, bind, Except.bind, hstep, hguarded]
    rfl

theorem isLocal_ofPhase {phase : Phase} (hphase : phase ≠ .registration) : (Step.ofPhase b phase).IsLocal := by
  cases phase with
  | registration => exact absurd rfl hphase
  | constants => exact Step.isLocal_constant
  | fields => exact Step.isLocal_fields
  | containment => exact Step.isLocal_containment
  | headers => exact Step.isLocal_header
  | bodies => exact Step.isLocal_body b

/-- Behind the step of a declaration there is all that the steps of the others work on. -/
theorem isReady_step {phase : Phase} {d d' : Decl} {problem : Option Problem} (hphase : phase ≠ .registration)
    (h : p.IsReady past (⟨d, none⟩ :: es)) (hstep : Step.ofPhase b phase p d = .ok (p', d', problem)) : p'.IsReady past es := by
  have hlocal : (Step.ofPhase b phase).IsLocal := isLocal_ofPhase hphase
  have hnames := hlocal.names hstep
  obtain ⟨hfirst, hapart⟩ := List.pairwise_cons.mp h.apart
  refine ⟨hapart, fun e he hr name hname => ?_, hnames.globals ▸ h.nodup, Step.hasIntegers_ofPhase hphase h hstep,
    hnames.current.trans h.current⟩
  rw [hlocal.record hstep fun hd => hfirst e he (.of_eq_none rfl) hr (hd.trans hname.symm)]
  exact h.stages e (List.mem_cons_of_mem _ he) hr name hname

/-- A phase that goes through does not give up, and it keeps the integers. -/
theorem guardedRun_eq (b : Builtins) (phase : Phase) (hphase : phase ≠ .registration) (h : p.IsReady past es)
    (hrun : phase.run (Step.ofPhase b phase) p es = .ok (p', es')) :
    phase.guardedRun (Step.guarded b phase) p es = .ok (p', es') ∧ p'.catalog.HasIntegers := by
  induction es generalizing p es' with
  | nil =>
    obtain ⟨rfl, rfl⟩ := Prod.mk.inj (Except.ok.inj hrun)
    exact ⟨rfl, h.integers⟩
  | cons e es ih =>
    obtain ⟨d, failure⟩ := e
    cases failure with
    | some failure =>
      obtain ⟨rest, hrest, rfl⟩ := (run_failed_eq_ok phase rfl).mp hrun
      have hready : p.IsReady past es :=
        ⟨h.apart.tail, fun e he => h.stages e (List.mem_cons_of_mem _ he), h.nodup, h.integers, h.current⟩
      obtain ⟨hguarded, hintegers⟩ := ih hready hrest
      refine ⟨?_, hintegers⟩
      simp only [guardedRun, Option.isSome_some, if_true, bind, Except.bind, hguarded]
      rfl
    | none =>
      obtain ⟨q, d', problem, rest, hone, hrest, rfl⟩ := (run_cons_eq_ok phase).mp hrun
      obtain ⟨hguarded, hintegers⟩ := ih (isReady_step hphase h hone) hrest
      have hstep := Step.guarded_eq hphase h hone
      refine ⟨?_, hintegers⟩
      simp only [guardedRun, Option.isSome_none, Bool.false_eq_true, if_false, bind, Except.bind, hstep, hguarded]
      rfl

end Phase

end FlatScope
