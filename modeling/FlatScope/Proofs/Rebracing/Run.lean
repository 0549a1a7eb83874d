/-
  Units are resolved in other braces as before (`Program.resolve_rebrace`). In a body the same symbols are declared, the
  statements that are left are checked among them, and the work ends at the same problem if it does not go through
  (`FuncDecl.resolveBody_rebrace`). The phases in front of the bodies do not look into bodies (`Phase.run_rebrace`), and leave no
  scope and no global symbol behind that has to do with a statement (`Progress.IsFresh`). From there on what is known of the one
  function is known in other braces (`Progress.rebrace`), and the work on every other body keeps it so
  (`Step.body_rebrace_of_ne`).
-/
import FlatScope.Proofs.Isolation
import FlatScope.Proofs.Notes.Unit
import FlatScope.Proofs.Rebracing.Stmt
import FlatScope.Proofs.Resolution.Body

namespace FlatScope

variable {ρ : Rebracing}

/-- What came of a body, in other braces. -/
def Worked.rebrace (ρ : Rebracing) (w : Worked) : Worked :=
  ⟨w.decl.rebrace ρ, w.scope.renumber ρ, Stmt.remaining ρ 0 w.statements, w.halt.map (Halt.renumber ρ)⟩

theorem Worked.report_rebrace (w : Worked) :
    (w.rebrace ρ).report = w.report.map fun r => (r.1.rebrace ρ, r.2.rebrace ρ) := by
  obtain ⟨d, scope, statements, halt⟩ := w
  cases halt with
  | none => rfl
  | some halt => cases halt <;> rfl

namespace FuncDecl

variable {b : Builtins} {c : Catalog} {d : FuncDecl}

theorem worked_rebrace (collected : Collected) {body : List Stmt} (h : ρ.Fits 0 (Stmt.flattenAll body)) (halt : Option Halt) :
    (d.rebrace ρ).worked (collected.renumber ρ) (Stmt.rebraceAll ρ 0 body) (halt.map (Halt.renumber ρ))
      = (d.worked collected body halt).rebrace ρ := by
  unfold worked
  rw [Stmt.flattenAll_rebraceAll 0 body h, Collected.renumber, Stmt.take_remaining]
  rfl

theorem workStatements_rebrace (hc : c.IsUnordered) (h : ρ.Fits 0 (Stmt.flattenAll d.body)) (collected : Collected) :
    (d.rebrace ρ).workStatements b c (collected.renumber ρ) = (d.workStatements b c collected).rebrace ρ := by
  have hnumber : Stmt.numberAll (ρ.number collected.count) 0 (Stmt.rebraceAll ρ 0 d.body)
      = Stmt.rebraceAll ρ 0 (Stmt.numberAll collected.count 0 d.body) := Stmt.numberAll_rebraceAll collected.count 0 d.body h
  have hnumbered : ρ.Fits 0 (Stmt.flattenAll (Stmt.numberAll collected.count 0 d.body)) :=
    (Rebracing.fits_congr (Stmt.map_isBlock_numberAll collected.count 0 d.body)).mpr h
  let s : Surroundings := ⟨b, c.within collected.scope, d.name⟩
  have hcheck : Stmt.checkAll (s.renumber ρ) 0 0 (Stmt.rebraceAll ρ 0 (Stmt.numberAll collected.count 0 d.body)) = _ :=
    Stmt.checkAll_rebraceAll (s := s) hc 0 0 _ hnumbered
  have hchecked : ρ.Fits 0 (Stmt.flattenAll ((Stmt.checkAll s 0 0 (Stmt.numberAll collected.count 0 d.body)).after id)) :=
    (Rebracing.fits_congr (Stmt.map_isBlock_checkAll s 0 0 _)).mpr hnumbered
  have hsurroundings : (⟨b, c.within (collected.renumber ρ).scope, (d.rebrace ρ).name⟩ : Surroundings) = s.renumber ρ := rfl
  unfold workStatements
  dsimp only
  rw [hsurroundings, show (collected.renumber ρ).count = ρ.number collected.count from rfl,
    show (d.rebrace ρ).body = Stmt.rebraceAll ρ 0 d.body from rfl, hnumber, hcheck]
  cases hh : collected.halt with
  | some halt =>
    have hhalt : (collected.renumber ρ).halt = some (halt.renumber ρ) := by rw [Collected.renumber, hh, Option.map_some]
    rw [hhalt]
    exact worked_rebrace collected hnumbered (some halt)
  | none =>
    have hhalt : (collected.renumber ρ).halt = none := by rw [Collected.renumber, hh, Option.map_none]
    rw [hhalt]
    cases hr : Stmt.checkAll s 0 0 (Stmt.numberAll collected.count 0 d.body) with
    | ok body =>
      rw [hr] at hchecked
      exact worked_rebrace collected hchecked none
    | error left =>
      rw [hr] at hchecked
      exact worked_rebrace collected hchecked (some left.1)

/-- A body is worked on in other braces as before. -/
theorem work_rebrace (hc : c.IsUnordered) (s : Signature) (h : ρ.Fits 0 (Stmt.flattenAll d.body)) :
    (d.rebrace ρ).work b c s = (d.work b c s).rebrace ρ := by
  have hhead : (LocalScope.renumber ρ { function := d.name }).addAll (d.headSymbols s) = _ :=
    LocalScope.addAll_renumber _ fun _ hx => (mem_headSymbols hx).2.2
  have hempty : LocalScope.renumber ρ { function := d.name } = { function := d.name } := rfl
  rw [hempty] at hhead
  have hsame : LocalScope.addAll { function := (d.rebrace ρ).name } ((d.rebrace ρ).headSymbols s)
      = LocalScope.addAll { function := d.name } (d.headSymbols s) := rfl
  unfold work
  rw [hsame]
  cases hadd : LocalScope.addAll { function := d.name } (d.headSymbols s) with
  | mk scope halt =>
    rw [hadd] at hhead
    obtain ⟨hscope, hhalt⟩ := Prod.mk.inj hhead
    cases halt with
    | some halt =>
      show (⟨d.rebrace ρ, scope, [], some halt⟩ : Worked) = ⟨d.rebrace ρ, scope.renumber ρ, [], (some halt).map (Halt.renumber ρ)⟩
      rw [← hscope, ← hhalt]
    | none =>
      dsimp only
      rw [show (d.rebrace ρ).braces = d.braces from rfl]
      cases d.braces.misplaced? with
      | some m =>
        show (⟨d.rebrace ρ, scope, [], some (.misplaced m)⟩ : Worked) = ⟨d.rebrace ρ, scope.renumber ρ, [], some (.misplaced m)⟩
        rw [← hscope]
      | none =>
        have hcollect := Stmt.collect_remaining hc scope 0 (Stmt.flattenAll d.body) h
        rw [← hscope, ← Stmt.flattenAll_rebraceAll 0 d.body h] at hcollect
        dsimp only
        rw [← workStatements_rebrace hc h, ← hcollect]
        rfl

/-- A body is resolved in other braces as before. -/
theorem resolveBody_rebrace (hc : c.IsUnordered) (s : Signature) (h : ρ.Fits 0 (Stmt.flattenAll d.body)) :
    (d.rebrace ρ).resolveBody b c s = (d.resolveBody b c s).map fun r => (r.1.rebrace ρ, r.2.rebrace ρ) := by
  rw [resolveBody_eq, resolveBody_eq, work_rebrace hc s h, Worked.report_rebrace]

end FuncDecl

variable {ρ : Rebracing}

/-! ## In front of the bodies -/

/-- No global symbol is declared by a statement, and nothing has come of a body. -/
structure Progress.IsFresh (p : Progress) : Prop where
  unordered : p.catalog.IsUnordered
  finished : p.catalog.finished = []
  waiting : p.IsWaiting

namespace Progress

variable {p : Progress}

theorem isFresh_empty : IsFresh {} := ⟨List.forall_mem_nil _, rfl, List.forall_mem_nil _⟩

theorem IsFresh.declare (h : p.IsFresh) {s : Symbol} {d : Decl} (hs : Step.symbol d = .ok s) : (p.declare s d).IsFresh where
  unordered := by
    refine List.forall_mem_append.mpr ⟨h.unordered, List.forall_mem_singleton.mpr ?_⟩
    cases d with
    | const _ | var _ | struct _ | func _ =>
      obtain rfl := Except.ok.inj hs
      rfl
    | foreign _ => cases hs
  finished := h.finished
  waiting := h.waiting.declare s d

theorem IsFresh.modifyGlobal (h : p.IsFresh) (name : String) {f : Symbol → Symbol} (hf : ∀ s, (f s).order = s.order) :
    (p.modifyCatalog fun c => c.modifyGlobal name f).IsFresh where
  unordered := by
    refine List.forall_mem_map.mpr fun s hs => ?_
    split
    · exact (hf s).trans (h.unordered s hs)
    · exact h.unordered s hs
  finished := h.finished
  waiting := h.waiting

theorem IsFresh.settle (h : p.IsFresh) (name : String) (t : Ty) (s : Option Signature) : (p.settle name t s).IsFresh where
  unordered := (h.modifyGlobal name (f := fun g => { g with ty := some t }) fun _ => rfl).unordered
  finished := h.finished
  waiting := by
    refine List.forall_mem_map.mpr fun f hf => ?_
    split <;> exact h.waiting f hf

end Progress

namespace Step

/-- A step leaves nothing behind that has to do with a statement. -/
def KeepsFresh (step : Step) : Prop := ∀ p d p' d' problem, p.IsFresh → step p d = .ok (p', d', problem) → p'.IsFresh

theorem keepsFresh_register : KeepsFresh register := by
  intro p d p' d' problem hp h
  obtain ⟨s, hs, rfl, ⟨previous, -, rfl, -⟩ | ⟨-, rfl, -⟩⟩ := register_eq_ok.mp h
  · exact hp
  · exact hp.declare hs

theorem keepsFresh_constant : KeepsFresh constant := by
  intro p d p' d' problem hp h
  cases d with
  | const c =>
    obtain ⟨i, -, rfl, -, -⟩ | ⟨rfl, -, -⟩ := constant_cases h
    · exact hp.modifyGlobal c.name fun _ => rfl
    · exact hp
  | var _ | struct _ | func _ | foreign _ => rwa [((ignores_constant rfl).cases h).1]

theorem keepsFresh_fields : KeepsFresh fields := by
  intro p d p' d' problem hp h
  cases d with
  | struct s =>
    obtain ⟨-, known, rfl, -⟩ := fields_cases h
    exact ⟨hp.unordered, hp.finished, hp.waiting⟩
  | const _ | var _ | func _ | foreign _ => rwa [((show Ignores fields _ from fun _ => rfl).cases h).1]

theorem keepsFresh_containment : KeepsFresh containment := by
  intro p d p' d' problem hp h
  cases d with
  | struct s =>
    obtain ⟨-, ⟨rfl, -⟩ | ⟨cycle, rfl, -⟩⟩ := containment_cases h
    · exact hp
    · exact ⟨hp.unordered, hp.finished, hp.waiting⟩
  | const _ | var _ | func _ | foreign _ => rwa [((show Ignores containment _ from fun _ => rfl).cases h).1]

theorem keepsFresh_header : KeepsFresh header := by
  intro p d p' d' problem hp h
  cases hd : d.header? p.catalog with
  | none => rwa [((ignores_header hd).cases h).1]
  | some x =>
    obtain ⟨-, ⟨name, t, s, -, rfl, -⟩ | ⟨rfl, -⟩⟩ := header_cases hd h
    · exact hp.settle name t s
    · exact hp

end Step

theorem Phase.isFresh_run {phase : Phase} {step : Step} (hstep : step.KeepsFresh) {p p' : Progress} {es es' : List Entry}
    (hrun : phase.run step p es = .ok (p', es')) (h : p.IsFresh) : p'.IsFresh := by
  have hkept : p'.IsFresh ∧ ∀ e ∈ es', True := keeps_run (E := fun _ => True) (fun _ _ he => he)
    (fun p d p' d' problem hp he hone => ⟨hstep p d p' d' problem hp hone, he⟩) hrun h fun _ _ => trivial
  exact hkept.1

theorem Program.Runs.isFresh {b : Builtins} {p : Program} {p₁ p₂ p₃ p₄ p₅ p₆ : Progress} {es₁ es₂ es₃ es₄ es₅ es₆ : List Entry}
    (h : p.Runs b p₁ p₂ p₃ p₄ p₅ p₆ es₁ es₂ es₃ es₄ es₅ es₆) : p₅.IsFresh := by
  have h₁ := Phase.isFresh_run Step.keepsFresh_register h.registration Progress.isFresh_empty
  have h₂ := Phase.isFresh_run Step.keepsFresh_constant h.constants h₁
  have h₃ := Phase.isFresh_run Step.keepsFresh_fields h.fields h₂
  have h₄ := Phase.isFresh_run Step.keepsFresh_containment h.containment h₃
  exact Phase.isFresh_run Step.keepsFresh_header h.headers h₄

/-! ## Phases that do not look into bodies -/

theorem Decl.rebrace_of_head {d : Decl} (h : d.head = d) : d.rebrace ρ = d := by
  cases d with
  | func f =>
    have hbody : f.body = [] := (congrArg FuncDecl.body (Decl.func.inj h)).symm
    rw [rebrace, FuncDecl.rebrace, hbody, Stmt.rebraceAll, ← hbody]
  | const _ | var _ | struct _ | foreign _ => rfl

/-- A step that does not look into bodies does with a function in other braces what it does with the function. -/
theorem Step.IsBlind.rebrace {step : Step} (h : step.IsBlind) (hkeeps : step.KeepsName) {p p' : Progress} {d d' : Decl}
    {problem : Option Problem} (hstep : step p d = .ok (p', d', problem)) :
    step p (d.rebrace ρ) = .ok (p', d'.rebrace ρ, problem) := by
  have hother (hd : d.head = d) : step p (d.rebrace ρ) = .ok (p', d'.rebrace ρ, problem) := by
    have hsame := h p d
    rw [hd, hstep] at hsame
    have hd' : d'.head = d' := (done_eq_ok hsame).2.1
    rw [Decl.rebrace_of_head hd, Decl.rebrace_of_head hd', hstep]
  cases d with
  | func f =>
    obtain rfl := hkeeps.func p f p' d' problem hstep
    have hhead : (Decl.func (f.rebrace ρ)).head = (Decl.func f).head := rfl
    obtain ⟨d₁, hd₁, -⟩ := h.eq_ok hhead hstep
    obtain rfl := hkeeps.func p (f.rebrace ρ) p' d₁ problem hd₁
    exact hd₁
  | const _ | var _ | struct _ | foreign _ => exact hother rfl

namespace Phase

variable {phase : Phase} {step : Step} {p p' : Progress} {es es' : List Entry}

theorem run_rebrace (h : step.IsBlind) (hkeeps : step.KeepsName) (hphase : phase ≠ .bodies) (i : Nat)
    (hrun : phase.run step p es = .ok (p', es')) :
    phase.run step p (es.modify i (Entry.rebrace ρ)) = .ok (p', es'.modify i (Entry.rebrace ρ)) := by
  induction es generalizing p es' i with
  | nil =>
    obtain ⟨rfl, rfl⟩ := Prod.mk.inj (Except.ok.inj hrun)
    rw [List.modify_nil]
    rfl
  | cons e es ih =>
    obtain ⟨d, failure⟩ := e
    cases failure with
    | some failure =>
      obtain ⟨rest, hrest, rfl⟩ := (run_failed_eq_ok phase rfl).mp hrun
      cases i with
      | zero => exact (run_failed_eq_ok phase rfl).mpr ⟨rest, hrest, rfl⟩
      | succ i => exact (run_failed_eq_ok phase rfl).mpr ⟨_, ih i hrest, rfl⟩
    | none =>
      obtain ⟨q, d', problem, rest, hone, hrest, rfl⟩ := (run_cons_eq_ok phase).mp hrun
      cases i with
      | zero =>
        refine (run_cons_eq_ok phase).mpr ⟨q, d'.rebrace ρ, problem, rest, h.rebrace hkeeps hone, hrest, ?_⟩
        rw [List.modify_zero_cons, Entry.rebrace]
        cases problem with
        | none => rfl
        | some problem => simp only [Option.map_some, if_neg hphase]
      | succ i => exact (run_cons_eq_ok phase).mpr ⟨q, d', problem, _, hone, ih i hrest, rfl⟩

end Phase

/-! ## Bodies -/

/-- A scope in other braces, if it is the one of a function. -/
def LocalScope.renumberOf (ρ : Rebracing) (name : String) (s : LocalScope) : LocalScope :=
  if s.function = name then s.renumber ρ else s

/-- What is known of a function in other braces, if it has the name. -/
def FunctionInfo.rebraceOf (ρ : Rebracing) (name : String) (f : FunctionInfo) : FunctionInfo :=
  if f.name = name then f.rebrace ρ else f

/-- What is known when one function is in other braces. -/
def Progress.rebrace (ρ : Rebracing) (name : String) (p : Progress) : Progress :=
  { p with
    catalog := { p.catalog with finished := p.catalog.finished.map (LocalScope.renumberOf ρ name) }
    functions := p.functions.map (FunctionInfo.rebraceOf ρ name) }

theorem LocalScope.function_renumberOf (name : String) (s : LocalScope) : (s.renumberOf ρ name).function = s.function := by
  rw [renumberOf]
  split <;> rfl

theorem Catalog.finish_map {f : LocalScope → LocalScope} (hf : ∀ s, (f s).function = s.function) (finished : List LocalScope)
    (scope : LocalScope) : finish (finished.map f) (f scope) = (finish finished scope).map f := by
  have hany : (finished.map f).any (fun s => s.function = (f scope).function)
      = finished.any fun s => s.function = scope.function := by
    rw [List.any_map, hf]
    refine congrArg finished.any (funext fun s => ?_)
    rw [Function.comp_apply, hf]
  unfold finish
  rw [hany]
  split
  · rw [List.map_map, List.map_map]
    refine List.map_congr_left fun s _ => ?_
    rw [Function.comp_apply, Function.comp_apply, hf, hf, apply_ite f]
  · rw [List.map_append]
    rfl

namespace Progress

variable {p : Progress} {name : String}

/-- What is known when nothing has come of a body is known in other braces. -/
theorem IsFresh.rebrace_eq (h : p.IsFresh) : p.rebrace ρ name = p := by
  have hfunctions : p.functions.map (FunctionInfo.rebraceOf ρ name) = p.functions := by
    refine (List.map_congr_left fun f hf => ?_).trans (List.map_id _)
    rw [FunctionInfo.rebraceOf, FunctionInfo.rebrace, h.waiting f hf, Option.map_none, ← h.waiting f hf]
    exact ite_self f
  rw [rebrace, hfunctions, h.finished, List.map_nil, ← h.finished]

theorem ground_rebrace (ρ : Rebracing) (name : String) (p : Progress) : p.Ground (p.rebrace ρ name) where
  catalog := ⟨_, rfl⟩
  signature x := by
    have hfind := find?_map_of_key FunctionInfo.name (f := FunctionInfo.rebraceOf ρ name)
      (fun f => by rw [FunctionInfo.rebraceOf]; split <;> rfl) p.functions x
    rw [function?, rebrace, hfind, function?]
    cases p.functions.find? fun f => f.name = x with
    | none => rfl
    | some f =>
      rw [Option.map_some, Option.bind_some, Option.bind_some, FunctionInfo.rebraceOf]
      split <;> rfl

/-- What comes of a body, in the braces that its function is in. -/
theorem enter_rebrace {function : String} {e e' : Entered} (hscope : e'.scope = e.scope.renumberOf ρ name)
    (he : ∀ f : FunctionInfo, f.name = function →
      ({ f.rebraceOf ρ name with entered := some e' } : FunctionInfo) = FunctionInfo.rebraceOf ρ name { f with entered := some e }) :
    (p.rebrace ρ name).enter function e' = (p.enter function e).rebrace ρ name := by
  have hname (f : FunctionInfo) : (f.rebraceOf ρ name).name = f.name := by
    rw [FunctionInfo.rebraceOf]
    split <;> rfl
  have hfinished := Catalog.finish_map (LocalScope.function_renumberOf (ρ := ρ) name) p.catalog.finished e.scope
  have hfunctions : ((p.functions.map (FunctionInfo.rebraceOf ρ name)).map
        fun i => if i.name = function then { i with entered := some e' } else i)
      = (p.functions.map fun i => if i.name = function then { i with entered := some e } else i).map (FunctionInfo.rebraceOf ρ name) := by
    rw [List.map_map, List.map_map]
    refine List.map_congr_left fun f _ => ?_
    rw [Function.comp_apply, Function.comp_apply]
    by_cases hf : f.name = function
    · rw [if_pos hf, if_pos ((hname f).trans hf)]
      exact he f hf
    · rw [if_neg hf, if_neg ((hname f).symm ▸ hf)]
  rw [enter, enter, rebrace, rebrace, modifyCatalog, modifyCatalog, modifyFunction, modifyFunction]
  simp only [hscope, hfinished, hfunctions]

theorem enter_rebrace_self {e : Entered} (he : e.scope.function = name) :
    (p.rebrace ρ name).enter name (e.rebrace ρ) = (p.enter name e).rebrace ρ name := by
  refine enter_rebrace (if_pos he).symm fun f hf => ?_
  have hentered : FunctionInfo.name { f with entered := some e } = name := hf
  rw [FunctionInfo.rebraceOf, FunctionInfo.rebraceOf, if_pos hf, if_pos hentered]
  rfl

theorem enter_rebrace_of_ne {function : String} {e : Entered} (he : e.scope.function = function) (hne : function ≠ name) :
    (p.rebrace ρ name).enter function e = (p.enter function e).rebrace ρ name := by
  refine enter_rebrace (if_neg (he ▸ hne)).symm fun f hf => ?_
  have hentered : FunctionInfo.name { f with entered := some e } ≠ name := hf ▸ hne
  rw [FunctionInfo.rebraceOf, FunctionInfo.rebraceOf, if_neg (hf ▸ hne), if_neg hentered]

end Progress

namespace Step

variable {b : Builtins} {p p' : Progress} {d d' : Decl} {problem : Option Problem} {name : String}

/-- The work on a body does not depend on the braces of another one. -/
theorem body_rebrace_of_ne (h : body b p d = .ok (p', d', problem)) (hname : d.name? ≠ some name) :
    body b (p.rebrace ρ name) d = .ok (p'.rebrace ρ name, d', problem) := by
  have hground := Progress.ground_rebrace ρ name p
  cases d with
  | func f =>
    obtain ⟨hs, rfl, rfl, rfl⟩ | ⟨s, f', e, hs, he, rfl, rfl, rfl⟩ := body_eq_ok.mp h
    · exact body_eq_ok.mpr (.inl ⟨(hground.signature f.name).trans hs, rfl, rfl, rfl⟩)
    · refine body_eq_ok.mpr (.inr ⟨s, f', e, (hground.signature f.name).trans hs, ?_, ?_, rfl, rfl⟩)
      · rw [hground.agrees.resolveBody, he]
      · exact (Progress.enter_rebrace_of_ne (FuncDecl.name_of_resolveBody he).2 fun hf => hname (congrArg some hf)).symm
  | const _ | var _ | struct _ | foreign _ =>
    obtain ⟨rfl, rfl, rfl⟩ := done_eq_ok h
    rfl

/-- The body of a function comes in other braces to what it comes to, in other braces. -/
theorem body_rebrace {f : FuncDecl} (hc : p.catalog.IsUnordered) (hfits : ρ.Fits 0 (Stmt.flattenAll f.body))
    (h : body b p (.func f) = .ok (p', d', problem)) :
    body b (p.rebrace ρ f.name) (.func (f.rebrace ρ))
      = .ok (p'.rebrace ρ f.name, d'.rebrace ρ, problem.map (Problem.renumber ρ)) := by
  have hground := Progress.ground_rebrace ρ f.name p
  obtain ⟨hs, rfl, rfl, rfl⟩ | ⟨s, f', e, hs, he, rfl, rfl, rfl⟩ := body_eq_ok.mp h
  · exact body_eq_ok.mpr (.inl ⟨(hground.signature f.name).trans hs, rfl, rfl, rfl⟩)
  · refine body_eq_ok.mpr (.inr ⟨s, f'.rebrace ρ, e.rebrace ρ, (hground.signature f.name).trans hs, ?_, ?_, rfl, rfl⟩)
    · rw [hground.agrees.resolveBody, FuncDecl.resolveBody_rebrace hc s hfits, he]
      rfl
    · exact (Progress.enter_rebrace_self (FuncDecl.name_of_resolveBody he).2).symm

end Step

namespace Phase

variable {b : Builtins} {p p' : Progress} {es es' as bs : List Entry} {f : FuncDecl} {name : String}

theorem run_bodies_rebrace_of_ne (hes : ∀ e ∈ es, e.failure = none → e.decl.name? ≠ some name)
    (hrun : Phase.bodies.run (Step.body b) p es = .ok (p', es')) :
    Phase.bodies.run (Step.body b) (p.rebrace ρ name) es = .ok (p'.rebrace ρ name, es') := by
  induction es generalizing p es' with
  | nil =>
    obtain ⟨rfl, rfl⟩ := Prod.mk.inj (Except.ok.inj hrun)
    rfl
  | cons e es ih =>
    obtain ⟨d, failure⟩ := e
    obtain ⟨he, htail⟩ := List.forall_mem_cons.mp hes
    cases failure with
    | some failure =>
      obtain ⟨rest, hrest, rfl⟩ := (run_failed_eq_ok _ rfl).mp hrun
      exact (run_failed_eq_ok _ rfl).mpr ⟨rest, ih htail hrest, rfl⟩
    | none =>
      obtain ⟨q, d', problem, rest, hone, hrest, rfl⟩ := (run_cons_eq_ok _).mp hrun
      exact (run_cons_eq_ok _).mpr ⟨_, d', problem, rest, Step.body_rebrace_of_ne hone (he rfl), ih htail hrest, rfl⟩

/-- If no body is entered under a name, what is known is known in other braces under the name. -/
theorem rebrace_eq_of_run (hp : p.IsFresh) (hes : ∀ e ∈ es, e.failure = none → e.decl.name? ≠ some name)
    (hrun : Phase.bodies.run (Step.body b) p es = .ok (p', es')) : p'.rebrace ρ name = p' := by
  have hrebraced := run_bodies_rebrace_of_ne (ρ := ρ) hes hrun
  rw [hp.rebrace_eq, hrun] at hrebraced
  exact (Prod.mk.inj (Except.ok.inj hrebraced)).1.symm

theorem modify_append_cons {α : Type} (f : α → α) (xs : List α) (y : α) (ys : List α) :
    (xs ++ y :: ys).modify xs.length f = xs ++ f y :: ys := by
  induction xs with
  | nil => rfl
  | cons x xs ih => rw [List.cons_append, List.length_cons, List.modify_succ_cons, ih, List.cons_append]

/-- What becomes of an entry that has failed is nothing to the others. -/
theorem run_modify_of_failed {phase : Phase} {step : Step} {e : Entry} {g : Entry → Entry} (he : e.failure.isSome = true)
    (hg : (g e).failure.isSome = true) (hrun : phase.run step p (as ++ e :: bs) = .ok (p', es')) :
    phase.run step p (as ++ g e :: bs) = .ok (p', es'.modify as.length g) := by
  obtain ⟨q, xs, ys, hxs, hys, rfl⟩ := run_append.mp hrun
  obtain ⟨rest, hrest, rfl⟩ := (run_failed_eq_ok phase he).mp hys
  refine run_append.mpr ⟨q, xs, _, hxs, (run_failed_eq_ok phase hg).mpr ⟨rest, hrest, rfl⟩, ?_⟩
  rw [(run_entries hxs).length_eq, modify_append_cons]

/-- Bodies are gone through as before when one function is in other braces, if no other one is entered under its name. -/
theorem run_bodies_rebrace (hc : p.catalog.IsUnordered) (hfits : ρ.Fits 0 (Stmt.flattenAll f.body))
    (hothers : ∀ e ∈ as ++ bs, e.failure = none → e.decl.name? ≠ some f.name)
    (hrun : Phase.bodies.run (Step.body b) p (as ++ ⟨.func f, none⟩ :: bs) = .ok (p', es')) :
    Phase.bodies.run (Step.body b) (p.rebrace ρ f.name) (as ++ ⟨.func (f.rebrace ρ), none⟩ :: bs)
      = .ok (p'.rebrace ρ f.name, es'.modify as.length (Entry.rebrace ρ)) := by
  obtain ⟨has, hbs⟩ := List.forall_mem_append.mp hothers
  obtain ⟨q, xs, ys, hxs, hys, rfl⟩ := run_append.mp hrun
  obtain ⟨q', d', problem, rest, hone, hrest, rfl⟩ := (run_cons_eq_ok _).mp hys
  have hq : q.catalog.IsUnordered := by
    obtain ⟨finished, hq⟩ := (ground_run hxs).catalog
    rw [hq]
    exact hc
  refine run_append.mpr ⟨_, xs, ⟨d'.rebrace ρ, (problem.map (Problem.renumber ρ)).map (.bodies, ·)⟩ :: rest,
    run_bodies_rebrace_of_ne has hxs, ?_, ?_⟩
  · exact (run_cons_eq_ok _).mpr ⟨_, _, _, rest, Step.body_rebrace hq hfits hone, run_bodies_rebrace_of_ne hbs hrest, rfl⟩
  · rw [(run_entries hxs).length_eq, modify_append_cons, Entry.rebrace]
    cases problem <;> rfl

end Phase

/-! ## Units -/

/-- The name that a declaration has got. -/
def Entry.holds? (e : Entry) : Option String :=
  match e.failure with
  | some (.registration, _) => none
  | _ => e.decl.name?

theorem Entry.holds?_of_isRegistered {e : Entry} (h : e.IsRegistered) : e.holds? = e.decl.name? := by
  unfold holds?
  split
  · rename_i problem hf
    exact absurd hf (h problem)
  · rfl

theorem Entry.holds?_of_registration {e : Entry} {problem : Problem} (h : e.failure = some (.registration, problem)) :
    e.holds? = none := by
  rw [holds?, h]

/-- The work on bodies leaves the names to the declarations that have got them. -/
theorem Phase.holds?_run {b : Builtins} {p p' : Progress} {es es' : List Entry}
    (hrun : Phase.bodies.run (Step.body b) p es = .ok (p', es')) : es'.map Entry.holds? = es.map Entry.holds? := by
  have htakes := run_entries hrun
  clear hrun
  induction htakes with
  | nil => rfl
  | cons he _ ih =>
    rw [List.map_cons, List.map_cons, ih]
    obtain ⟨-, rfl⟩ | ⟨hnone, -⟩ := id he
    · rfl
    · have hregistered := Entry.IsRegistered.of_eq_none hnone
      rw [Entry.holds?_of_isRegistered hregistered, Entry.holds?_of_isRegistered ((he.registered nofun).mpr hregistered),
        he.name? (Step.isLocal_body b).name]

/-- The name that the declaration at a place has got. -/
def Resolution.heldBy? (r : Resolution) (i : Nat) : Option String := r.entries[i]?.bind Entry.holds?

theorem Phase.heldBy?_run {b : Builtins} {p p' : Progress} {es es' : List Entry}
    (hrun : Phase.bodies.run (Step.body b) p es = .ok (p', es')) {i : Nat} {e : Entry} (he : es[i]? = some e) :
    es'[i]?.bind Entry.holds? = e.holds? := by
  have hsame := congrArg (·[i]?) (holds?_run hrun)
  rw [List.getElem?_map, List.getElem?_map, he, Option.map_some] at hsame
  obtain ⟨e', he', hholds⟩ := Option.map_eq_some_iff.mp hsame
  rw [he', Option.bind_some, hholds]

/-- A resolved unit with one declaration in other braces: its tree, the problem that was found in its body, and what came of
the body, if the declaration has got its name. -/
def Resolution.rebrace (ρ : Rebracing) (i : Nat) (r : Resolution) : Resolution where
  entries := r.entries.modify i (Entry.rebrace ρ)
  file := r.file
  catalog := { r.catalog with
    finished := (r.heldBy? i).elim r.catalog.finished fun name => r.catalog.finished.map (LocalScope.renumberOf ρ name) }
  functions := (r.heldBy? i).elim r.functions fun name => r.functions.map (FunctionInfo.rebraceOf ρ name)

namespace Program

variable {b : Builtins} {p : Program} {r : Resolution} {i : Nat} {d : FuncDecl}

theorem map_entry_modify (ds : List Decl) (i : Nat) : ((ds.modify i (Decl.rebrace ρ)).map fun decl => ({ decl } : Entry))
    = (ds.map fun decl => ({ decl } : Entry)).modify i (Entry.rebrace ρ) := by
  induction ds generalizing i with
  | nil => rw [List.modify_nil, List.map_nil, List.modify_nil]
  | cons d ds ih =>
    cases i with
    | zero => rfl
    | succ i => rw [List.modify_succ_cons, List.map_cons, List.map_cons, List.modify_succ_cons, ih]

/-- A unit with a function in other braces is resolved as before. -/
theorem resolve_rebrace (hr : p.resolve b = .ok r) (hd : p.decls[i]? = some (.func d))
    (hfits : ρ.Fits 0 (Stmt.flattenAll d.body)) : (p.rebrace ρ i).resolve b = .ok (r.rebrace ρ i) := by
  obtain ⟨p₁, p₂, p₃, p₄, p₅, p₆, es₁, es₂, es₃, es₄, es₅, es₆, hruns, rfl⟩ := exists_runs hr
  have hstart := Phase.run_rebrace (ρ := ρ) Step.isBlind_register Step.keepsDecl_register.keepsName (by decide) i hruns.registration
  rw [← map_entry_modify] at hstart
  have h₂ := Phase.run_rebrace (ρ := ρ) Step.isBlind_constant Step.keepsName_constant (by decide) i hruns.constants
  have h₃ := Phase.run_rebrace (ρ := ρ) Step.isBlind_fields Step.keepsDecl_fields.keepsName (by decide) i hruns.fields
  have h₄ := Phase.run_rebrace (ρ := ρ) Step.isBlind_containment Step.keepsDecl_containment.keepsName (by decide) i hruns.containment
  have h₅ := Phase.run_rebrace (ρ := ρ) Step.isBlind_header Step.keepsDecl_header.keepsName (by decide) i hruns.headers
  have hresolve {q : Progress} {fs : List Entry} (h₆ : Phase.bodies.run (Step.body b) p₅ (es₅.modify i (Entry.rebrace ρ)) = .ok (q, fs)) :
      (p.rebrace ρ i).resolve b = .ok ⟨fs, p.file, q.catalog, q.functions⟩ := Runs.resolve ⟨hstart, h₂, h₃, h₄, h₅, h₆⟩
  have hfresh := hruns.isFresh
  obtain ⟨failure, he⟩ := hruns.func hd
  have hpairs := hruns.pairwise
  have hbodies := hruns.bodies
  clear hruns hstart h₂ h₃ h₄ h₅ hr hd
  obtain ⟨as, bs, rfl, rfl⟩ := Entry.exists_append he
  rw [Phase.modify_append_cons] at hresolve
  have hheld : Resolution.heldBy? ⟨es₆, p.file, p₆.catalog, p₆.functions⟩ as.length = _ := Phase.heldBy?_run hbodies he
  have hothers (h : Entry.IsRegistered ⟨.func d, failure⟩) := Entry.name?_ne_of_pairwise hpairs h
  rw [Resolution.rebrace, hheld]
  cases failure with
  | none =>
    have hrun := Phase.run_bodies_rebrace hfresh.unordered hfits (hothers (.of_eq_none rfl)) hbodies
    rw [hfresh.rebrace_eq] at hrun
    exact hresolve hrun
  | some failure =>
    rw [hresolve (Phase.run_modify_of_failed rfl rfl hbodies)]
    by_cases hregistered : Entry.IsRegistered ⟨.func d, some failure⟩
    · -- Nothing has come of the body, nor of another one of its name, so there is nothing to change.
      have hall : ∀ e ∈ as ++ ⟨.func d, some failure⟩ :: bs, e.failure = none → e.decl.name? ≠ some d.name := by
        obtain ⟨has, hbs⟩ := List.forall_mem_append.mp (hothers hregistered)
        exact List.forall_mem_append.mpr ⟨has, List.forall_mem_cons.mpr ⟨fun hf => (nomatch hf), hbs⟩⟩
      have hsame := Phase.rebrace_eq_of_run (ρ := ρ) hfresh hall hbodies
      have hfinished : p₆.catalog.finished.map (LocalScope.renumberOf ρ d.name) = p₆.catalog.finished :=
        congrArg (fun q => q.catalog.finished) hsame
      have hfunctions : p₆.functions.map (FunctionInfo.rebraceOf ρ d.name) = p₆.functions := congrArg Progress.functions hsame
      rw [Entry.holds?_of_isRegistered hregistered]
      simp only [Decl.name?, Option.elim_some, hfinished, hfunctions]
    · obtain ⟨problem, hproblem⟩ := not_forall_not.mp hregistered
      rw [Entry.holds?_of_registration hproblem]
      rfl

end Program

end FlatScope
