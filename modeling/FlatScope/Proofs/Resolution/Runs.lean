/-
  Resolving as a chain of runs. A unit is resolved if each of the six phases runs through; what the phases leave behind
  each other is named here once, for whatever is shown of whole units.

  A unit whose structs hold no structs has no cycles of containment, and resolving it goes through without the search for one
  (`Program.resolve_of_resolveFlat`). Unlike that search, what is left of resolving then evaluates: the problems of a given
  source can be computed (`exists_of_problemKindsOf`), best from its characters (`Program.bind_ofSource`).
-/
import FlatScope.Proofs.Resolution.Results
import FlatScope.Resolution.Unit

namespace FlatScope

namespace Phase

variable (phase : Phase) {step : Step} {p p' : Progress} {e : Entry} {es es' : List Entry} {d : Decl}

theorem run_failed (he : e.failure.isSome = true) :
    phase.run step p (e :: es) = do
      let (p, es) ← phase.run step p es
      return (p, e :: es) := by
  rw [run, if_pos he]

theorem run_cons :
    phase.run step p (⟨d, none⟩ :: es) = do
      let (p, decl, problem) ← step p d
      let (p, es) ← phase.run step p es
      return (p, { decl, failure := problem.map (phase, ·) } :: es) := rfl

/-- What is left of entries by a run that goes through. -/
theorem run_failed_eq_ok (he : e.failure.isSome = true) : phase.run step p (e :: es) = .ok (p', es')
    ↔ ∃ rest, phase.run step p es = .ok (p', rest) ∧ es' = e :: rest := by
  rw [run_failed phase he, Except.bind_eq_ok]
  constructor
  · rintro ⟨⟨q, rest⟩, hrun, h⟩
    obtain ⟨rfl, rfl⟩ := Prod.mk.inj (Except.ok.inj h)
    exact ⟨rest, hrun, rfl⟩
  · rintro ⟨rest, hrun, rfl⟩
    exact ⟨(p', rest), hrun, rfl⟩

theorem run_cons_eq_ok : phase.run step p (⟨d, none⟩ :: es) = .ok (p', es')
    ↔ ∃ q d' problem rest, step p d = .ok (q, d', problem) ∧ phase.run step q es = .ok (p', rest)
      ∧ es' = ⟨d', problem.map (phase, ·)⟩ :: rest := by
  rw [run_cons, Except.bind_eq_ok]
  constructor
  · rintro ⟨⟨q, d', problem⟩, hstep, h⟩
    obtain ⟨⟨q', rest⟩, hrun, h⟩ := Except.bind_eq_ok.mp h
    obtain ⟨rfl, rfl⟩ := Prod.mk.inj (Except.ok.inj h)
    exact ⟨q, d', problem, rest, hstep, hrun, rfl⟩
  · rintro ⟨q, d', problem, rest, hstep, hrun, rfl⟩
    exact ⟨(q, d', problem), hstep, Except.bind_eq_ok.mpr ⟨(p', rest), hrun, rfl⟩⟩

end Phase

/-- What the phases leave behind, one after another, when a unit is resolved. -/
structure Program.Runs (b : Builtins) (p : Program) (p₁ p₂ p₃ p₄ p₅ p₆ : Progress)
    (es₁ es₂ es₃ es₄ es₅ es₆ : List Entry) : Prop where
  registration : Phase.registration.run Step.register {} (p.decls.map fun decl => { decl }) = .ok (p₁, es₁)
  constants : Phase.constants.run Step.constant p₁ es₁ = .ok (p₂, es₂)
  fields : Phase.fields.run Step.fields p₂ es₂ = .ok (p₃, es₃)
  containment : Phase.containment.run Step.containment p₃ es₃ = .ok (p₄, es₄)
  headers : Phase.headers.run Step.header p₄ es₄ = .ok (p₅, es₅)
  bodies : Phase.bodies.run (Step.body b) p₅ es₅ = .ok (p₆, es₆)

namespace Program

variable {b : Builtins} {p : Program} {r : Resolution}

theorem Runs.resolve {p₁ p₂ p₃ p₄ p₅ p₆ : Progress} {es₁ es₂ es₃ es₄ es₅ es₆ : List Entry}
    (h : p.Runs b p₁ p₂ p₃ p₄ p₅ p₆ es₁ es₂ es₃ es₄ es₅ es₆) :
    p.resolve b = .ok ⟨es₆, p.file, p₆.catalog, p₆.functions⟩ := by
  rw [Program.resolve, Phase.all]
  simp only [Phase.runAll, Step.ofPhase, h.registration, h.constants, h.fields, h.containment, h.headers, h.bodies, bind,
    Except.bind, pure, Except.pure]

/-- A unit that is resolved went through all phases. -/
theorem exists_runs (h : p.resolve b = .ok r) : ∃ p₁ p₂ p₃ p₄ p₅ p₆ es₁ es₂ es₃ es₄ es₅ es₆,
    p.Runs b p₁ p₂ p₃ p₄ p₅ p₆ es₁ es₂ es₃ es₄ es₅ es₆ ∧ r = ⟨es₆, p.file, p₆.catalog, p₆.functions⟩ := by
  obtain ⟨⟨p₆', es₆'⟩, hrun, h⟩ := Except.bind_eq_ok.mp h
  obtain ⟨⟨p₁, es₁⟩, h₁, hrun⟩ := Except.bind_eq_ok.mp hrun
  obtain ⟨⟨p₂, es₂⟩, h₂, hrun⟩ := Except.bind_eq_ok.mp hrun
  obtain ⟨⟨p₃, es₃⟩, h₃, hrun⟩ := Except.bind_eq_ok.mp hrun
  obtain ⟨⟨p₄, es₄⟩, h₄, hrun⟩ := Except.bind_eq_ok.mp hrun
  obtain ⟨⟨p₅, es₅⟩, h₅, hrun⟩ := Except.bind_eq_ok.mp hrun
  obtain ⟨⟨p₆, es₆⟩, h₆, hrun⟩ := Except.bind_eq_ok.mp hrun
  obtain ⟨rfl, rfl⟩ := Prod.mk.inj (Except.ok.inj hrun)
  exact ⟨p₁, p₂, p₃, p₄, p₅, p₆, es₁, es₂, es₃, es₄, es₅, es₆, ⟨h₁, h₂, h₃, h₄, h₅, h₆⟩, (Except.ok.inj h).symm⟩

end Program

/-- Nothing leads back to a struct that holds none. -/
theorem Catalog.cycle?_eq_none {c : Catalog} {name : String} (h : c.held name = []) : c.cycle? name = none := by
  rw [cycle?, h, List.map_nil, follow]

/-- Looks for a struct inside itself, if it holds structs at all; those that do are not gone into. -/
def Step.flatContainment : Step := fun p d =>
  match d with
  | .struct d =>
    if p.catalog.held d.name = [] then .ok (p, .struct d, none) else .error (.declaration d.name)
  | d => .ok (p, d, none)

theorem Step.containment_of_flatContainment {p : Progress} {d : Decl} {r : Progress × Decl × Option Problem}
    (h : flatContainment p d = .ok r) : containment p d = .ok r := by
  cases d with
  | struct d =>
    rw [flatContainment] at h
    split at h
    · rename_i hheld
      rw [containment, Catalog.cycle?_eq_none hheld, ite_self]
      exact h
    · cases h
  | const _ | var _ | func _ | foreign _ => exact h

/-- A phase goes through with a step that does whatever another one does. -/
theorem Phase.run_mono (phase : Phase) {step step' : Step} (h : ∀ p d r, step p d = .ok r → step' p d = .ok r)
    {p p' : Progress} {es es' : List Entry} (hrun : phase.run step p es = .ok (p', es')) :
    phase.run step' p es = .ok (p', es') := by
  induction es generalizing p es' with
  | nil => exact hrun
  | cons e es ih =>
    obtain ⟨d, failure⟩ := e
    cases failure with
    | some failure =>
      obtain ⟨rest, hrest, rfl⟩ := (run_failed_eq_ok phase rfl).mp hrun
      exact (run_failed_eq_ok phase rfl).mpr ⟨rest, ih hrest, rfl⟩
    | none =>
      obtain ⟨q, d', problem, rest, hone, hrest, rfl⟩ := (run_cons_eq_ok phase).mp hrun
      exact (run_cons_eq_ok phase).mpr ⟨q, d', problem, rest, h _ _ _ hone, ih hrest, rfl⟩

/-- Resolves a unit with some step in place of the search for structs inside themselves. -/
def Program.resolveBy (step : Step) (p : Program) (b : Builtins := Builtins.standard) : Except Misplaced Resolution := do
  let (p₃, es₃) ← Phase.runAll b {} (p.decls.map fun decl => { decl }) [.registration, .constants, .fields]
  let (p₄, es₄) ← Phase.containment.run step p₃ es₃
  let (p₆, es₆) ← Phase.runAll b p₄ es₄ [.headers, .bodies]
  return { entries := es₆, file := p.file, catalog := p₆.catalog, functions := p₆.functions }

theorem Program.resolve_of_resolveBy {step : Step} (hstep : ∀ p d r, step p d = .ok r → Step.containment p d = .ok r)
    {b : Builtins} {p : Program} {r : Resolution} (h : p.resolveBy step b = .ok r) : p.resolve b = .ok r := by
  obtain ⟨⟨p₃, es₃⟩, hcollect, h⟩ := Except.bind_eq_ok.mp h
  obtain ⟨⟨p₄, es₄⟩, h₄, h⟩ := Except.bind_eq_ok.mp h
  obtain ⟨⟨p₆, es₆⟩, henter, hr⟩ := Except.bind_eq_ok.mp h
  obtain ⟨⟨p₁, es₁⟩, h₁, hcollect⟩ := Except.bind_eq_ok.mp hcollect
  obtain ⟨⟨p₂, es₂⟩, h₂, hcollect⟩ := Except.bind_eq_ok.mp hcollect
  obtain ⟨⟨q₃, fs₃⟩, h₃, hsame₃⟩ := Except.bind_eq_ok.mp hcollect
  obtain ⟨⟨p₅, es₅⟩, h₅, henter⟩ := Except.bind_eq_ok.mp henter
  obtain ⟨⟨q₆, fs₆⟩, h₆, hsame₆⟩ := Except.bind_eq_ok.mp henter
  obtain ⟨rfl, rfl⟩ := Prod.mk.inj (Except.ok.inj hsame₃)
  obtain ⟨rfl, rfl⟩ := Prod.mk.inj (Except.ok.inj hsame₆)
  exact (Runs.resolve ⟨h₁, h₂, h₃, Phase.run_mono .containment hstep h₄, h₅, h₆⟩).trans hr

/-- Resolves a unit, if its structs hold no structs. -/
def Program.resolveFlat (p : Program) (b : Builtins := Builtins.standard) : Except Misplaced Resolution :=
  p.resolveBy Step.flatContainment b

theorem Program.resolve_of_resolveFlat {b : Builtins} {p : Program} {r : Resolution} (h : p.resolveFlat b = .ok r) :
    p.resolve b = .ok r :=
  resolve_of_resolveBy (fun _ _ _ => Step.containment_of_flatContainment) h

/-- Parses characters. -/
def Program.ofChars (cs : List Char) : Except SourceError Program :=
  match (Scan.scanFrom none {} none cs).toExcept with
  | .error e => .error (.lexical e)
  | .ok tokens => ofTokens none tokens

/-- What is scanned of a literal is scanned of its characters. So it can be evaluated without decoding the literal byte by byte,
which takes longer than parsing it. -/
theorem scan_ofList (cs : List Char) : scan (String.ofList cs) = Scan.scanFrom none {} none cs := by
  rw [scan, String.toList_ofList]

/-- Whatever is computed from the unit of a literal may be computed from its characters. -/
theorem Program.bind_ofSource {α : Type} {g : Program → Option α} {cs : List Char} {a : Option α}
    (h : (ofChars cs).toOption.bind g = a) : (ofSource (String.ofList cs)).toOption.bind g = a := by
  have hsource : ofSource (String.ofList cs) = ofChars cs := by
    rw [ofSource, scan_ofList]
    rfl
  rw [hsource]
  exact h

/-- Whatever is computed from the resolution of a source whose structs hold no structs is computed from what it resolves to. -/
theorem exists_of_resolveFlat {α : Type} {source : String} {g : Resolution → α} {a : α}
    (h : (do
      let p ← (Program.ofSource source).toOption
      let r ← p.resolveFlat.toOption
      return g r) = some a) :
    ∃ p r, Program.ofSource source = .ok p ∧ p.resolve = .ok r ∧ g r = a := by
  obtain ⟨p, hp, h⟩ := Option.bind_eq_some_iff.mp h
  obtain ⟨r, hr, h⟩ := Option.bind_eq_some_iff.mp h
  have hr := Except.toOption_eq_some_iff.mp hr
  exact ⟨p, r, Except.toOption_eq_some_iff.mp hp, Program.resolve_of_resolveFlat hr, Option.some.inj h⟩

/-- The kinds of the problems of a source whose structs hold no structs. -/
def problemKindsOf (source : String) : Option (List Diagnostic.Kind) := do
  let p ← (Program.ofSource source).toOption
  let r ← p.resolveFlat.toOption
  return r.problems.map fun q => q.cause.kind

theorem exists_of_problemKindsOf {source : String} {kinds : List Diagnostic.Kind}
    (h : problemKindsOf source = some kinds) :
    ∃ p r, Program.ofSource source = .ok p ∧ p.resolve = .ok r ∧ r.problems.map (fun q => q.cause.kind) = kinds :=
  exists_of_resolveFlat h

end FlatScope
