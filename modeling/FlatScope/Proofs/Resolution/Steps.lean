/-
  What a step of a phase can do. A step that halts leaves everything as it is; only the steps of constants and of bodies
  change a declaration (`Step.KeepsDecl`), and none changes its name (`Step.KeepsName`); and no step but that of bodies
  looks into the body of a function (`Step.IsBlind`). A name is registered if it is free (`Step.register_eq_ok`), and a
  body is entered if its function has a signature (`Step.body_eq_ok`). What is found under a name after a step is what was found
  there before, or what the step has put there or made of it; under other names nothing changes.
-/
import FlatScope.Proofs.Resolution.Body
import FlatScope.Proofs.Resolution.Phases

namespace FlatScope

/-- A function without its body. -/
def FuncDecl.head (d : FuncDecl) : FuncDecl := { d with body := [], braces := .around {} }

/-- The struct that a declaration is registered with, if it declares one. -/
def Decl.ownStructs : Decl → List StructInfo
  | .struct d => [{ name := d.name, span := d.span }]
  | _ => []

/-- The function that a declaration is registered with, if it declares one. -/
def Decl.ownFunctions : Decl → List FunctionInfo
  | .func d => [{ name := d.name }]
  | _ => []

namespace Progress

/-- What there is after the registration of a declaration. -/
def declare (p : Progress) (s : Symbol) (d : Decl) : Progress where
  catalog := { p.catalog with globals := p.catalog.globals ++ [s], structs := p.catalog.structs ++ d.ownStructs }
  functions := p.functions ++ d.ownFunctions
  onCycle := p.onCycle

/-- What there is after the work on the body of a function. -/
def enter (p : Progress) (name : String) (e : Entered) : Progress :=
  (p.modifyCatalog fun c => { c with finished := Catalog.finish c.finished e.scope }).modifyFunction name
    fun i => { i with entered := some e }

end Progress

/-- A declaration without the body of a function. -/
def Decl.head : Decl → Decl
  | .func d => .func d.head
  | d => d

namespace Step

variable {p p' : Progress} {d d' : Decl} {problem : Option Problem}

theorem done_eq_ok {p₁ : Progress} {d₁ : Decl} {problem₁ : Option Problem}
    (h : (.ok (p₁, d₁, problem₁) : Except Misplaced (Progress × Decl × Option Problem)) = .ok (p', d', problem)) :
    p' = p₁ ∧ d' = d₁ ∧ problem = problem₁ := by
  obtain ⟨rfl, hrest⟩ := Prod.mk.inj (Except.ok.inj h)
  obtain ⟨rfl, rfl⟩ := Prod.mk.inj hrest
  exact ⟨rfl, rfl, rfl⟩

/-- A step that halts leaves everything as it is, and has a problem. -/
theorem halted_eq_ok {halt : Halt} : halted p d halt = .ok (p', d', problem)
    ↔ p' = p ∧ d' = d ∧ ∃ q, halt.report = .ok q ∧ problem = some q := by
  rw [halted, Except.bind_eq_ok]
  constructor
  · rintro ⟨q, hq, h⟩
    obtain ⟨rfl, rfl, rfl⟩ := done_eq_ok h
    exact ⟨rfl, rfl, q, hq, rfl⟩
  · rintro ⟨rfl, rfl, q, hq, rfl⟩
    exact ⟨q, hq, rfl⟩

/-! ## Registration -/

theorem name?_of_symbol {s : Symbol} (h : symbol d = .ok s) : d.name? = some s.name := by
  cases d with
  | const d | var d | struct d | func d =>
    obtain rfl := Except.ok.inj h
    rfl
  | foreign node => cases h

theorem register_of_some {s previous : Symbol} (hs : symbol d = .ok s) (h : p.catalog.lookupGlobal s.name = some previous) :
    register p d = .ok (p, d, some ⟨.duplicate ⟨s.name, previous, none⟩, s.span⟩) := by
  have hadd : p.catalog.addGlobal s = .error ⟨s.name, previous, none⟩ := by
    rw [Catalog.addGlobal, show Symbol.find? p.catalog.globals s.name = some previous from h]
  simp only [register, hs, bind, Except.bind, hadd]
  rfl

theorem register_of_none {s : Symbol} (hs : symbol d = .ok s) (h : p.catalog.lookupGlobal s.name = none) :
    register p d = .ok (p.declare s d, d, none) := by
  have hadd : p.catalog.addGlobal s = .ok { p.catalog with globals := p.catalog.globals ++ [s] } := by
    rw [Catalog.addGlobal, show Symbol.find? p.catalog.globals s.name = none from h]
  simp only [register, hs, bind, Except.bind, hadd, Progress.declare]
  cases d <;> simp [Decl.ownStructs, Decl.ownFunctions, Progress.modifyCatalog, pure, Except.pure]

/-- A declaration is registered if its name is free. -/
theorem register_eq_ok : register p d = .ok (p', d', problem) ↔ ∃ s, symbol d = .ok s ∧ d' = d
    ∧ ((∃ previous, p.catalog.lookupGlobal s.name = some previous ∧ p' = p
          ∧ problem = some ⟨.duplicate ⟨s.name, previous, none⟩, s.span⟩)
      ∨ p.catalog.lookupGlobal s.name = none ∧ p' = p.declare s d ∧ problem = none) := by
  constructor
  · intro h
    obtain ⟨s, hs, -⟩ := Except.bind_eq_ok.mp h
    cases hfind : p.catalog.lookupGlobal s.name with
    | some previous =>
      rw [register_of_some hs hfind] at h
      obtain ⟨rfl, rfl, rfl⟩ := done_eq_ok h
      exact ⟨s, hs, rfl, .inl ⟨previous, hfind, rfl, rfl⟩⟩
    | none =>
      rw [register_of_none hs hfind] at h
      obtain ⟨rfl, rfl, rfl⟩ := done_eq_ok h
      exact ⟨s, hs, rfl, .inr ⟨hfind, rfl, rfl⟩⟩
  · rintro ⟨s, hs, rfl, ⟨previous, hfind, rfl, rfl⟩ | ⟨hfind, rfl, rfl⟩⟩
    · exact register_of_some hs hfind
    · exact register_of_none hs hfind

/-! ## Bodies -/

/-- The body of a function is entered if the function has a signature. -/
theorem body_eq_ok {b : Builtins} {f : FuncDecl} : body b p (.func f) = .ok (p', d', problem)
    ↔ (p.function? f.name).bind FunctionInfo.signature = none ∧ p' = p ∧ d' = .func f ∧ problem = none
      ∨ ∃ s f' e, (p.function? f.name).bind FunctionInfo.signature = some s
        ∧ f.resolveBody b p.catalog s = .ok (f', e) ∧ p' = p.enter f.name e ∧ d' = .func f' ∧ problem = e.problem := by
  have hstep (s : Signature) (hs : (p.function? f.name).bind FunctionInfo.signature = some s) (r : FuncDecl × Entered)
      (hr : f.resolveBody b p.catalog s = .ok r) :
      body b p (.func f) = .ok (p.enter f.name r.2, .func r.1, r.2.problem) := by
    rw [body, hs]
    dsimp only
    rw [hr, ← (FuncDecl.name_of_resolveBody hr).1]
    rfl
  constructor
  · intro h
    cases hs : (p.function? f.name).bind FunctionInfo.signature with
    | none =>
      rw [body, hs] at h
      obtain ⟨rfl, rfl, rfl⟩ := done_eq_ok h
      exact .inl ⟨rfl, rfl, rfl, rfl⟩
    | some s =>
      have hbody := h
      rw [body, hs] at hbody
      obtain ⟨r, hr, -⟩ := Except.bind_eq_ok.mp hbody
      rw [hstep s hs r hr] at h
      obtain ⟨rfl, rfl, rfl⟩ := done_eq_ok h
      exact .inr ⟨s, r.1, r.2, rfl, hr, rfl, rfl, rfl⟩
  · rintro (⟨hs, rfl, rfl, rfl⟩ | ⟨s, f', e, hs, hr, rfl, rfl, rfl⟩)
    · rw [body, hs]
    · exact hstep s hs (f', e) hr

/-! ## Steps that change no declaration -/

/-- A step goes on with every declaration as it is. -/
def KeepsDecl (step : Step) : Prop := ∀ p d p' d' problem, step p d = .ok (p', d', problem) → d' = d

theorem keepsDecl_register : KeepsDecl register := by
  intro p d p' d' problem h
  obtain ⟨s, -, hd, -⟩ := register_eq_ok.mp h
  exact hd

theorem keepsDecl_fields : KeepsDecl fields := by
  intro p d p' d' problem h
  cases d with
  | struct d =>
    rw [fields] at h
    cases hfields : StructDecl.resolveFields p.catalog d.name [] d.fields with
    | mk known halt =>
      rw [hfields] at h
      cases halt with
      | none => exact (done_eq_ok h).2.1
      | some halt => exact (halted_eq_ok.mp h).2.1
  | const _ | var _ | func _ | foreign _ => exact (done_eq_ok h).2.1

theorem keepsDecl_containment : KeepsDecl containment := by
  intro p d p' d' problem h
  cases d with
  | struct d =>
    rw [containment] at h
    split at h <;> exact (done_eq_ok h).2.1
  | const _ | var _ | func _ | foreign _ => exact (done_eq_ok h).2.1

theorem keepsDecl_header : KeepsDecl header := by
  intro p d p' d' problem h
  cases d with
  | var d =>
    rw [header] at h
    cases htype : d.type.resolve p.catalog none false with
    | error halt =>
      rw [htype] at h
      exact (halted_eq_ok.mp h).2.1
    | ok t =>
      rw [htype] at h
      exact (done_eq_ok h).2.1
  | func d =>
    rw [header] at h
    cases hs : d.signature p.catalog with
    | error halt =>
      rw [hs] at h
      exact (halted_eq_ok.mp h).2.1
    | ok s =>
      rw [hs] at h
      exact (done_eq_ok h).2.1
  | const _ | struct _ | foreign _ => exact (done_eq_ok h).2.1

/-- A step goes on with declarations of the same names, and with every function as it is. -/
structure KeepsName (step : Step) : Prop where
  name : ∀ p d p' d' problem, step p d = .ok (p', d', problem) → d'.name? = d.name?
  func : ∀ p f p' d' problem, step p (.func f) = .ok (p', d', problem) → d' = .func f

theorem KeepsDecl.keepsName {step : Step} (h : step.KeepsDecl) : step.KeepsName where
  name p d p' d' problem hstep := by rw [h p d p' d' problem hstep]
  func p f p' d' problem hstep := h p (.func f) p' d' problem hstep

theorem keepsName_constant : KeepsName constant where
  name p d p' d' problem h := by
    cases d with
    | const d =>
      rw [constant] at h
      cases hi : d.initializer p.catalog with
      | error halt =>
        rw [hi] at h
        rw [(halted_eq_ok.mp h).2.1]
      | ok i =>
        rw [hi] at h
        rw [(done_eq_ok h).2.1]
        rfl
    | var _ | struct _ | func _ | foreign _ => rw [(done_eq_ok h).2.1]
  func p f p' d' problem h := (done_eq_ok h).2.1

/-! ## Steps that do not look into bodies -/

/-- The outcome of a step without the body of a function. -/
def headed (r : Progress × Decl × Option Problem) : Progress × Decl × Option Problem := (r.1, r.2.1.head, r.2.2)

/-- A step does without the body of a function what it does with the body. -/
def IsBlind (step : Step) : Prop := ∀ p d, step p d.head = (step p d).map headed

theorem halted_head (p : Progress) (d : Decl) (halt : Halt) : halted p d.head halt = (halted p d halt).map headed := by
  cases halt <;> rfl

theorem isBlind_register : IsBlind register := by
  intro p d
  cases d with
  | const d | var d | struct d | func d =>
    simp only [register, symbol, Decl.head, FuncDecl.head, bind, Except.bind]
    split <;> rfl
  | foreign node => rfl

theorem isBlind_constant : IsBlind constant := by
  intro p d
  cases d with
  | const d =>
    simp only [constant, Decl.head]
    cases d.initializer p.catalog with
    | error halt => exact halted_head p (.const d) halt
    | ok i => rfl
  | var _ | struct _ | func _ | foreign _ => rfl

theorem isBlind_fields : IsBlind fields := by
  intro p d
  cases d with
  | struct d =>
    simp only [fields, Decl.head]
    cases StructDecl.resolveFields p.catalog d.name [] d.fields with
    | mk known halt =>
      cases halt with
      | none => rfl
      | some halt => exact halted_head _ (.struct d) halt
  | const _ | var _ | func _ | foreign _ => rfl

theorem isBlind_containment : IsBlind containment := by
  intro p d
  cases d with
  | struct d =>
    simp only [containment, Decl.head]
    split <;> rfl
  | const _ | var _ | func _ | foreign _ => rfl

theorem isBlind_header : IsBlind header := by
  intro p d
  cases d with
  | var d =>
    simp only [header, Decl.head]
    cases d.type.resolve p.catalog none false with
    | error halt => exact halted_head p (.var d) halt
    | ok t => rfl
  | func d =>
    have hsignature : d.head.signature p.catalog = d.signature p.catalog := rfl
    simp only [header, Decl.head, hsignature]
    cases d.signature p.catalog with
    | error halt => exact halted_head p (.func d) halt
    | ok s => rfl
  | const _ | struct _ | foreign _ => rfl

/-- What a blind step does is settled by the declaration without a body. -/
theorem IsBlind.eq_ok {step : Step} (h : step.IsBlind) {last : Decl} (hlast : last.head = d.head)
    (hstep : step p d = .ok (p', d', problem)) : ∃ d₁, step p last = .ok (p', d₁, problem) ∧ d₁.head = d'.head := by
  have hsame : (step p last).map headed = .ok (p', d'.head, problem) := by
    rw [← h, hlast, h, hstep, Except.map, headed]
  cases hs : step p last with
  | error m =>
    rw [hs] at hsame
    cases hsame
  | ok r =>
    rw [hs] at hsame
    obtain ⟨hp, hd, hproblem⟩ := done_eq_ok hsame
    exact ⟨r.2.1, by rw [hp, hproblem], hd.symm⟩

end Step

/-- What is found by a key after changes that keep the keys. -/
theorem find?_map_of_key {α : Type} (key : α → String) {f : α → α} (hf : ∀ a, key (f a) = key a) (as : List α)
    (name : String) : (as.map f).find? (fun a => key a = name) = (as.find? fun a => key a = name).map f := by
  rw [List.find?_map]
  refine congrArg (fun test => (as.find? test).map f) (funext fun a => ?_)
  exact congrArg (fun n => decide (n = name)) (hf a)

theorem find?_map_congr {α : Type} (key : α → String) (f : α → α) (hf : ∀ a, key (f a) = key a) {as bs : List α}
    {name : String} (h : (bs.find? fun a => key a = name) = as.find? fun a => key a = name) :
    (bs.map f).find? (fun a => key a = name) = (as.map f).find? fun a => key a = name := by
  rw [find?_map_of_key key hf, find?_map_of_key key hf, h]

/-- A change at one name keeps the keys if it does so there. -/
theorem key_ite {α : Type} (key : α → String) {f : α → α} (hf : ∀ a, key (f a) = key a) (name : String) (a : α) :
    key (if key a = name then f a else a) = key a := by
  split
  · exact hf a
  · rfl

/-- What is found by a key after one more element, which takes the place of an older one with its key. -/
theorem find?_replace {α : Type} (key : α → String) (as : List α) (a : α) (name : String) :
    (if as.any fun b => key b = key a then as.map fun b => if key b = key a then a else b
      else as ++ [a]).find? (fun b => key b = name)
      = if key a = name then some a else as.find? fun b => key b = name := by
  have hfound (b : α) (hb : as.find? (fun b => key b = name) = some b) : b ∈ as ∧ key b = name :=
    ⟨List.mem_of_find?_eq_some hb, by simpa using List.find?_some hb⟩
  split
  · rename_i hany
    have hkey (b : α) : key (if key b = key a then a else b) = key b := by
      split
      · rename_i h
        exact h.symm
      · rfl
    rw [find?_map_of_key key hkey]
    cases hb : as.find? fun b => key b = name with
    | none =>
      obtain ⟨b, hmem, hname⟩ := List.any_eq_true.mp hany
      rw [if_neg fun h => List.find?_eq_none.mp hb b hmem (by simpa [h] using hname)]
      rfl
    | some b =>
      rw [Option.map_some, (hfound b hb).2]
      split
      · rename_i h
        rw [if_pos h.symm]
      · rename_i h
        rw [if_neg (Ne.symm h)]
  · rename_i hany
    rw [List.find?_append, List.find?_singleton]
    cases hb : as.find? fun b => key b = name with
    | none => simp
    | some b =>
      obtain ⟨hmem, hname⟩ := hfound b hb
      have hne : key a ≠ name := fun h => hany (List.any_eq_true.mpr ⟨b, hmem, by simp [h, hname]⟩)
      rw [Option.some_or, if_neg hne]

namespace Catalog

theorem lookupGlobal_modifyGlobal {f : Symbol → Symbol} (hf : ∀ s, (f s).name = s.name) (c : Catalog) (name x : String) :
    (c.modifyGlobal name f).lookupGlobal x = (c.lookupGlobal x).map fun s => if s.name = name then f s else s :=
  find?_map_of_key Symbol.name (key_ite Symbol.name hf name) c.globals x

theorem struct?_modifyStruct {f : StructInfo → StructInfo} (hf : ∀ s, (f s).name = s.name) (c : Catalog) (name x : String) :
    (c.modifyStruct name f).struct? x = (c.struct? x).map fun s => if s.name = name then f s else s :=
  find?_map_of_key StructInfo.name (key_ite StructInfo.name hf name) c.structs x

/-- The scopes that are finished by name, after one more. -/
theorem find?_finish (finished : List LocalScope) (scope : LocalScope) (name : String) :
    (finish finished scope).find? (fun s => s.function = name)
      = if scope.function = name then some scope else finished.find? fun s => s.function = name :=
  find?_replace LocalScope.function finished scope name

end Catalog

namespace Progress

theorem lookupGlobal_declare (p : Progress) (s : Symbol) (d : Decl) (name : String) :
    (p.declare s d).catalog.lookupGlobal name
      = (p.catalog.lookupGlobal name).or (if s.name = name then some s else none) := by
  rw [declare, Catalog.lookupGlobal, Symbol.find?, List.find?_append, List.find?_singleton, Catalog.lookupGlobal,
    Symbol.find?]
  simp only [decide_eq_true_eq]

theorem struct?_declare (p : Progress) (s : Symbol) (d : Decl) (name : String) :
    (p.declare s d).catalog.struct? name = (p.catalog.struct? name).or (d.ownStructs.find? fun i => i.name = name) :=
  List.find?_append

theorem function?_declare (p : Progress) (s : Symbol) (d : Decl) (name : String) :
    (p.declare s d).function? name = (p.function? name).or (d.ownFunctions.find? fun i => i.name = name) :=
  List.find?_append

theorem function?_enter (p : Progress) (function : String) (e : Entered) (name : String) :
    (p.enter function e).function? name
      = (p.function? name).map fun f => if f.name = function then { f with entered := some e } else f :=
  Progress.function?_modifyFunction (p := p.modifyCatalog _) fun _ => rfl

theorem signature_enter (p : Progress) (function : String) (e : Entered) (name : String) :
    ((p.enter function e).function? name).bind FunctionInfo.signature = (p.function? name).bind FunctionInfo.signature := by
  rw [function?_enter]
  cases p.function? name with
  | none => rfl
  | some f =>
    rw [Option.map_some, Option.bind_some, Option.bind_some]
    split <;> rfl

theorem scope?_enter (p : Progress) (function : String) (e : Entered) (name : String) :
    (p.enter function e).catalog.scope? name
      = if e.scope.function = name then some e.scope else p.catalog.scope? name :=
  Catalog.find?_finish p.catalog.finished e.scope name

end Progress

end FlatScope
