/-
  What is known under a name. All that the phases find out is kept under the names of the declarations; a `Record` is what
  there is under one name. A step changes the record of its own declaration and no other, opens no scope, and declares
  nothing once the registration is over (`Step.IsLocal`). So what holds of every entry and its record in front of a
  phase, and is carried on by the entry's own step, holds behind the phase (`Phase.run_each`).
-/
import FlatScope.Proofs.Reordering.Steps
import FlatScope.Proofs.Resolution.Entries

namespace FlatScope

/-- What is known under a name. -/
structure Record where
  global : Option Symbol := none
  struct : Option StructInfo := none
  function : Option FunctionInfo := none
  scope : Option LocalScope := none

/-- What is found by a key after the items of one key have changed. -/
theorem find?_map_ite {α : Type} (key : α → String) {f : α → α} (hf : ∀ a, key (f a) = key a) (as : List α)
    (name x : String) : (as.map fun a => if key a = name then f a else a).find? (fun a => key a = x)
      = if x = name then (as.find? fun a => key a = x).map f else as.find? fun a => key a = x := by
  rw [find?_map_of_key key (key_ite key hf name)]
  cases ha : as.find? fun a => key a = x with
  | none => rw [Option.map_none, Option.map_none, ite_self]
  | some a =>
    obtain rfl : key a = x := by simpa using List.find?_some ha
    rw [Option.map_some, Option.map_some]
    split <;> rfl

namespace Progress

/-- What is known under a name. -/
def record (p : Progress) (name : String) : Record :=
  ⟨p.catalog.lookupGlobal name, p.catalog.struct? name, p.function? name, p.catalog.scope? name⟩

/-- The names of a state are those of another one, and the same scope is open, or none. -/
structure SameNames (p q : Progress) : Prop where
  globals : q.catalog.globals.map Symbol.name = p.catalog.globals.map Symbol.name
  structs : q.catalog.structs.map StructInfo.name = p.catalog.structs.map StructInfo.name
  functions : q.functions.map FunctionInfo.name = p.functions.map FunctionInfo.name
  current : q.catalog.current = p.catalog.current

variable {p q r : Progress}

theorem SameNames.refl (p : Progress) : p.SameNames p := ⟨rfl, rfl, rfl, rfl⟩

theorem SameNames.trans (h : p.SameNames q) (h' : q.SameNames r) : p.SameNames r :=
  ⟨h'.globals.trans h.globals, h'.structs.trans h.structs, h'.functions.trans h.functions, h'.current.trans h.current⟩

/-- What there is after the fields of a struct have been gone through. -/
def revise (p : Progress) (name : String) (f : StructInfo → StructInfo) : Progress :=
  p.modifyCatalog fun c => c.modifyStruct name f

/-! ## Changes under one name -/

theorem record_evaluate (p : Progress) (name : String) (i : Initializer) (x : String) :
    (p.evaluate name i).record x = if x = name then
      { p.record x with global := (p.record x).global.map fun s => { s with ty := some i.ty, value := i.constant } }
    else p.record x := by
  have hglobal := find?_map_ite Symbol.name (f := fun s => { s with ty := some i.ty, value := i.constant }) (fun _ => rfl)
    p.catalog.globals name x
  rw [record, show (p.evaluate name i).catalog.lookupGlobal x = _ from hglobal]
  split <;> rfl

theorem record_revise {f : StructInfo → StructInfo} (hf : ∀ i, (f i).name = i.name) (p : Progress) (name x : String) :
    (p.revise name f).record x
      = if x = name then { p.record x with struct := (p.record x).struct.map f } else p.record x := by
  have hstruct := find?_map_ite StructInfo.name hf p.catalog.structs name x
  rw [record, show (p.revise name f).catalog.struct? x = _ from hstruct]
  split <;> rfl

theorem record_settle (p : Progress) (name : String) (t : Ty) (s : Option Signature) (x : String) :
    (p.settle name t s).record x = if x = name then
      { p.record x with
        global := (p.record x).global.map fun g => { g with ty := some t }
        function := (p.record x).function.map fun i => { i with signature := s <|> i.signature } }
    else p.record x := by
  have hglobal := find?_map_ite Symbol.name (f := fun g => { g with ty := some t }) (fun _ => rfl) p.catalog.globals name x
  have hfunction := find?_map_ite FunctionInfo.name (f := fun i => { i with signature := s <|> i.signature })
    (fun _ => rfl) p.functions name x
  rw [record, show (p.settle name t s).catalog.lookupGlobal x = _ from hglobal,
    show (p.settle name t s).function? x = _ from hfunction]
  split <;> rfl

theorem record_enter (p : Progress) {name : String} {e : Entered} (he : e.scope.function = name) (x : String) :
    (p.enter name e).record x = if x = name then
      { p.record x with
        function := (p.record x).function.map fun i => { i with entered := some e }
        scope := some e.scope }
    else p.record x := by
  have hfunction := find?_map_ite FunctionInfo.name (f := fun i => { i with entered := some e }) (fun _ => rfl)
    p.functions name x
  rw [record, scope?_enter, he, show (p.enter name e).function? x = _ from hfunction]
  split
  · rename_i h
    rw [if_pos h.symm]
    rfl
  · rename_i h
    rw [if_neg (Ne.symm h)]
    rfl

theorem map_name_ite {α : Type} (key : α → String) {f : α → α} (hf : ∀ a, key (f a) = key a) (as : List α) (name : String) :
    (as.map fun a => if key a = name then f a else a).map key = as.map key := by
  rw [List.map_map]
  exact List.map_congr_left fun a _ => key_ite key hf name a

theorem sameNames_evaluate (p : Progress) (name : String) (i : Initializer) : p.SameNames (p.evaluate name i) where
  globals := map_name_ite Symbol.name (f := fun s => { s with ty := some i.ty, value := i.constant }) (fun _ => rfl) _ name
  structs := rfl
  functions := rfl
  current := rfl

theorem sameNames_revise {f : StructInfo → StructInfo} (hf : ∀ i, (f i).name = i.name) (p : Progress) (name : String) :
    p.SameNames (p.revise name f) where
  globals := rfl
  structs := map_name_ite StructInfo.name hf _ name
  functions := rfl
  current := rfl

theorem sameNames_settle (p : Progress) (name : String) (t : Ty) (s : Option Signature) :
    p.SameNames (p.settle name t s) where
  globals := map_name_ite Symbol.name (f := fun g => { g with ty := some t }) (fun _ => rfl) _ name
  structs := rfl
  functions := map_name_modifyFunction (p := p.modifyCatalog _) fun _ => rfl
  current := rfl

theorem sameNames_enter (p : Progress) (name : String) (e : Entered) : p.SameNames (p.enter name e) where
  globals := rfl
  structs := rfl
  functions := map_name_modifyFunction (p := p.modifyCatalog _) fun _ => rfl
  current := rfl

end Progress

/-! ## What a step does to its own declaration -/

namespace Step

variable {p p' : Progress} {d d' : Decl} {problem : Option Problem}

theorem Ignores.cases {step : Step} (h : step.Ignores d) (hstep : step p d = .ok (p', d', problem)) :
    p' = p ∧ d' = d ∧ problem = none := done_eq_ok ((h p).symm.trans hstep)

/-- A constant gets a type and a value, or it fails and nothing changes. -/
theorem constant_cases {c : ConstDecl} (h : constant p (.const c) = .ok (p', d', problem)) :
    (∃ i, c.initializer p.catalog = .ok i ∧ p' = p.evaluate c.name i ∧ d' = .const { c with value := i.value }
      ∧ problem = none) ∨ p' = p ∧ d' = .const c ∧ ∃ q, problem = some q := by
  rw [constant] at h
  cases hi : c.initializer p.catalog with
  | error halt =>
    rw [hi] at h
    obtain ⟨rfl, rfl, q, -, rfl⟩ := halted_eq_ok.mp h
    exact .inr ⟨rfl, rfl, q, rfl⟩
  | ok i =>
    rw [hi] at h
    obtain ⟨rfl, rfl, rfl⟩ := done_eq_ok h
    exact .inl ⟨i, rfl, rfl, rfl, rfl⟩

/-- A struct gets the fields in front of a problem, and is complete if there is none. -/
theorem fields_cases {s : StructDecl} (h : fields p (.struct s) = .ok (p', d', problem)) : d' = .struct s
    ∧ ∃ known, p' = p.revise s.name (fun i => { i with fields := known, isComplete := problem.isNone })
      ∧ ∃ halt, StructDecl.resolveFields p.catalog s.name [] s.fields = (known, halt)
        ∧ Option.Rel (fun halt q => halt.report = .ok q) halt problem := by
  rw [fields] at h
  cases hf : StructDecl.resolveFields p.catalog s.name [] s.fields with
  | mk known halt =>
    rw [hf] at h
    cases halt with
    | none =>
      obtain ⟨rfl, rfl, rfl⟩ := done_eq_ok h
      exact ⟨rfl, known, rfl, none, rfl, .none⟩
    | some halt =>
      obtain ⟨rfl, rfl, q, hq, rfl⟩ := halted_eq_ok.mp h
      exact ⟨rfl, known, rfl, some halt, rfl, .some hq⟩

/-- A struct inside itself becomes incomplete, and nothing else changes. -/
theorem containment_cases {s : StructDecl} (h : containment p (.struct s) = .ok (p', d', problem)) :
    d' = .struct s ∧ (p' = p ∧ problem = none
      ∨ ∃ cycle, p' = { p.revise s.name fun i => { i with isComplete := false } with onCycle := p.onCycle ++ cycle }
        ∧ problem = some ⟨.selfContaining s.name cycle, s.span⟩) := by
  rw [containment] at h
  split at h
  · obtain ⟨rfl, rfl, rfl⟩ := done_eq_ok h
    exact ⟨rfl, .inl ⟨rfl, rfl⟩⟩
  · rename_i cycle _
    obtain ⟨rfl, rfl, rfl⟩ := done_eq_ok h
    exact ⟨rfl, .inr ⟨cycle, rfl, rfl⟩⟩

/-- A variable or a function is settled, or it fails and nothing changes. -/
theorem header_cases {x : Except Halt (String × Ty × Option Signature)} (hx : d.header? p.catalog = some x)
    (h : header p d = .ok (p', d', problem)) :
    d' = d ∧ ((∃ name t s, x = .ok (name, t, s) ∧ p' = p.settle name t s ∧ problem = none)
      ∨ p' = p ∧ ∃ q, problem = some q) := by
  cases problem with
  | none =>
    obtain ⟨hnone, -⟩ | ⟨name, t, s, hsome, rfl, rfl⟩ := header_eq_ok.mp h
    · cases hnone.symm.trans hx
    · exact ⟨rfl, .inl ⟨name, t, s, Option.some.inj (hx.symm.trans hsome), rfl, rfl⟩⟩
  | some q =>
    refine ⟨keepsDecl_header _ _ _ _ _ h, .inr ⟨?_, q, rfl⟩⟩
    cases d with
    | var d =>
      rw [header] at h
      split at h
      · exact (halted_eq_ok.mp h).1
      · cases (done_eq_ok h).2.2
    | func d =>
      rw [header] at h
      split at h
      · exact (halted_eq_ok.mp h).1
      · cases (done_eq_ok h).2.2
    | const _ | struct _ | foreign _ => cases hx

/-! ## Other declarations -/

/-- A step changes nothing but the record of its own declaration. -/
structure IsLocal (step : Step) : Prop where
  name : ∀ p d p' d' problem, step p d = .ok (p', d', problem) → d'.name? = d.name?
  record : ∀ {p d p' d' problem x}, step p d = .ok (p', d', problem) → d.name? ≠ some x → p'.record x = p.record x
  names : ∀ {p d p' d' problem}, step p d = .ok (p', d', problem) → p.SameNames p'

theorem isLocal_constant : IsLocal constant where
  name := keepsName_constant.name
  record := by
    intro p d p' d' problem x h hx
    cases d with
    | const c =>
      obtain ⟨i, -, rfl, -, -⟩ | ⟨rfl, -⟩ := constant_cases h
      · rw [Progress.record_evaluate, if_neg fun he => hx (congrArg some he.symm)]
      · rfl
    | var _ | struct _ | func _ | foreign _ => rw [((ignores_constant rfl).cases h).1]
  names := by
    intro p d p' d' problem h
    cases d with
    | const c =>
      obtain ⟨i, -, rfl, -, -⟩ | ⟨rfl, -⟩ := constant_cases h
      · exact p.sameNames_evaluate c.name i
      · exact .refl _
    | var _ | struct _ | func _ | foreign _ =>
      rw [((ignores_constant rfl).cases h).1]
      exact .refl _

theorem isLocal_fields : IsLocal fields where
  name := keepsDecl_fields.keepsName.name
  record := by
    intro p d p' d' problem x h hx
    cases d with
    | struct s =>
      obtain ⟨-, known, rfl, -⟩ := fields_cases h
      have hname (i : StructInfo) : { i with fields := known, isComplete := problem.isNone }.name = i.name := rfl
      rw [Progress.record_revise hname, if_neg fun he => hx (congrArg some he.symm)]
    | const _ | var _ | func _ | foreign _ => rw [((show Ignores fields _ from fun _ => rfl).cases h).1]
  names := by
    intro p d p' d' problem h
    cases d with
    | struct s =>
      obtain ⟨-, known, rfl, -⟩ := fields_cases h
      have hname (i : StructInfo) : { i with fields := known, isComplete := problem.isNone }.name = i.name := rfl
      exact Progress.sameNames_revise hname p s.name
    | const _ | var _ | func _ | foreign _ =>
      rw [((show Ignores fields _ from fun _ => rfl).cases h).1]
      exact .refl _

theorem isLocal_containment : IsLocal containment where
  name := keepsDecl_containment.keepsName.name
  record := by
    intro p d p' d' problem x h hx
    cases d with
    | struct s =>
      obtain ⟨-, ⟨rfl, -⟩ | ⟨cycle, rfl, -⟩⟩ := containment_cases h
      · rfl
      · have hrecord := Progress.record_revise (f := fun i => { i with isComplete := false }) (fun _ => rfl) p s.name x
        rw [if_neg fun he => hx (congrArg some he.symm)] at hrecord
        exact hrecord
    | const _ | var _ | func _ | foreign _ => rw [((show Ignores containment _ from fun _ => rfl).cases h).1]
  names := by
    intro p d p' d' problem h
    cases d with
    | struct s =>
      obtain ⟨-, ⟨rfl, -⟩ | ⟨cycle, rfl, -⟩⟩ := containment_cases h
      · exact .refl _
      · obtain ⟨hglobals, hstructs, hfunctions, hcurrent⟩ :=
          Progress.sameNames_revise (f := fun i => { i with isComplete := false }) (fun _ => rfl) p s.name
        exact ⟨hglobals, hstructs, hfunctions, hcurrent⟩
    | const _ | var _ | func _ | foreign _ =>
      rw [((show Ignores containment _ from fun _ => rfl).cases h).1]
      exact .refl _

theorem isLocal_header : IsLocal header where
  name := keepsDecl_header.keepsName.name
  record := by
    intro p d p' d' problem x h hx
    cases hd : d.header? p.catalog with
    | none => rw [((ignores_header hd).cases h).1]
    | some header =>
      obtain ⟨-, ⟨name, t, s, rfl, rfl, -⟩ | ⟨rfl, -⟩⟩ := header_cases hd h
      · rw [Progress.record_settle, if_neg]
        rintro rfl
        exact hx (Decl.name?_of_header? hd).1
      · rfl
  names := by
    intro p d p' d' problem h
    cases hd : d.header? p.catalog with
    | none =>
      rw [((ignores_header hd).cases h).1]
      exact .refl _
    | some header =>
      obtain ⟨-, ⟨name, t, s, rfl, rfl, -⟩ | ⟨rfl, -⟩⟩ := header_cases hd h
      · exact p.sameNames_settle name t s
      · exact .refl _

theorem isLocal_body (b : Builtins) : IsLocal (body b) where
  name := by
    intro p d p' d' problem h
    cases d with
    | func f =>
      obtain ⟨-, -, rfl, -⟩ | ⟨s, f', e, -, he, -, rfl, -⟩ := body_eq_ok.mp h
      · rfl
      · exact congrArg some (FuncDecl.name_of_resolveBody he).1
    | const _ | var _ | struct _ | foreign _ => rw [((show Ignores (body b) _ from fun _ => rfl).cases h).2.1]
  record := by
    intro p d p' d' problem x h hx
    cases d with
    | func f =>
      obtain ⟨-, rfl, -, -⟩ | ⟨s, f', e, -, he, rfl, -, -⟩ := body_eq_ok.mp h
      · rfl
      · rw [p.record_enter (FuncDecl.name_of_resolveBody he).2, if_neg fun he => hx (congrArg some he.symm)]
    | const _ | var _ | struct _ | foreign _ => rw [((show Ignores (body b) _ from fun _ => rfl).cases h).1]
  names := by
    intro p d p' d' problem h
    cases d with
    | func f =>
      obtain ⟨-, rfl, -, -⟩ | ⟨s, f', e, -, he, rfl, -, -⟩ := body_eq_ok.mp h
      · exact .refl _
      · exact p.sameNames_enter f.name e
    | const _ | var _ | struct _ | foreign _ =>
      rw [((show Ignores (body b) _ from fun _ => rfl).cases h).1]
      exact .refl _

end Step

/-! ## Runs -/

namespace Phase

variable {phase : Phase} {step : Step} {p p' : Progress} {es es' : List Entry}

theorem names_run (hstep : step.IsLocal) (hrun : phase.run step p es = .ok (p', es')) : p.SameNames p' := by
  induction es generalizing p es' with
  | nil =>
    obtain ⟨rfl, -⟩ := Prod.mk.inj (Except.ok.inj hrun)
    exact .refl _
  | cons e es ih =>
    obtain ⟨d, failure⟩ := e
    cases failure with
    | some failure =>
      obtain ⟨rest, hrest, -⟩ := (run_failed_eq_ok phase rfl).mp hrun
      exact ih hrest
    | none =>
      obtain ⟨q, d', problem, rest, hone, hrest, -⟩ := (run_cons_eq_ok phase).mp hrun
      exact (hstep.names hone).trans (ih hrest)

/-- A name that no entry has whose step is taken keeps its record. -/
theorem record_run (hstep : step.IsLocal) {x : String} (hes : ∀ e ∈ es, e.failure = none → e.decl.name? ≠ some x)
    (hrun : phase.run step p es = .ok (p', es')) : p'.record x = p.record x := by
  induction es generalizing p es' with
  | nil =>
    obtain ⟨rfl, -⟩ := Prod.mk.inj (Except.ok.inj hrun)
    rfl
  | cons e es ih =>
    obtain ⟨d, failure⟩ := e
    obtain ⟨he, htail⟩ := List.forall_mem_cons.mp hes
    cases failure with
    | some failure =>
      obtain ⟨rest, hrest, -⟩ := (run_failed_eq_ok phase rfl).mp hrun
      exact ih htail hrest
    | none =>
      obtain ⟨q, d', problem, rest, hone, hrest, -⟩ := (run_cons_eq_ok phase).mp hrun
      exact (ih htail hrest).trans (hstep.record hone (he rfl))

/-- Something holds of every entry that has got its name, and of what is known under the name. -/
def Holds (R : Record → Entry → Prop) (p : Progress) (es : List Entry) : Prop :=
  ∀ e ∈ es, e.IsRegistered → ∀ name, e.decl.name? = some name → R (p.record name) e

/-- What holds of every entry and its record in front of a phase, and is carried on by the step of the entry, holds behind
the phase. The step may count on what all steps keep. -/
theorem run_each (hstep : step.IsLocal) {I : Progress → Prop} {R R' : Record → Entry → Prop}
    (hkeeps : ∀ p d p' d' problem, I p → step p d = .ok (p', d', problem) → I p')
    (hfailed : ∀ r e, e.failure.isSome = true → R r e → R' r e)
    (hown : ∀ p d name p' d' problem, I p → d.name? = some name → R (p.record name) ⟨d, none⟩ →
      step p d = .ok (p', d', problem) → R' (p'.record name) ⟨d', problem.map (phase, ·)⟩)
    (hapart : es.Pairwise Entry.IsApart) (hp : I p) (hes : Holds R p es) (hrun : phase.run step p es = .ok (p', es')) :
    Holds R' p' es' := by
  induction es generalizing p es' with
  | nil =>
    obtain ⟨-, rfl⟩ := Prod.mk.inj (Except.ok.inj hrun)
    exact List.forall_mem_nil _
  | cons e es ih =>
    obtain ⟨d, failure⟩ := e
    obtain ⟨hfirst, hrestapart⟩ := List.pairwise_cons.mp hapart
    obtain ⟨he, hrestholds⟩ := List.forall_mem_cons.mp hes
    cases failure with
    | some failure =>
      obtain ⟨rest, hrest, rfl⟩ := (run_failed_eq_ok phase rfl).mp hrun
      refine List.forall_mem_cons.mpr ⟨fun hr name hname => ?_, ih hrestapart hp hrestholds hrest⟩
      -- the entries behind have other names
      have hothers : ∀ a ∈ es, a.failure = none → a.decl.name? ≠ some name :=
        fun a ha hn hname' => hfirst a ha hr (.of_eq_none hn) (hname.trans hname'.symm)
      rw [record_run hstep hothers hrest]
      exact hfailed _ _ rfl (he hr name hname)
    | none =>
      obtain ⟨q, d', problem, rest, hone, hrest, rfl⟩ := (run_cons_eq_ok phase).mp hrun
      have hkept : Holds R q es := by
        intro a ha hr name hname
        rw [hstep.record hone fun hd => hfirst a ha (.of_eq_none rfl) hr (hd.trans hname.symm)]
        exact hrestholds a ha hr name hname
      refine List.forall_mem_cons.mpr ⟨fun _ name hname => ?_, ih hrestapart (hkeeps _ _ _ _ _ hp hone) hkept hrest⟩
      have hd : d.name? = some name := (hstep.name _ _ _ _ _ hone).symm.trans hname
      have hothers : ∀ a ∈ es, a.failure = none → a.decl.name? ≠ some name :=
        fun a ha hn hname' => hfirst a ha (.of_eq_none rfl) (.of_eq_none hn) (hd.trans hname'.symm)
      rw [record_run hstep hothers hrest]
      exact hown p d name q d' problem hp hd (he (.of_eq_none rfl) name hd) hone

end Phase

end FlatScope
