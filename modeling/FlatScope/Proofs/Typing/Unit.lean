/-
  Units and the rules. The phases carry every function along from its registration: its header gives it a signature with
  as many parameters as are written, and its body is resolved among the globals that the headers have left. So a function
  with a signature is done exactly if it is typed (`Program.isDone_iff_isTyped`).
-/
import FlatScope.Proofs.Grammar.WellFormed
import FlatScope.Proofs.Resolution.Phases
import FlatScope.Proofs.Resolution.Runs
import FlatScope.Proofs.Typing.Body

namespace FlatScope

/-! ## Headers -/

/-- The state of resolving headers: a function has a signature only if its entry is behind and has not failed. -/
structure Heading (ds : List FuncDecl) (p : Progress) (behind ahead : List Entry) : Prop where
  names : p.functions.map FunctionInfo.name = ds.map FuncDecl.name
  known : ∀ e ∈ behind ++ ahead, e.failure = none → e.decl.IsKnown ds
  heads : ∀ d ∈ ds, ∃ f, p.function? d.name = some f
    ∧ ∀ s, f.signature = some s → s.params.length = d.params.length ∧ ⟨.func d, none⟩ ∈ behind

namespace Heading

variable {ds : List FuncDecl} {p p' : Progress} {behind ahead : List Entry} {d : Decl} {e e' : Entry}

/-- Going on by an entry without a change of functions. -/
theorem snoc (h : Heading ds p behind (e :: ahead)) (hf : p'.functions = p.functions)
    (he : e'.failure = none → e'.decl.IsKnown ds) : Heading ds p' (behind ++ [e']) ahead where
  names := hf ▸ h.names
  known := by
    have hknown := h.known
    rw [List.forall_mem_append, List.forall_mem_cons] at hknown
    rw [List.append_assoc, List.forall_mem_append, List.forall_mem_append, List.forall_mem_singleton]
    exact ⟨hknown.1, he, hknown.2.2⟩
  heads := by
    intro d hd
    obtain ⟨f, hff, hs⟩ := h.heads d hd
    refine ⟨f, ?_, fun s hsig => ⟨(hs s hsig).1, List.mem_append_left _ (hs s hsig).2⟩⟩
    rw [Progress.function?, hf]
    exact hff

theorem skip (p : Progress) (behind : List Entry) (e : Entry) (ahead : List Entry) (he : e.failure.isSome = true)
    (h : Heading ds p behind (e :: ahead)) : Heading ds p (behind ++ [e]) ahead := by
  refine h.snoc rfl fun hn => ?_
  rw [hn] at he
  cases he

theorem init (hds : (ds.map FuncDecl.name).Nodup) {es : List Entry} (hp : p.functions = ds.map fun d => { name := d.name })
    (hes : ∀ e ∈ es, e.failure = none → e.decl.IsKnown ds) : Heading ds p [] es where
  names := by
    rw [hp, List.map_map]
    rfl
  known := hes
  heads := by
    intro d hd
    have hf : p.function? d.name = some { name := d.name } := by
      rw [Progress.function?, hp]
      refine (find?_key_eq_some_iff ?_).mpr ⟨List.mem_map.mpr ⟨d, hd, rfl⟩, rfl⟩
      rwa [List.map_map]
    exact ⟨_, hf, fun _ h => by cases h⟩

theorem step (hds : (ds.map FuncDecl.name).Nodup) (p : Progress) (behind : List Entry) (d : Decl) (ahead : List Entry)
    (h : Heading ds p behind (⟨d, none⟩ :: ahead)) :
    ∃ p' d' problem, Step.header p d = .ok (p', d', problem)
      ∧ Heading ds p' (behind ++ [⟨d', problem.map (Phase.headers, ·)⟩]) ahead := by
  have hd : d.IsKnown ds := h.known ⟨d, none⟩ (List.mem_append_right _ List.mem_cons_self) rfl
  cases d with
  | var d =>
    rw [Step.header]
    cases ht : d.type.resolve p.catalog none false with
    | error halt =>
      have hp := d.type.isProblem_of_resolve (d.type.misplaced?_eq_none hd.1.2) ht
      obtain ⟨problem, hh⟩ := Step.exists_halted hp p (.var d)
      exact ⟨p, .var d, some problem, by simpa only [ht] using hh, h.snoc rfl nofun⟩
    | ok t => exact ⟨_, _, none, rfl, h.snoc rfl fun _ => hd⟩
  | func d =>
    rw [Step.header]
    cases hs : d.signature p.catalog with
    | error halt =>
      obtain ⟨problem, hh⟩ := Step.exists_halted (d.isProblem_of_signature hd.1 hs) p (.func d)
      exact ⟨p, .func d, some problem, by simpa only [hs] using hh, h.snoc rfl nofun⟩
    | ok s =>
      have hbehind : Heading ds p (behind ++ [⟨.func d, none⟩]) ahead := h.snoc rfl fun _ => hd
      have hname : ∀ f : FunctionInfo, ({ f with signature := some s } : FunctionInfo).name = f.name := fun _ => rfl
      refine ⟨_, .func d, none, rfl, ?_, hbehind.known, ?_⟩
      · exact (Progress.map_name_modifyFunction hname).trans h.names
      · refine Progress.exists_function_modifyFunction hds hbehind.heads (hd.2 d rfl) hname ?_ fun _ _ _ _ => id
        intro f _ _ s' hs'
        obtain rfl := Option.some.inj hs'
        exact ⟨d.length_params_of_signature hs, List.mem_append_right _ List.mem_cons_self⟩
  | const d | struct d | foreign node => exact ⟨p, _, none, rfl, h.snoc rfl fun _ => hd⟩

end Heading

/-! ## Bodies -/

/-- Whether a function is typed depends on the global symbols and the structs only. -/
theorem FuncDecl.isTyped_congr {b : Builtins} {c c' : Catalog} (hg : c.globals = c'.globals)
    (hs : c.structs = c'.structs) {s : Signature} {d : FuncDecl} : d.IsTyped b c s ↔ d.IsTyped b c' s := by
  have hrules : d.IsTyped b c s → d.IsTyped b c' s := fun h => ⟨h.distinct, hg ▸ hs ▸ h.body⟩
  exact ⟨hrules, fun h => ⟨h.distinct, hg.symm ▸ hs.symm ▸ h.body⟩⟩

/-- The state of resolving bodies among the global symbols and structs of `c`: the entry of a function with a signature
is ahead, or its body has been resolved, and without a problem exactly if it is typed. -/
structure Entering (b : Builtins) (c : Catalog) (ds : List FuncDecl) (p : Progress) (ahead : List Entry) : Prop where
  names : p.functions.map FunctionInfo.name = ds.map FuncDecl.name
  globals : p.catalog.globals = c.globals
  structs : p.catalog.structs = c.structs
  known : ∀ e ∈ ahead, e.failure = none → e.decl.IsKnown ds
  bodies : ∀ d ∈ ds, ∃ f, p.function? d.name = some f ∧ ∀ s, f.signature = some s → s.params.length = d.params.length
    ∧ (⟨.func d, none⟩ ∈ ahead
      ∨ ∃ entered, f.entered = some entered ∧ (entered.problem = none ↔ d.IsTyped b c s))

namespace Entering

variable {b : Builtins} {c : Catalog} {ds : List FuncDecl} {p : Progress} {ahead : List Entry} {d : Decl}

theorem init {es : List Entry} (h : Heading ds p es []) : Entering b p.catalog ds p es where
  names := h.names
  globals := rfl
  structs := rfl
  known := by
    have hknown := h.known
    rwa [List.append_nil] at hknown
  bodies := by
    intro d hd
    obtain ⟨f, hf, hs⟩ := h.heads d hd
    exact ⟨f, hf, fun s hsig => ⟨(hs s hsig).1, .inl (hs s hsig).2⟩⟩

/-- An entry that is no function in order is passed by. -/
theorem skip {e : Entry} (h : Entering b c ds p (e :: ahead))
    (he : ∀ d ∈ ds, e = ⟨.func d, none⟩ → (p.function? d.name).bind FunctionInfo.signature = none) :
    Entering b c ds p ahead where
  names := h.names
  globals := h.globals
  structs := h.structs
  known := (List.forall_mem_cons.mp h.known).2
  bodies := by
    intro d hd
    obtain ⟨f, hf, hs⟩ := h.bodies d hd
    refine ⟨f, hf, fun s hsig => ⟨(hs s hsig).1, ?_⟩⟩
    obtain hm | hentered := (hs s hsig).2
    · obtain hm | hm := List.mem_cons.mp hm
      · have hnone := he d hd hm.symm
        rw [hf, Option.bind_some, hsig] at hnone
        cases hnone
      · exact .inl hm
    · exact .inr hentered

theorem step (h : Entering b c ds p (⟨d, none⟩ :: ahead)) (hds : (ds.map FuncDecl.name).Nodup) :
    ∃ p' d' problem, Step.body b p d = .ok (p', d', problem) ∧ Entering b c ds p' ahead := by
  have hd : d.IsKnown ds := h.known ⟨d, none⟩ List.mem_cons_self rfl
  cases d with
  | func d =>
    have hmem := hd.2 d rfl
    obtain ⟨f, hf, hs⟩ := h.bodies d hmem
    rw [Step.body]
    cases hsig : f.signature with
    | none =>
      have hnone : (p.function? d.name).bind FunctionInfo.signature = none := by rw [hf, Option.bind_some, hsig]
      rw [hnone]
      refine ⟨p, .func d, none, rfl, h.skip fun d' _ he => ?_⟩
      obtain rfl := Decl.func.inj (Entry.mk.inj he).1
      exact hnone
    | some s =>
      have hsome : (p.function? d.name).bind FunctionInfo.signature = some s := by rw [hf, Option.bind_some, hsig]
      obtain ⟨d', entered, hbody, hname, htyped⟩ := d.resolveBody_iff hd.1 (hs s hsig).1 b p.catalog
      rw [hsome]
      simp only [hbody]
      have hentered : ∀ f : FunctionInfo, ({ f with entered := some entered } : FunctionInfo).name = f.name := fun _ => rfl
      refine ⟨_, .func d', entered.problem, rfl, ?_, h.globals, h.structs, (List.forall_mem_cons.mp h.known).2, ?_⟩
      · exact (Progress.map_name_modifyFunction hentered).trans h.names
      · rw [hname]
        refine Progress.exists_function_modifyFunction hds h.bodies hmem hentered ?_ ?_
        · intro f' hf' _ s' hs'
          obtain rfl := Option.some.inj (hf'.symm.trans hf)
          obtain rfl := Option.some.inj (hs'.symm.trans hsig)
          exact ⟨(hs s' hsig).1, .inr ⟨entered, rfl, htyped.trans (d.isTyped_congr h.globals h.structs)⟩⟩
        · intro d'' _ hne f' hf' s' hs'
          refine ⟨(hf' s' hs').1, (hf' s' hs').2.imp_left fun hm => ?_⟩
          obtain hm | hm := List.mem_cons.mp hm
          · exact absurd (Decl.func.inj (Entry.mk.inj hm).1) hne
          · exact hm
  | const d | var d | struct d | foreign node => exact ⟨p, _, none, rfl, h.skip fun _ _ he => by cases he⟩

end Entering

/-! ## Units -/

/-- The phases run through on a well-formed unit. Its functions are those whose names were free; headers and then bodies are
resolved as `Heading` and `Entering` say. -/
theorem Program.exists_runs_of_isWellFormed {p : Program} (h : p.IsWellFormed) (b : Builtins) :
    ∃ (p₁ p₂ p₃ p₄ p₅ p₆ : Progress) (es₁ es₂ es₃ es₄ es₅ es₆ : List Entry) (ds : List FuncDecl),
      p.Runs b p₁ p₂ p₃ p₄ p₅ p₆ es₁ es₂ es₃ es₄ es₅ es₆
      ∧ (∀ d ∈ ds, p.decls.find? (fun x => x.name? = some d.name) = some (.func d))
      ∧ (ds.map FuncDecl.name).Nodup ∧ Heading ds p₅ es₅ [] ∧ Entering b p₅.catalog ds p₆ [] := by
  obtain ⟨p₁, es₁, hrun₁, hregistered, hdecls⟩ := Phase.exists_run_register p.decls h
  have hds := hregistered.nodup_functions
  have hfind := fun d hd => hregistered.find?_eq_some (d := d) hd
  have hfunctions := hregistered.functions
  have hknown : ∀ e ∈ es₁, e.failure = none → e.decl.IsKnown (es₁.filterMap Entry.function?) := by
    intro e he hf
    refine ⟨h e.decl (hdecls ▸ List.mem_map_of_mem he), fun d hd => List.mem_filterMap.mpr ⟨e, he, ?_⟩⟩
    obtain ⟨decl, failure⟩ := e
    obtain rfl : failure = none := hf
    obtain rfl : decl = .func d := hd
    rfl
  rw [hdecls] at hfind
  generalize es₁.filterMap Entry.function? = ds at hds hfind hfunctions hknown
  have hkeeps : ∀ {step}, Step.Keeps step → ∀ q d, q.functions = p₁.functions → d.IsKnown ds →
      ∃ q' d' problem, step q d = .ok (q', d', problem) ∧ q'.functions = p₁.functions ∧ d'.IsKnown ds := by
    intro step hstep q d hq hd
    obtain ⟨q', d', problem, hs, hf, hd'⟩ := hstep ds q d hd
    exact ⟨q', d', problem, hs, hf.trans hq, hd'⟩
  obtain ⟨p₂, es₂, hrun₂, hf₂, hknown⟩ :=
    Phase.exists_run_of_keeps .constants (hkeeps Step.keeps_constant) rfl hknown
  obtain ⟨p₃, es₃, hrun₃, hf₃, hknown⟩ :=
    Phase.exists_run_of_keeps .fields (hkeeps Step.keeps_fields) hf₂ hknown
  obtain ⟨p₄, es₄, hrun₄, hf₄, hknown⟩ :=
    Phase.exists_run_of_keeps .containment (hkeeps Step.keeps_containment) hf₃ hknown
  obtain ⟨p₅, es₅, hrun₅, hheaded⟩ :=
    Phase.exists_run .headers Heading.skip (Heading.step hds) es₄ p₄ [] (.init hds (hf₄.trans hfunctions) hknown)
  obtain ⟨p₆, es₆, hrun₆, hentered⟩ := Phase.exists_run .bodies
    (I := fun p _ ahead => Entering b p₅.catalog ds p ahead)
    (fun _ _ _ _ hf hI => hI.skip fun _ _ he => by rw [he] at hf; cases hf)
    (fun _ _ _ _ hI => hI.step hds) es₅ p₅ [] (.init hheaded)
  exact ⟨p₁, p₂, p₃, p₄, p₅, p₆, es₁, es₂, es₃, es₄, es₅, es₆, ds, ⟨hrun₁, hrun₂, hrun₃, hrun₄, hrun₅, hrun₆⟩, hfind, hds,
    hheaded, hentered⟩

/-- A well-formed unit is resolved. Its functions are those whose names were free, and each of them that has a signature
has a body that was resolved, without a problem exactly if it is typed. -/
theorem Program.exists_resolve {p : Program} (h : p.IsWellFormed) (builtins : Builtins) :
    ∃ (r : Resolution) (ds : List FuncDecl), p.resolve builtins = .ok r
      ∧ (∀ d ∈ ds, p.decls.find? (fun x => x.name? = some d.name) = some (.func d))
      ∧ (ds.map FuncDecl.name).Nodup ∧ r.functions.map FunctionInfo.name = ds.map FuncDecl.name
      ∧ ∀ d ∈ ds, ∃ f, r.functions.find? (fun f => f.name = d.name) = some f ∧ ∀ s, f.signature = some s →
        ∃ entered, f.entered = some entered ∧ (entered.problem = none ↔ d.IsTyped builtins r.catalog s) := by
  obtain ⟨p₁, p₂, p₃, p₄, p₅, p₆, es₁, es₂, es₃, es₄, es₅, es₆, ds, hruns, hfind, hds, -, hentered⟩ :=
    exists_runs_of_isWellFormed h builtins
  refine ⟨⟨es₆, p.file, p₆.catalog, p₆.functions⟩, ds, hruns.resolve, hfind, hds, hentered.names, fun d hd => ?_⟩
  obtain ⟨f, hf, hs⟩ := hentered.bodies d hd
  refine ⟨f, hf, fun s hsig => ?_⟩
  obtain hm | ⟨entered, he, htyped⟩ := (hs s hsig).2
  · cases hm
  · exact ⟨entered, he, htyped.trans (d.isTyped_congr hentered.globals.symm hentered.structs.symm)⟩

/-- The headers of a well-formed unit are resolved as `Heading` says. -/
theorem Program.Runs.heading {b : Builtins} {p : Program} {p₁ p₂ p₃ p₄ p₅ p₆ : Progress} {es₁ es₂ es₃ es₄ es₅ es₆ : List Entry}
    (h : p.Runs b p₁ p₂ p₃ p₄ p₅ p₆ es₁ es₂ es₃ es₄ es₅ es₆) (hp : p.IsWellFormed) : ∃ ds, Heading ds p₅ es₅ [] := by
  obtain ⟨q₁, q₂, q₃, q₄, q₅, q₆, fs₁, fs₂, fs₃, fs₄, fs₅, fs₆, ds, hruns, -, -, hheading, -⟩ := exists_runs_of_isWellFormed hp b
  obtain ⟨rfl, rfl⟩ := Prod.mk.inj (Except.ok.inj (hruns.registration.symm.trans h.registration))
  obtain ⟨rfl, rfl⟩ := Prod.mk.inj (Except.ok.inj (hruns.constants.symm.trans h.constants))
  obtain ⟨rfl, rfl⟩ := Prod.mk.inj (Except.ok.inj (hruns.fields.symm.trans h.fields))
  obtain ⟨rfl, rfl⟩ := Prod.mk.inj (Except.ok.inj (hruns.containment.symm.trans h.containment))
  obtain ⟨rfl, rfl⟩ := Prod.mk.inj (Except.ok.inj (hruns.headers.symm.trans h.headers))
  exact ⟨ds, hheading⟩

/-- Every unit that is parsed is resolved, and a function that has got a signature is done exactly if it is typed among
the global symbols and the structs of the unit. -/
theorem Program.isDone_iff_isTyped {source : String} {file : Option String} {p : Program} (h : ofSource source file = .ok p)
    (builtins : Builtins) : ∃ r, p.resolve builtins = .ok r ∧ ∀ f ∈ r.functions, ∀ s, f.signature = some s →
      ∃ d, p.decls.find? (fun x => x.name? = some f.name) = some (.func d)
        ∧ (f.state = .done ↔ d.IsTyped builtins r.catalog s) := by
  obtain ⟨r, ds, hr, hfind, hds, hnames, htyped⟩ := exists_resolve (isWellFormed_of_ofSource h) builtins
  refine ⟨r, hr, fun f hf s hs => ?_⟩
  have hname : f.name ∈ ds.map FuncDecl.name := hnames ▸ List.mem_map_of_mem hf
  obtain ⟨d, hd, hdf⟩ := List.mem_map.mp hname
  obtain ⟨f', hf', hbody⟩ := htyped d hd
  have hfound : r.functions.find? (fun f => f.name = d.name) = some f :=
    (find?_key_eq_some_iff (hnames ▸ hds)).mpr ⟨hf, hdf.symm⟩
  obtain rfl := Option.some.inj (hf'.symm.trans hfound)
  obtain ⟨entered, hentered, hiff⟩ := hbody s hs
  refine ⟨d, hdf ▸ hfind d hd, ?_⟩
  rw [← hiff, FunctionInfo.state, hentered]
  obtain ⟨scope, statements, problem⟩ := entered
  cases problem with
  | none => exact iff_of_true rfl rfl
  | some problem => exact iff_of_false nofun nofun

/-- How far the work on the functions of a source gets. -/
def statesOf (source : String) : Option (List FunctionInfo.State) := do
  let p ← (Program.ofSource source).toOption
  let r ← p.resolve.toOption
  return r.functions.map FunctionInfo.state

/-- Of two functions with the same body the one without a result is not done, and it is not typed. -/
theorem Program.isDone_iff_isTyped_twins :
    ∃ p r, ofSource "fun f int() \x7b result := 1 \x7d fun g void() \x7b result := 1 \x7d" = .ok p ∧ p.resolve = .ok r
      ∧ r.functions.map FunctionInfo.state = [.done, .failed]
      ∧ ∀ f ∈ r.functions, ∀ s, f.signature = some s → ∃ d, p.decls.find? (fun x => x.name? = some f.name) = some (.func d)
        ∧ (f.state = .done ↔ d.IsTyped Builtins.standard r.catalog s) := by
  have hstates : statesOf "fun f int() \x7b result := 1 \x7d fun g void() \x7b result := 1 \x7d" = some [.done, .failed] :=
    Program.bind_ofSource (by decide +kernel)
  obtain ⟨p, hp, hstates⟩ := Option.bind_eq_some_iff.mp hstates
  obtain ⟨r, hr, hstates⟩ := Option.bind_eq_some_iff.mp hstates
  have hp := Except.toOption_eq_some_iff.mp hp
  have hr := Except.toOption_eq_some_iff.mp hr
  obtain ⟨r', hr', htyped⟩ := isDone_iff_isTyped hp Builtins.standard
  obtain rfl := Except.ok.inj (hr.symm.trans hr')
  exact ⟨p, r, hp, hr, Option.some.inj hstates, htyped⟩

end FlatScope
