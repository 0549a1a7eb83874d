/-
  The phases of resolving. What a phase keeps is shown for one declaration and follows for all of them
  (`Phase.exists_run`). No phase gives up on a well-formed unit: after the registration the functions are those whose
  names were free, and the phases behind it keep these and the form of the declarations (`Phase.exists_run_of_keeps`).
-/
import FlatScope.Proofs.Resolution.Placed
import FlatScope.Resolution.Unit
import Mathlib.Data.List.Nodup

namespace FlatScope

/-- The name that a declaration declares. -/
def Decl.name? : Decl → Option String
  | const d => some d.name
  | var d => some d.name
  | struct d => some d.name
  | func d => some d.name
  | foreign _ => none

/-- The function of an entry that has not failed. -/
def Entry.function? : Entry → Option FuncDecl
  | ⟨.func d, none⟩ => some d
  | _ => none

theorem Entry.function?_eq_some_iff {e : Entry} {d : FuncDecl} : e.function? = some d ↔ e = ⟨.func d, none⟩ := by
  constructor
  · intro h
    unfold function? at h
    split at h
    · exact Option.some.inj h ▸ rfl
    · cases h
  · rintro rfl
    rfl

/-! ## Functions by name -/

namespace Progress

variable {p : Progress} {name x : String} {g : FunctionInfo → FunctionInfo}

theorem function?_modifyFunction (hg : ∀ f, (g f).name = f.name) :
    (p.modifyFunction name g).function? x = (p.function? x).map fun f => if f.name = name then g f else f := by
  have hname : ∀ f : FunctionInfo, (if f.name = name then g f else f).name = f.name := by
    intro f
    split
    · exact hg f
    · rfl
  rw [function?, modifyFunction, List.find?_map, function?]
  refine congrArg (fun test => (p.functions.find? test).map _) (funext fun f => ?_)
  exact congrArg (fun n => decide (n = x)) (hname f)

theorem map_name_modifyFunction (hg : ∀ f, (g f).name = f.name) :
    (p.modifyFunction name g).functions.map FunctionInfo.name = p.functions.map FunctionInfo.name := by
  rw [modifyFunction, List.map_map]
  refine List.map_congr_left fun f _ => ?_
  rw [Function.comp_apply]
  split
  · exact hg f
  · rfl

/-- What is known of functions of distinct names after one of them has changed. -/
theorem exists_function_modifyFunction {ds : List FuncDecl} (hds : (ds.map FuncDecl.name).Nodup)
    {R R' : FuncDecl → FunctionInfo → Prop} (h : ∀ d ∈ ds, ∃ f, p.function? d.name = some f ∧ R d f)
    {d : FuncDecl} (hd : d ∈ ds) (hg : ∀ f, (g f).name = f.name) (hsame : ∀ f, p.function? d.name = some f → R d f → R' d (g f))
    (hother : ∀ d' ∈ ds, d' ≠ d → ∀ f, R d' f → R' d' f) :
    ∀ d' ∈ ds, ∃ f, (p.modifyFunction d.name g).function? d'.name = some f ∧ R' d' f := by
  intro d' hd'
  obtain ⟨f, hf, hR⟩ := h d' hd'
  have hname : f.name = d'.name := by simpa using List.find?_some hf
  rw [function?_modifyFunction hg, hf, Option.map_some, hname]
  by_cases hn : d'.name = d.name
  · obtain rfl := List.inj_on_of_nodup_map hds hd' hd hn
    exact ⟨g f, by rw [if_pos hn], hsame f hf hR⟩
  · exact ⟨f, by rw [if_neg hn], hother d' hd' (fun he => hn (he ▸ rfl)) f hR⟩

end Progress

/-! ## Runs -/

namespace Phase

variable (phase : Phase) {step : Step}

/-- If something holds of what is built up, the entries behind, and the entries ahead, and going on by one entry does
not give up and keeps it, then the phase does not give up and it holds at the end. -/
theorem exists_run {I : Progress → List Entry → List Entry → Prop}
    (hskip : ∀ p behind e ahead, e.failure.isSome = true → I p behind (e :: ahead) → I p (behind ++ [e]) ahead)
    (hstep : ∀ p behind d ahead, I p behind (⟨d, none⟩ :: ahead) → ∃ p' d' problem, step p d = .ok (p', d', problem)
      ∧ I p' (behind ++ [⟨d', problem.map (phase, ·)⟩]) ahead)
    (es : List Entry) (p : Progress) (behind : List Entry) (h : I p behind es) :
    ∃ p' es', phase.run step p es = .ok (p', es') ∧ I p' (behind ++ es') [] := by
  induction es generalizing p behind with
  | nil => exact ⟨p, [], rfl, (List.append_nil behind).symm ▸ h⟩
  | cons e es ih =>
    obtain ⟨d, failure⟩ := e
    cases failure with
    | some failure =>
      obtain ⟨p', es', hrun, hI⟩ := ih p _ (hskip p behind _ es rfl h)
      rw [List.append_assoc] at hI
      refine ⟨p', _, ?_, hI⟩
      rw [run, hrun]
      rfl
    | none =>
      obtain ⟨p', d', problem, hs, hI⟩ := hstep p behind d es h
      obtain ⟨p'', es', hrun, hI⟩ := ih p' _ hI
      rw [List.append_assoc] at hI
      refine ⟨p'', _, ?_, hI⟩
      simp only [run, Option.isSome_none, Bool.false_eq_true, if_false, bind, Except.bind, hs, hrun]
      rfl

/-- A phase whose step keeps what holds of what is built up, and what holds of a declaration. -/
theorem exists_run_of_keeps {Q : Progress → Prop} {P : Decl → Prop}
    (hstep : ∀ p d, Q p → P d → ∃ p' d' problem, step p d = .ok (p', d', problem) ∧ Q p' ∧ P d')
    {p : Progress} {es : List Entry} (hp : Q p) (hes : ∀ e ∈ es, e.failure = none → P e.decl) :
    ∃ p' es', phase.run step p es = .ok (p', es') ∧ Q p' ∧ ∀ e ∈ es', e.failure = none → P e.decl := by
  have hskip : ∀ p (behind : List Entry) (e : Entry) (ahead : List Entry), e.failure.isSome = true →
      (Q p ∧ ∀ a ∈ behind ++ e :: ahead, a.failure = none → P a.decl) →
      Q p ∧ ∀ a ∈ behind ++ [e] ++ ahead, a.failure = none → P a.decl := by
    intro p behind e ahead _ h
    rwa [List.append_assoc]
  have hone : ∀ p (behind : List Entry) d (ahead : List Entry), (Q p ∧ ∀ e ∈ behind ++ ⟨d, none⟩ :: ahead, e.failure = none → P e.decl) →
      ∃ p' d' problem, step p d = .ok (p', d', problem)
        ∧ Q p' ∧ ∀ e ∈ behind ++ [⟨d', problem.map (phase, ·)⟩] ++ ahead, e.failure = none → P e.decl := by
    rintro p behind d ahead ⟨hp, hes⟩
    rw [List.forall_mem_append, List.forall_mem_cons] at hes
    obtain ⟨hbehind, hd, hahead⟩ := hes
    obtain ⟨p', d', problem, hs, hp', hd'⟩ := hstep p d hp (hd rfl)
    refine ⟨p', d', problem, hs, hp', ?_⟩
    rw [List.append_assoc, List.forall_mem_append, List.forall_mem_append, List.forall_mem_singleton]
    exact ⟨hbehind, fun _ => hd', hahead⟩
  have hrun := exists_run phase (I := fun p behind ahead => Q p ∧ ∀ e ∈ behind ++ ahead, e.failure = none → P e.decl) hskip hone
    es p [] ⟨hp, hes⟩
  simpa only [List.nil_append, List.append_nil] using hrun

end Phase

/-! ## Registration -/

/-- What the registration leaves: the names of its entries are taken, each entry without a failure has a name that none
before it has, and the functions are those of such entries. -/
structure Registered (p : Progress) (es : List Entry) : Prop where
  taken : ∀ e ∈ es, ∃ s ∈ p.catalog.globals, e.decl.name? = some s.name
  new : es.Pairwise fun a b => b.failure = none → a.decl.name? ≠ b.decl.name?
  functions : p.functions = (es.filterMap Entry.function?).map fun d => { name := d.name }

namespace Registered

variable {p : Progress} {es : List Entry}

theorem nil : Registered {} [] where
  taken := List.forall_mem_nil _
  new := .nil
  functions := rfl

/-- An entry whose name is taken fails. -/
theorem snoc_failed (h : Registered p es) {d : Decl} {s : Symbol} (hs : s ∈ p.catalog.globals) (hd : d.name? = some s.name)
    (failure : Phase × Problem) : Registered p (es ++ [⟨d, some failure⟩]) where
  taken := List.forall_mem_append.mpr ⟨h.taken, List.forall_mem_singleton.mpr ⟨s, hs, hd⟩⟩
  new := List.pairwise_append.mpr ⟨h.new, List.pairwise_singleton _ _, fun _ _ b hb hf => by
    rw [List.mem_singleton.mp hb] at hf
    cases hf⟩
  functions := by
    have hnone : [⟨d, some failure⟩].filterMap Entry.function? = [] := by cases d <;> rfl
    rw [List.filterMap_append, hnone, List.append_nil, h.functions]

/-- An entry whose name is free is registered. -/
theorem snoc (h : Registered p es) {d : Decl} {s : Symbol} (hs : s.name ∉ p.catalog.globals.map Symbol.name)
    (hd : d.name? = some s.name) {p' : Progress} (hg : p'.catalog.globals = p.catalog.globals ++ [s])
    (hf : p'.functions = p.functions ++ ([⟨d, none⟩].filterMap Entry.function?).map fun d => { name := d.name }) :
    Registered p' (es ++ [⟨d, none⟩]) where
  taken := by
    rw [hg]
    refine List.forall_mem_append.mpr ⟨fun e he => ?_, List.forall_mem_singleton.mpr ⟨s, List.mem_append_right _ List.mem_cons_self, hd⟩⟩
    obtain ⟨t, ht, hn⟩ := h.taken e he
    exact ⟨t, List.mem_append_left _ ht, hn⟩
  new := List.pairwise_append.mpr ⟨h.new, List.pairwise_singleton _ _, fun a ha b hb _ hn => by
    obtain ⟨t, ht, hname⟩ := h.taken a ha
    rw [List.mem_singleton.mp hb, hd, hname] at hn
    exact hs (List.mem_map.mpr ⟨t, ht, Option.some.inj hn⟩)⟩
  functions := by rw [hf, h.functions, List.filterMap_append, List.map_append]

end Registered

theorem Catalog.addGlobal_cases (c : Catalog) (s : Symbol) :
    (∃ t ∈ c.globals, t.name = s.name ∧ ∃ duplicate, c.addGlobal s = .error duplicate)
      ∨ s.name ∉ c.globals.map Symbol.name ∧ c.addGlobal s = .ok { c with globals := c.globals ++ [s] } := by
  rw [addGlobal]
  cases h : Symbol.find? c.globals s.name with
  | some t => exact .inl ⟨t, List.mem_of_find?_eq_some h, by simpa using List.find?_some h, _, rfl⟩
  | none =>
    refine .inr ⟨fun hm => ?_, rfl⟩
    obtain ⟨t, ht, hn⟩ := List.mem_map.mp hm
    exact List.find?_eq_none.mp h t ht (decide_eq_true hn)

/-- A well-formed declaration is registered, or it fails because its name is taken. -/
theorem Step.register_cases (p : Progress) (d : Decl) (hd : d.IsWellFormed) :
    (∃ s ∈ p.catalog.globals, d.name? = some s.name ∧ ∃ problem, register p d = .ok (p, d, some problem))
      ∨ ∃ s p', s.name ∉ p.catalog.globals.map Symbol.name ∧ d.name? = some s.name ∧ register p d = .ok (p', d, none)
        ∧ p'.catalog.globals = p.catalog.globals ++ [s]
        ∧ p'.functions = p.functions ++ ([⟨d, none⟩].filterMap Entry.function?).map fun d => { name := d.name } := by
  have hsymbol : ∃ s, symbol d = .ok s ∧ d.name? = some s.name := by
    cases d with
    | foreign node => exact hd.elim
    | const d => exact ⟨_, rfl, rfl⟩
    | var d => exact ⟨_, rfl, rfl⟩
    | struct d => exact ⟨_, rfl, rfl⟩
    | func d => exact ⟨_, rfl, rfl⟩
  obtain ⟨s, hs, hn⟩ := hsymbol
  obtain ⟨t, ht, hname, duplicate, hadd⟩ | ⟨hfree, hadd⟩ := p.catalog.addGlobal_cases s
  · refine .inl ⟨t, ht, hname ▸ hn, ⟨.duplicate duplicate, s.span⟩, ?_⟩
    simp only [register, hs, bind, Except.bind, hadd]
    rfl
  · let c : Catalog := { p.catalog with globals := p.catalog.globals ++ [s] }
    refine .inr ⟨s, ?_⟩
    simp only [register, hs, bind, Except.bind, hadd]
    cases d with
    | foreign node => exact hd.elim
    | const d => exact ⟨{ p with catalog := c }, hfree, hn, rfl, rfl, (List.append_nil _).symm⟩
    | var d => exact ⟨{ p with catalog := c }, hfree, hn, rfl, rfl, (List.append_nil _).symm⟩
    | struct d => exact ⟨_, hfree, hn, rfl, rfl, (List.append_nil _).symm⟩
    | func d => exact ⟨_, hfree, hn, rfl, rfl, rfl⟩

/-- The state of the registration of declarations. -/
structure Registering (ds : List Decl) (p : Progress) (behind ahead : List Entry) : Prop where
  registered : Registered p behind
  fresh : ∀ e ∈ ahead, e.failure = none
  decls : (behind ++ ahead).map Entry.decl = ds

theorem Registering.step {ds : List Decl} (hds : ∀ d ∈ ds, d.IsWellFormed) (p : Progress) (behind : List Entry) (d : Decl)
    (ahead : List Entry) (h : Registering ds p behind (⟨d, none⟩ :: ahead)) :
    ∃ p' d' problem, Step.register p d = .ok (p', d', problem)
      ∧ Registering ds p' (behind ++ [⟨d', problem.map (Phase.registration, ·)⟩]) ahead := by
  have hdecls : ∀ failure, (behind ++ [(⟨d, failure⟩ : Entry)] ++ ahead).map Entry.decl = ds := by
    intro failure
    rw [← h.decls, List.append_assoc]
    simp only [List.map_append, List.map_cons, List.cons_append, List.nil_append]
  have hd : d ∈ ds := by
    rw [← h.decls, List.map_append]
    exact List.mem_append_right _ List.mem_cons_self
  have hfresh := (List.forall_mem_cons.mp h.fresh).2
  obtain ⟨s, hs, hn, problem, hstep⟩ | ⟨s, p', hs, hn, hstep, hg, hf⟩ := Step.register_cases p d (hds d hd)
  · exact ⟨p, d, some problem, hstep, h.registered.snoc_failed hs hn _, hfresh, hdecls _⟩
  · exact ⟨p', d, none, hstep, h.registered.snoc hs hn hg hf, hfresh, hdecls _⟩

/-- The registration of well-formed declarations does not give up. -/
theorem Phase.exists_run_register (ds : List Decl) (h : ∀ d ∈ ds, d.IsWellFormed) :
    ∃ p es, Phase.run .registration Step.register {} (ds.map fun decl => { decl }) = .ok (p, es)
      ∧ Registered p es ∧ es.map Entry.decl = ds := by
  have hinit : Registering ds {} [] (ds.map fun decl => { decl }) := by
    refine ⟨.nil, fun e he => ?_, ?_⟩
    · obtain ⟨d, -, rfl⟩ := List.mem_map.mp he
      rfl
    · rw [List.nil_append, List.map_map]
      exact List.map_id ds
  have hskip : ∀ p behind (e : Entry) ahead, e.failure.isSome = true → Registering ds p behind (e :: ahead) →
      Registering ds p (behind ++ [e]) ahead := by
    intro p behind e ahead hf hI
    rw [hI.fresh e List.mem_cons_self] at hf
    cases hf
  obtain ⟨p, es, hrun, hI⟩ := exists_run .registration hskip (Registering.step h) _ {} [] hinit
  refine ⟨p, es, hrun, hI.registered, ?_⟩
  rw [← hI.decls, List.append_nil, List.nil_append]

theorem Registered.find?_eq_some {p : Progress} {es : List Entry} (h : Registered p es) {d : FuncDecl}
    (hd : d ∈ es.filterMap Entry.function?) : (es.map Entry.decl).find? (fun x => x.name? = some d.name) = some (.func d) := by
  obtain ⟨e, he, hf⟩ := List.mem_filterMap.mp hd
  obtain rfl := Entry.function?_eq_some_iff.mp hf
  obtain ⟨before, after, rfl⟩ := List.append_of_mem he
  have hnew := (List.pairwise_append.mp h.new).2.2
  have hbefore : (before.map Entry.decl).find? (fun x => x.name? = some d.name) = none := by
    refine List.find?_eq_none.mpr fun x hx hn => ?_
    obtain ⟨a, ha, rfl⟩ := List.mem_map.mp hx
    exact hnew a ha _ List.mem_cons_self rfl (of_decide_eq_true hn)
  rw [List.map_append, List.find?_append, hbefore, List.map_cons]
  exact List.find?_cons_of_pos (p := fun x : Decl => x.name? = some d.name) (decide_eq_true rfl)

theorem Registered.nodup_functions {p : Progress} {es : List Entry} (h : Registered p es) :
    ((es.filterMap Entry.function?).map FuncDecl.name).Nodup := by
  rw [List.Nodup, List.pairwise_map]
  refine h.new.filterMap _ fun a b hab d hd d' hd' hn => ?_
  obtain rfl := Entry.function?_eq_some_iff.mp hd
  obtain rfl := Entry.function?_eq_some_iff.mp hd'
  exact hab rfl (congrArg some hn)

/-! ## Other steps -/

theorem ConstDecl.isProblem_of_initializer {d : ConstDecl} (h : d.IsWellFormed) {c : Catalog} {halt : Halt}
    (hi : d.initializer c = .error halt) : halt.IsProblem := by
  obtain ⟨name, value, span⟩ := d
  unfold initializer at hi
  cases value
  case ident name symbol info =>
    dsimp only at hi
    split at hi
    · obtain rfl := Except.error.inj hi
      trivial
    · split at hi
      · obtain rfl := Except.error.inj hi
        trivial
      · split at hi
        · obtain rfl := Except.error.inj hi
          trivial
        · cases hi
  case int | real | byte => cases hi
  all_goals exact h.2.1.elim

theorem ConstDecl.isWellFormed_of_initializer {d : ConstDecl} (h : d.IsWellFormed) {c : Catalog} {i : Initializer}
    (hi : d.initializer c = .ok i) : ConstDecl.IsWellFormed { d with value := i.value } := by
  obtain ⟨name, value, span⟩ := d
  unfold initializer at hi
  cases value
  case ident name symbol info =>
    dsimp only at hi
    split at hi
    · cases hi
    · split at hi
      · cases hi
      · split at hi
        · cases hi
        · obtain rfl := Except.ok.inj hi
          exact h
  case int | real | byte =>
    obtain rfl := Except.ok.inj hi
    exact h
  all_goals exact h.2.1.elim

theorem StructDecl.isProblem_of_resolveFields (c : Catalog) (struct : String) (ms : List Member)
    (h : ∀ m ∈ ms, ∃ field : VarDecl, m = .var field ∧ field.IsWellFormed) (known : List (String × Ty)) {halt : Halt}
    (hr : (resolveFields c struct known ms).2 = some halt) : halt.IsProblem := by
  induction ms generalizing known with
  | nil => cases hr
  | cons m ms ih =>
    obtain ⟨⟨d, rfl, hd⟩, hms⟩ := List.forall_mem_cons.mp h
    rw [resolveFields] at hr
    cases hf : field c struct known (.var d) with
    | ok f =>
      rw [hf] at hr
      exact ih hms _ hr
    | error halt' =>
      rw [hf] at hr
      obtain rfl := Option.some.inj hr
      have hfield : field c struct known (.var d) = if known.any fun f => f.1 = d.name then
          .error (.at d.span (.duplicateField d.name struct)) else do return (d.name, ← d.type.resolve c none false) := rfl
      rw [hfield] at hf
      split at hf
      · obtain rfl := Except.error.inj hf
        trivial
      · obtain hf | ⟨t, -, hf⟩ := Except.bind_eq_error.mp hf
        · exact d.type.isProblem_of_resolve (d.type.misplaced?_eq_none hd.2) hf
        · cases hf

theorem FuncDecl.isProblem_of_signature {d : FuncDecl} (h : d.IsWellFormed) {c : Catalog} {halt : Halt}
    (hs : d.signature c = .error halt) : halt.IsProblem := by
  obtain hs | ⟨params, -, hs⟩ := Except.bind_eq_error.mp hs
  · obtain ⟨m, hm, hs⟩ := Except.exists_error_of_mapM _ hs
    obtain ⟨param, rfl, hparam⟩ := h.2.2.1 m hm
    exact param.type.isProblem_of_resolve (param.type.misplaced?_eq_none hparam.2) hs
  · obtain hs | ⟨result, -, hs⟩ := Except.bind_eq_error.mp hs
    · exact d.result.isProblem_of_resolve (d.result.misplaced?_eq_none h.2.1) hs
    · cases hs

/-- A signature has a type for each parameter. -/
theorem FuncDecl.length_params_of_signature {d : FuncDecl} {c : Catalog} {s : Signature} (h : d.signature c = .ok s) :
    s.params.length = d.params.length := by
  obtain ⟨params, hparams, h⟩ := Except.bind_eq_ok.mp h
  obtain ⟨result, -, h⟩ := Except.bind_eq_ok.mp h
  obtain rfl := Except.ok.inj h
  exact Except.length_of_mapM _ hparams

/-- A declaration is well formed, and if it is a function, one of those that are known. -/
def Decl.IsKnown (ds : List FuncDecl) (d : Decl) : Prop := d.IsWellFormed ∧ ∀ f, d = .func f → f ∈ ds

namespace Step

variable {ds : List FuncDecl} {d : Decl}

theorem exists_halted {halt : Halt} (h : halt.IsProblem) (p : Progress) (d : Decl) :
    ∃ problem, halted p d halt = .ok (p, d, some problem) := by
  obtain ⟨problem, hproblem⟩ := h.report
  refine ⟨problem, ?_⟩
  rw [halted, hproblem]
  rfl

/-- What the phases between the registration and the headers keep. -/
def Keeps (step : Step) : Prop := ∀ (ds : List FuncDecl) (p : Progress) (d : Decl), d.IsKnown ds →
  ∃ p' d' problem, step p d = .ok (p', d', problem) ∧ p'.functions = p.functions ∧ d'.IsKnown ds

theorem keeps_constant : Keeps constant := by
  intro ds p d hd
  cases d with
  | const d =>
    rw [constant]
    cases hi : d.initializer p.catalog with
    | error halt =>
      obtain ⟨problem, hh⟩ := exists_halted (d.isProblem_of_initializer hd.1 hi) p (.const d)
      exact ⟨p, .const d, some problem, by simpa only [hi] using hh, rfl, hd⟩
    | ok i =>
      have hknown : Decl.IsKnown ds (.const { d with value := i.value }) :=
        ⟨d.isWellFormed_of_initializer hd.1 hi, fun f hf => by cases hf⟩
      exact ⟨_, _, _, rfl, rfl, hknown⟩
  | var d | struct d | func d | foreign node => exact ⟨p, _, none, rfl, rfl, hd⟩

theorem keeps_fields : Keeps fields := by
  intro ds p d hd
  cases d with
  | struct d =>
    rw [fields]
    cases hf : StructDecl.resolveFields p.catalog d.name [] d.fields with
    | mk known halt? =>
      cases halt? with
      | none => exact ⟨_, _, none, rfl, rfl, hd⟩
      | some halt =>
        have hp : halt.IsProblem := StructDecl.isProblem_of_resolveFields p.catalog d.name d.fields hd.1.2.2 [] (hf ▸ rfl)
        obtain ⟨problem, hh⟩ := exists_halted hp (p.modifyCatalog _) (.struct d)
        exact ⟨_, _, _, hh, rfl, hd⟩
  | const d | var d | func d | foreign node => exact ⟨p, _, none, rfl, rfl, hd⟩

theorem keeps_containment : Keeps containment := by
  intro ds p d hd
  cases d with
  | struct d =>
    rw [containment]
    split
    · exact ⟨_, _, _, rfl, rfl, hd⟩
    · exact ⟨_, _, _, rfl, rfl, hd⟩
  | const d | var d | func d | foreign node => exact ⟨p, _, none, rfl, rfl, hd⟩

end Step

end FlatScope
