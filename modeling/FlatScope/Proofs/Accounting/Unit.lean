/-
  What a resolved unit gives an account of. A declaration fails at most once, and it fails exactly if its name is that of an
  earlier one or if something about it is not found out (`Entry.IsAt.failure_iff`); the problems are those of the failures.
  The body of a function is entered once if the function has got a signature, and a declaration whose name was taken leaves
  no trace: without it everything else comes to the same (`Program.resolve_accounted`).
-/
import FlatScope.Proofs.Accounting.Names
import FlatScope.Proofs.Reordering.Unit

namespace FlatScope

/-! ## Bodies that are entered -/

/-- The body of a declaration is entered when the step of the bodies comes to it. -/
def Step.entersBody (p : Progress) : Decl → Bool
  | .func d => ((p.function? d.name).bind FunctionInfo.signature).isSome
  | _ => false

/-- The positions of the declarations whose bodies are entered, one after another; the first position is `k`. -/
def Phase.enteredBodies (b : Builtins) (p : Progress) (k : Nat) : List Entry → List Nat
  | [] => []
  | ⟨_, some _⟩ :: es => enteredBodies b p (k + 1) es
  | ⟨d, none⟩ :: es =>
    match Step.body b p d with
    | .error _ => []
    | .ok (q, _, _) => if Step.entersBody p d then k :: enteredBodies b q (k + 1) es else enteredBodies b q (k + 1) es

/-- The positions of the declarations whose bodies are entered when a unit is resolved. -/
def Program.entered (b : Builtins) (p : Program) : List Nat :=
  match Phase.runAll b {} (p.decls.map fun decl => { decl }) [.registration, .constants, .fields, .containment, .headers] with
  | .ok (q, es) => Phase.enteredBodies b q 0 es
  | .error _ => []

/-- Entering bodies changes nothing about which bodies are entered. -/
theorem Step.entersBody_body {b : Builtins} {p q : Progress} {d d' : Decl} {problem : Option Problem}
    (h : body b p d = .ok (q, d', problem)) : entersBody q = entersBody p := by
  have hsignature (name : String) : (q.function? name).bind FunctionInfo.signature
      = (p.function? name).bind FunctionInfo.signature := by
    cases d with
    | func f =>
      obtain ⟨-, rfl, -⟩ | ⟨s, f', e, -, -, rfl, -⟩ := body_eq_ok.mp h
      · rfl
      · exact p.signature_enter f.name e name
    | const _ | var _ | struct _ | foreign _ => rw [(done_eq_ok h).1]
  funext d
  cases d with
  | func f => rw [entersBody, entersBody, hsignature]
  | const _ | var _ | struct _ | foreign _ => rfl

namespace Phase

variable {b : Builtins} {p p' : Progress} {es es' : List Entry}

/-- The bodies that are entered can be told in front of the phase. -/
theorem enteredBodies_eq (hrun : Phase.bodies.run (Step.body b) p es = .ok (p', es')) (k : Nat) :
    enteredBodies b p k es
      = ((es.zipIdx k).filter fun x => x.1.failure.isNone && Step.entersBody p x.1.decl).map Prod.snd := by
  induction es generalizing p es' k with
  | nil => rfl
  | cons e es ih =>
    obtain ⟨d, failure⟩ := e
    rw [List.zipIdx_cons]
    cases failure with
    | some failure =>
      obtain ⟨rest, hrest, -⟩ := (run_failed_eq_ok _ rfl).mp hrun
      rw [enteredBodies, ih hrest, List.filter_cons_of_neg (by simp)]
    | none =>
      obtain ⟨q, d', problem, rest, hone, hrest, -⟩ := (run_cons_eq_ok _).mp hrun
      have hbehind := ih hrest (k + 1)
      rw [Step.entersBody_body hone] at hbehind
      rw [enteredBodies, hone]
      dsimp only
      rw [hbehind]
      cases henters : Step.entersBody p d with
      | true =>
        rw [List.filter_cons_of_pos (by simp [henters])]
        rfl
      | false =>
        rw [List.filter_cons_of_neg (by simp [henters])]
        rfl

theorem nodup_enteredBodies (hrun : Phase.bodies.run (Step.body b) p es = .ok (p', es')) :
    (enteredBodies b p 0 es).Nodup := by
  rw [enteredBodies_eq hrun]
  have hsublist := (List.filter_sublist (p := fun x : Entry × Nat => x.1.failure.isNone && Step.entersBody p x.1.decl)
    (l := es.zipIdx 0)).map Prod.snd
  refine hsublist.nodup ?_
  rw [List.zipIdx_map_snd]
  exact List.nodup_range' _ Nat.one_pos

theorem mem_enteredBodies (hrun : Phase.bodies.run (Step.body b) p es = .ok (p', es')) {i : Nat} :
    i ∈ enteredBodies b p 0 es ↔ ∃ d, es[i]? = some ⟨d, none⟩ ∧ Step.entersBody p d = true := by
  rw [enteredBodies_eq hrun, List.mem_map]
  constructor
  · rintro ⟨⟨⟨d, failure⟩, j⟩, hmem, rfl⟩
    obtain ⟨hmem, htest⟩ := List.mem_filter.mp hmem
    obtain ⟨hnone, henters⟩ := Bool.and_eq_true_iff.mp htest
    obtain rfl : failure = none := Option.isNone_iff_eq_none.mp hnone
    exact ⟨d, List.mem_zipIdx_iff_getElem?.mp hmem, henters⟩
  · rintro ⟨d, hd, henters⟩
    exact ⟨(⟨d, none⟩, i), List.mem_filter.mpr ⟨List.mem_zipIdx_iff_getElem?.mpr hd, by simpa using henters⟩, rfl⟩

end Phase

/-- What is a function behind the bodies was one in front of them. -/
theorem Phase.Takes.exists_func {b : Builtins} {e : Entry} {d : FuncDecl} {failure : Option (Phase × Problem)}
    (h : Phase.bodies.Takes (Step.body b) e ⟨.func d, failure⟩) : ∃ d', e.decl = .func d' := by
  obtain ⟨-, he⟩ | ⟨-, q, q', problem, hone, -⟩ := h
  · exact ⟨d, congrArg Entry.decl he.symm⟩
  · cases hdecl : e.decl with
    | func d' => exact ⟨d', rfl⟩
    | const _ | var _ | struct _ | foreign _ =>
      rw [hdecl] at hone
      exact nomatch (Step.done_eq_ok hone).2.1

/-! ## Declarations that leave no trace -/

namespace Phase

variable {phase : Phase} {step : Step} {p p' : Progress} {as bs es' : List Entry} {e : Entry}

/-- A phase does without a failed entry what it does with it. -/
theorem run_without (he : e.failure.isSome = true) (hrun : phase.run step p (as ++ e :: bs) = .ok (p', es')) :
    ∃ xs ys, es' = xs ++ e :: ys ∧ xs.length = as.length ∧ phase.run step p (as ++ bs) = .ok (p', xs ++ ys) := by
  obtain ⟨q, xs, rest, hfront, hback, rfl⟩ := run_append.mp hrun
  obtain ⟨ys, hbehind, rfl⟩ := (run_failed_eq_ok phase he).mp hback
  exact ⟨xs, ys, rfl, (run_entries hfront).length_eq.symm, run_append.mpr ⟨q, xs, ys, hfront, hbehind, rfl⟩⟩

/-- The registration does without a declaration that does not get its name what it does with it. -/
theorem run_register_without {d : Decl} (hrun : Phase.registration.run Step.register p (as ++ ⟨d, none⟩ :: bs) = .ok (p', es'))
    (hd : ∀ e, es'[as.length]? = some e → ¬e.IsRegistered) :
    ∃ xs e ys problem, es' = xs ++ e :: ys ∧ xs.length = as.length ∧ e.failure = some (.registration, problem)
      ∧ Phase.registration.run Step.register p (as ++ bs) = .ok (p', xs ++ ys) := by
  obtain ⟨q, xs, rest, hfront, hback, rfl⟩ := run_append.mp hrun
  have hlength : xs.length = as.length := (run_entries hfront).length_eq.symm
  obtain ⟨q', d', problem, ys, hone, hbehind, rfl⟩ := (run_cons_eq_ok _).mp hback
  obtain ⟨s, -, rfl, ⟨previous, -, rfl, rfl⟩ | ⟨-, -, rfl⟩⟩ := Step.register_eq_ok.mp hone
  · exact ⟨xs, _, ys, _, rfl, hlength, rfl, run_append.mpr ⟨q', xs, ys, hfront, hbehind, rfl⟩⟩
  · exact absurd (.of_eq_none rfl) (hd ⟨d', none⟩ (by rw [← hlength, List.getElem?_append_right le_rfl, Nat.sub_self]; rfl))

end Phase

/-- Without a declaration that does not get its name everything else comes to the same. -/
theorem Program.Runs.without {b : Builtins} {p : Program} {p₁ p₂ p₃ p₄ p₅ p₆ : Progress} {es₁ es₂ es₃ es₄ es₅ es₆ : List Entry}
    (h : p.Runs b p₁ p₂ p₃ p₄ p₅ p₆ es₁ es₂ es₃ es₄ es₅ es₆) {as bs : List Decl} {d : Decl} (hdecls : p.decls = as ++ d :: bs)
    (hd : ∀ e, es₁[as.length]? = some e → ¬e.IsRegistered) : ∃ xs e ys problem, es₆ = xs ++ e :: ys ∧ xs.length = as.length
      ∧ e.failure = some (.registration, problem)
      ∧ { p with decls := as ++ bs }.resolve b = .ok ⟨xs ++ ys, p.file, p₆.catalog, p₆.functions⟩ := by
  have h₁ := h.registration
  rw [hdecls, List.map_append, List.map_cons] at h₁
  rw [← List.length_map (f := fun decl => ({ decl } : Entry))] at hd
  obtain ⟨xs₁, e, ys₁, problem, rfl, hlength₁, he, hrun₁⟩ := Phase.run_register_without h₁ hd
  have hfailed : e.failure.isSome = true := by rw [he]; rfl
  obtain ⟨xs₂, ys₂, rfl, hlength₂, hrun₂⟩ := Phase.run_without hfailed h.constants
  obtain ⟨xs₃, ys₃, rfl, hlength₃, hrun₃⟩ := Phase.run_without hfailed h.fields
  obtain ⟨xs₄, ys₄, rfl, hlength₄, hrun₄⟩ := Phase.run_without hfailed h.containment
  obtain ⟨xs₅, ys₅, rfl, hlength₅, hrun₅⟩ := Phase.run_without hfailed h.headers
  obtain ⟨xs₆, ys₆, rfl, hlength₆, hrun₆⟩ := Phase.run_without hfailed h.bodies
  have hlength : xs₆.length = as.length := by
    rw [hlength₆, hlength₅, hlength₄, hlength₃, hlength₂, hlength₁, List.length_map]
  refine ⟨xs₆, e, ys₆, problem, rfl, hlength, he, ?_⟩
  rw [← List.map_append] at hrun₁
  exact Runs.resolve (p := { p with decls := as ++ bs }) ⟨hrun₁, hrun₂, hrun₃, hrun₄, hrun₅, hrun₆⟩

/-! ## Problems -/

/-- The problems of a unit are those of its entries, each of which has at most one. -/
theorem Resolution.problems_perm (r : Resolution) : r.problems.Perm (r.entries.filterMap fun e => e.failure.map Prod.snd) := by
  have hone (e : Entry) : Phase.all.flatMap (fun phase => (e.problemIn? phase).toList) = (e.failure.map Prod.snd).toList := by
    obtain ⟨d, failure⟩ := e
    cases failure with
    | none => rfl
    | some failure =>
      obtain ⟨phase, problem⟩ := failure
      cases phase <;> rfl
  rw [problems]
  induction r.entries with
  | nil => exact .refl _
  | cons e es ih =>
    have hcons (f : Entry → Option Problem) : (e :: es).filterMap f = (f e).toList ++ es.filterMap f := by
      rw [List.filterMap_cons]
      cases f e <;> rfl
    simp only [hcons]
    refine (List.flatMap_append_perm _ _ _).symm.trans ?_
    rw [hone]
    exact ih.append_left _

/-! ## Units -/

/-- How the work on a function may end: with what scope, with what failure of its declaration, and how often its body was
entered. -/
inductive FunctionInfo.EndsWith (f : FunctionInfo) :
    (scope : Option LocalScope) → (failure : Option (Phase × Problem)) → (times : Nat) → Prop
  | unsigned (hs : f.signature = none) (hstate : f.state = .waiting) (problem : Problem) :
    f.EndsWith none (some (.headers, problem)) 0
  | done (hs : f.signature.isSome = true) (hstate : f.state = .done) (scope : LocalScope) : f.EndsWith (some scope) none 1
  | failed (hs : f.signature.isSome = true) (hstate : f.state = .failed) (scope : LocalScope) (problem : Problem) :
    f.EndsWith (some scope) (some (.bodies, problem)) 1

/-- At its last stage, the work on a function that was entered if it has a signature, and else not, has ended. -/
theorem FunctionStage.endsWith {name : String} {failure : Option (Phase × Problem)} {s : Symbol} {f : FunctionInfo}
    {scope : Option LocalScope} {times : Nat} (h : FunctionStage name Phase.all.reverse failure s f scope)
    (hnever : ∀ problem, failure = some (.headers, problem) → times = 0)
    (honce : (∀ problem, failure ≠ some (.headers, problem)) → times = 1) : f.EndsWith scope failure times := by
  cases h with
  | waiting hmem => exact absurd (show Phase.headers ∈ _ by decide) hmem
  | headed _ hmem => exact absurd (show Phase.bodies ∈ _ by decide) hmem
  | failed _ problem _ hsignature he =>
    obtain rfl := hnever problem rfl
    exact .unsigned hsignature (FunctionInfo.state_of_not_entered he) problem
  | entered _ _ signature e _ hsignature he =>
    have hsome : f.signature.isSome = true := by rw [hsignature]; rfl
    have hstate := FunctionInfo.state_of_entered he
    have hbodies : ∀ problem, e.problem.map (Phase.bodies, ·) ≠ some (.headers, problem) := by
      intro problem hp
      obtain ⟨_, -, hp⟩ := Option.map_eq_some_iff.mp hp
      exact nomatch (Prod.mk.inj hp).1
    obtain rfl := honce hbodies
    cases hproblem : e.problem with
    | none =>
      rw [hproblem] at hstate
      exact .done hsome hstate e.scope
    | some problem =>
      rw [hproblem] at hstate
      exact .failed hsome hstate e.scope problem

/-- What is known under a name in a resolved unit. -/
def Resolution.record (r : Resolution) (name : String) : Record :=
  ⟨r.catalog.lookupGlobal name, r.catalog.struct? name, r.functions.find? fun f => f.name = name, r.catalog.scope? name⟩

/-- The account that a resolved unit gives of its declarations. -/
structure Resolution.IsAccounted (b : Builtins) (p : Program) (r : Resolution) : Prop where
  /-- The entries are those of the declarations. -/
  names : r.entries.map (fun e => e.decl.name?) = p.decls.map Decl.name?
  /-- Each entry has at most one problem, and these are all. -/
  problems : r.problems.Perm (r.entries.filterMap fun e => e.failure.map Prod.snd)
  /-- An entry fails exactly if its name was taken or if something about it is not found out. -/
  failed : ∀ as e bs, r.entries = as ++ e :: bs → ∃ name, e.decl.name? = some name
    ∧ (e.failure.isSome = true ↔ (∃ a ∈ as, a.decl.name? = some name) ∨ ¬(r.record name).IsResolved)
  /-- No scope is open. -/
  closed : r.catalog.current = none
  /-- Functions have different names, and each is that of one declaration, the only one of its name that may be entered. -/
  distinct : (r.functions.map FunctionInfo.name).Nodup
  functions : ∀ f ∈ r.functions, ∃ as d failure bs, r.entries = as ++ ⟨.func d, failure⟩ :: bs ∧ d.name = f.name
    ∧ f.EndsWith (r.catalog.scope? f.name) failure ((p.entered b).count as.length)
    ∧ ∀ k ∈ p.entered b, p.decls[k]?.bind Decl.name? = some f.name → k = as.length
  /-- A declaration whose name was taken is not entered, and without it everything else comes to the same. -/
  lost : ∀ as d bs, p.decls = as ++ d :: bs → (∃ a ∈ as, a.name? = d.name?) → as.length ∉ p.entered b
    ∧ ∃ xs e ys problem, r.entries = xs ++ e :: ys ∧ xs.length = as.length ∧ e.failure = some (.registration, problem)
      ∧ { p with decls := as ++ bs }.resolve b = .ok { r with entries := xs ++ ys }
  /-- There are no problems exactly if no declaration has failed in front of the bodies and all functions are done. -/
  valid : r.problems = [] ↔ (∀ e ∈ r.entries, ∀ phase problem, e.failure = some (phase, problem) → phase = .bodies)
    ∧ ∀ f ∈ r.functions, f.state = .done
  /-- If there are no problems, every global symbol has a type and every struct all its fields. -/
  known : r.problems = [] → (∀ s ∈ r.catalog.globals, s.ty.isSome = true) ∧ ∀ i ∈ r.catalog.structs, i.isComplete = true

namespace Program

variable {b : Builtins} {p : Program} {p₁ p₂ p₃ p₄ p₅ p₆ : Progress} {es₁ es₂ es₃ es₄ es₅ es₆ as bs : List Entry} {e : Entry}

theorem Runs.names_headers (h : p.Runs b p₁ p₂ p₃ p₄ p₅ p₆ es₁ es₂ es₃ es₄ es₅ es₆) :
    es₁.map (fun e => e.decl.name?) = p.decls.map Decl.name? ∧ es₅.map (fun e => e.decl.name?) = p.decls.map Decl.name? := by
  have h₁ := Phase.map_name_run Step.keepsDecl_register.keepsName.name h.registration
  have h₂ := Phase.map_name_run Step.isLocal_constant.name h.constants
  have h₃ := Phase.map_name_run Step.isLocal_fields.name h.fields
  have h₄ := Phase.map_name_run Step.isLocal_containment.name h.containment
  have h₅ := Phase.map_name_run Step.isLocal_header.name h.headers
  rw [List.map_map] at h₁
  exact ⟨h₁, h₅.trans (h₄.trans (h₃.trans (h₂.trans h₁)))⟩

theorem Runs.entered_eq (h : p.Runs b p₁ p₂ p₃ p₄ p₅ p₆ es₁ es₂ es₃ es₄ es₅ es₆) :
    p.entered b = Phase.enteredBodies b p₅ 0 es₅ := by
  rw [entered]
  simp only [Phase.runAll, Step.ofPhase, h.registration, h.constants, h.fields, h.containment, h.headers, bind,
    Except.bind, pure, Except.pure]

/-- A body that is entered is that of a declaration that has not failed so far. -/
theorem Runs.failure_of_entered (h : p.Runs b p₁ p₂ p₃ p₄ p₅ p₆ es₁ es₂ es₃ es₄ es₅ es₆) (hes : es₆ = as ++ e :: bs)
    (hentered : as.length ∈ p.entered b) {phase : Phase} {problem : Problem} (hf : e.failure = some (phase, problem)) :
    phase = .bodies := by
  subst hes
  obtain ⟨xs, x, ys, rfl, hlength, htake⟩ := Phase.exists_of_run_append h.bodies
  rw [h.entered_eq, Phase.mem_enteredBodies h.bodies, ← hlength, List.getElem?_append_right le_rfl, Nat.sub_self] at hentered
  obtain ⟨d, hd, -⟩ := hentered
  obtain rfl : x = ⟨d, none⟩ := Option.some.inj hd
  obtain ⟨hsome, -⟩ | ⟨-, q, q', problem', -, hfailure⟩ := htake
  · cases hsome
  · rw [hf] at hfailure
    obtain ⟨_, -, hsame⟩ := Option.map_eq_some_iff.mp hfailure.symm
    exact (Prod.mk.inj hsame).1.symm

/-- The body of a function whose signature is found out is entered. -/
theorem Runs.entered_of_signature (h : p.Runs b p₁ p₂ p₃ p₄ p₅ p₆ es₁ es₂ es₃ es₄ es₅ es₆) {d : FuncDecl}
    {failure : Option (Phase × Problem)} (hes : es₆ = as ++ ⟨.func d, failure⟩ :: bs) (hr : Entry.IsRegistered ⟨.func d, failure⟩)
    (hf : ∀ problem, failure ≠ some (.headers, problem)) : as.length ∈ p.entered b := by
  subst hes
  have haccounts := h.accounts_headers
  obtain ⟨xs, x, ys, rfl, hlength, htake⟩ := Phase.exists_of_run_append h.bodies
  have hname : x.decl.name? = some d.name := (htake.name? (Step.isLocal_body b).name).symm
  have hregistered : x.IsRegistered := (htake.registered nofun).mp hr
  have hat := haccounts.stages x (List.mem_append_right _ List.mem_cons_self) hregistered d.name hname
  obtain ⟨d', hd'⟩ := htake.exists_func
  obtain ⟨decl, failure'⟩ := x
  obtain rfl : decl = .func d' := hd'
  obtain ⟨s, f, scope, hrecord, -, hstage⟩ := hat
  rw [h.entered_eq, Phase.mem_enteredBodies h.bodies, ← hlength, List.getElem?_append_right le_rfl, Nat.sub_self]
  generalize hfailure : (Entry.mk (.func d') failure').failure = failure'' at hstage
  obtain rfl : failure' = failure'' := hfailure
  cases hstage with
  | waiting hmem => exact absurd (show Phase.headers ∈ _ by decide) hmem
  | entered _ hmem => exact absurd hmem (by decide)
  | failed _ problem =>
    obtain ⟨-, he⟩ | ⟨hnone, -⟩ := htake
    · exact absurd (congrArg Entry.failure he) (hf problem)
    · cases hnone
  | headed _ _ signature hty hsignature =>
    have hname' : d'.name = d.name := Option.some.inj hname
    have hfunction : p₅.function? d.name = some f := congrArg Record.function hrecord
    refine ⟨.func d', rfl, ?_⟩
    rw [Step.entersBody, hname', hfunction, Option.bind_some, hsignature]
    rfl

/-- Every function is that of a declaration that has got its name, and the work on it has ended. -/
theorem Runs.exists_func (h : p.Runs b p₁ p₂ p₃ p₄ p₅ p₆ es₁ es₂ es₃ es₄ es₅ es₆) {f : FunctionInfo} (hf : f ∈ p₆.functions) :
    ∃ as d failure bs, es₆ = as ++ ⟨.func d, failure⟩ :: bs ∧ d.name = f.name ∧ Entry.IsRegistered ⟨.func d, failure⟩
      ∧ ∃ s, FunctionStage f.name Phase.all.reverse failure s f (p₆.catalog.scope? f.name) := by
  obtain ⟨hnames, -, hstages⟩ := h.accounts
  have hglobal : f.name ∈ p₆.catalog.globals.map Symbol.name := hnames.functions.mem (List.mem_map_of_mem hf)
  obtain ⟨e, he, hr, hname⟩ := hnames.registered f.name hglobal
  have hfunction : p₆.function? f.name = some f :=
    (find?_key_eq_some_iff (hnames.functions.nodup hnames.nodup)).mpr ⟨hf, rfl⟩
  have hat := hstages e he hr f.name hname
  obtain ⟨as, bs, rfl⟩ := List.append_of_mem he
  obtain ⟨d, failure⟩ := e
  cases d with
  | func d =>
    obtain ⟨s, f', scope, hrecord, -, hstage⟩ := hat
    obtain rfl : f = f' := Option.some.inj (hfunction.symm.trans (congrArg Record.function hrecord))
    obtain rfl : p₆.catalog.scope? f.name = scope := congrArg Record.scope hrecord
    have hname : d.name = f.name := Option.some.inj hname
    exact ⟨as, d, failure, bs, rfl, hname, hr, s, hname ▸ hstage⟩
  | const d | var d =>
    obtain ⟨s, hrecord, -⟩ := hat
    exact nomatch hfunction.symm.trans (congrArg Record.function hrecord)
  | struct d =>
    obtain ⟨s, i, hrecord, -⟩ := hat
    exact nomatch hfunction.symm.trans (congrArg Record.function hrecord)
  | foreign node => exact hat.elim

/-- Of the declarations of one name only the one that has got it may be entered. -/
theorem Runs.entered_unique (h : p.Runs b p₁ p₂ p₃ p₄ p₅ p₆ es₁ es₂ es₃ es₄ es₅ es₆) (hes : es₆ = as ++ e :: bs)
    (hr : e.IsRegistered) {name : String} (hname : e.decl.name? = some name) {k : Nat} (hk : k ∈ p.entered b)
    (hkname : p.decls[k]?.bind Decl.name? = some name) : k = as.length := by
  subst hes
  obtain ⟨xs, x, ys, rfl, hlength, htake⟩ := Phase.exists_of_run_append h.bodies
  have hx : x.decl.name? = some name := hname ▸ (htake.name? (Step.isLocal_body b).name).symm
  rw [h.entered_eq, Phase.mem_enteredBodies h.bodies] at hk
  obtain ⟨d, hd, -⟩ := hk
  have hdname : d.name? = some name := by
    have hmap := congrArg (fun names => names[k]?) h.names_headers.2
    simp only [List.getElem?_map, hd, Option.map_some] at hmap
    obtain ⟨decl, hdecl, hsame⟩ := Option.map_eq_some_iff.mp hmap.symm
    rw [hdecl, Option.bind_some, hsame] at hkname
    exact hkname
  by_contra hne
  have hother : ⟨d, none⟩ ∈ xs ++ ys := by
    have herase : xs ++ ys = (xs ++ x :: ys).eraseIdx xs.length := by
      rw [List.eraseIdx_append_of_length_le le_rfl, Nat.sub_self, List.eraseIdx_cons_zero]
    rw [herase, List.mem_eraseIdx_iff_getElem?]
    exact ⟨k, hlength ▸ hne, hd⟩
  exact Entry.name?_ne_of_pairwise h.accounts_headers.apart ((htake.registered nofun).mp hr) _ hother rfl (hdname.trans hx.symm)

/-- The work on a function has ended in one of three ways, and no other declaration of its name was entered. -/
theorem Runs.function (h : p.Runs b p₁ p₂ p₃ p₄ p₅ p₆ es₁ es₂ es₃ es₄ es₅ es₆) {f : FunctionInfo} (hf : f ∈ p₆.functions) :
    ∃ as d failure bs, es₆ = as ++ ⟨.func d, failure⟩ :: bs ∧ d.name = f.name
      ∧ f.EndsWith (p₆.catalog.scope? f.name) failure ((p.entered b).count as.length)
      ∧ ∀ k ∈ p.entered b, p.decls[k]?.bind Decl.name? = some f.name → k = as.length := by
  obtain ⟨as, d, failure, bs, hes, hname, hr, s, hstage⟩ := h.exists_func hf
  have hnever (hk : as.length ∉ p.entered b) : (p.entered b).count as.length = 0 := List.count_eq_zero_of_not_mem hk
  have honce (hk : as.length ∈ p.entered b) : (p.entered b).count as.length = 1 := by
    rw [h.entered_eq] at hk ⊢
    exact List.count_eq_one_of_mem (Phase.nodup_enteredBodies h.bodies) hk
  refine ⟨as, d, failure, bs, hes, hname, hstage.endsWith ?_ ?_, fun k hk => h.entered_unique hes hr (congrArg some hname) hk⟩
  · rintro problem rfl
    exact hnever fun hk => nomatch h.failure_of_entered hes hk rfl
  · exact fun hnot => honce (h.entered_of_signature hes hr hnot)

/-- A declaration whose name was taken is not entered, and without it everything else comes to the same. -/
theorem Runs.lost (h : p.Runs b p₁ p₂ p₃ p₄ p₅ p₆ es₁ es₂ es₃ es₄ es₅ es₆) {as bs : List Decl} {d : Decl}
    (hdecls : p.decls = as ++ d :: bs) (hd : ∃ a ∈ as, a.name? = d.name?) : as.length ∉ p.entered b
      ∧ ∃ xs e ys problem, es₆ = xs ++ e :: ys ∧ xs.length = as.length ∧ e.failure = some (.registration, problem)
        ∧ { p with decls := as ++ bs }.resolve b = .ok ⟨xs ++ ys, p.file, p₆.catalog, p₆.functions⟩ := by
  have hregister := Progress.Accounts.register h.registration
  have hnames := h.names_headers.1
  have hfailed : ∀ e, es₁[as.length]? = some e → ¬e.IsRegistered := by
    intro e he hr
    obtain ⟨xs, ys, rfl, hlength⟩ := Entry.exists_append he
    rw [hdecls, List.map_append, List.map_append, List.map_cons, List.map_cons] at hnames
    obtain ⟨hfront, hback⟩ := List.append_inj hnames (by rw [List.length_map, List.length_map, hlength])
    obtain ⟨a, ha, hname⟩ := hd
    obtain ⟨x, hx, hxname⟩ := List.mem_map.mp (hfront ▸ List.mem_map_of_mem ha : a.name? ∈ xs.map fun e => e.decl.name?)
    exact (hregister.names.first xs e ys rfl).mp hr x hx (hxname.trans (hname.trans (List.cons.inj hback).1.symm))
  obtain ⟨xs, e, ys, problem, hes, hlength, he, hresolve⟩ := h.without hdecls hfailed
  refine ⟨fun hentered => ?_, xs, e, ys, problem, hes, hlength, he, hresolve⟩
  exact nomatch h.failure_of_entered hes (hlength ▸ hentered) he

theorem Runs.failed (h : p.Runs b p₁ p₂ p₃ p₄ p₅ p₆ es₁ es₂ es₃ es₄ es₅ es₆) (hes : es₆ = as ++ e :: bs) :
    ∃ name, e.decl.name? = some name
      ∧ (e.failure.isSome = true ↔ (∃ a ∈ as, a.decl.name? = some name) ∨ ¬(p₆.record name).IsResolved) := by
  obtain ⟨hnames, -, hstages⟩ := h.accounts
  have he : e ∈ es₆ := hes ▸ List.mem_append_right _ List.mem_cons_self
  obtain ⟨name, -, hname⟩ := hnames.taken e he
  have hfirst := hnames.first as e bs hes
  refine ⟨name, hname, ?_⟩
  rw [hname] at hfirst
  by_cases hr : e.IsRegistered
  · have hfront : ¬∃ a ∈ as, a.decl.name? = some name := fun ⟨a, ha, hn⟩ => hfirst.mp hr a ha hn
    rw [or_iff_right hfront, ← (hstages e he hr name hname).failure_iff, Option.isSome_iff_ne_none]
  · have hfront : ∃ a ∈ as, a.decl.name? = some name := by
      by_contra hnone
      exact hr (hfirst.mpr fun a ha hn => hnone ⟨a, ha, hn⟩)
    refine iff_of_true (Option.isSome_iff_ne_none.mpr fun hnone => hr (.of_eq_none hnone)) (.inl hfront)

/-- There are no problems if no declaration has failed in front of the bodies and all functions are done. -/
theorem Runs.valid (h : p.Runs b p₁ p₂ p₃ p₄ p₅ p₆ es₁ es₂ es₃ es₄ es₅ es₆) : (∀ e ∈ es₆, e.failure = none)
    ↔ (∀ e ∈ es₆, ∀ phase problem, e.failure = some (phase, problem) → phase = .bodies) ∧ ∀ f ∈ p₆.functions, f.state = .done := by
  constructor
  · intro hnone
    refine ⟨fun e he _ _ hf => absurd ((hnone e he).symm.trans hf) nofun, fun f hf => ?_⟩
    obtain ⟨as, d, failure, bs, rfl, -, -, s, hstage⟩ := h.exists_func hf
    have hfailure : failure = none := hnone ⟨.func d, failure⟩ (List.mem_append_right _ List.mem_cons_self)
    exact ((hstage.failure_iff (by decide) (by decide)).mp hfailure).2
  · rintro ⟨hbodies, hdone⟩ ⟨d, failure⟩ he
    obtain ⟨hnames, -, hstages⟩ := h.accounts
    obtain ⟨name, -, hname⟩ := hnames.taken _ he
    by_contra hsome
    obtain ⟨⟨phase, problem⟩, hfailure⟩ := Option.ne_none_iff_exists'.mp hsome
    obtain rfl := hbodies _ he phase problem hfailure
    obtain rfl : failure = some (.bodies, problem) := hfailure
    have hat := hstages _ he (fun problem' hp => nomatch hp) name hname
    cases d with
    | const d | var d =>
      obtain ⟨s, -, -, hs⟩ := hat
      exact nomatch hs
    | struct d =>
      obtain ⟨s, i, -, -, -, hs⟩ := hat
      exact nomatch hs
    | func d =>
      obtain ⟨s, f, scope, hrecord, -, hstage⟩ := hat
      have hf : f.state = .done := hdone f (List.mem_of_find?_eq_some (congrArg Record.function hrecord))
      have hty : s.ty.isSome = true := by
        generalize hfailure : (Entry.mk (.func d) (some (.bodies, problem))).failure = failure at hstage
        cases hstage with
        | waiting | headed => cases hfailure
        | failed => exact nomatch hfailure
        | entered _ _ _ _ hty =>
          rw [hty]
          rfl
      exact hsome ((hstage.failure_iff (by decide) (by decide)).mpr ⟨hty, hf⟩)
    | foreign node => exact hat.elim

/-- If there are no problems, every global symbol has a type and every struct all its fields. -/
theorem Runs.known (h : p.Runs b p₁ p₂ p₃ p₄ p₅ p₆ es₁ es₂ es₃ es₄ es₅ es₆) (hnone : ∀ e ∈ es₆, e.failure = none) :
    (∀ s ∈ p₆.catalog.globals, s.ty.isSome = true) ∧ ∀ i ∈ p₆.catalog.structs, i.isComplete = true := by
  obtain ⟨hnames, -, hstages⟩ := h.accounts
  constructor
  · intro s hs
    obtain ⟨e, he, hr, hname⟩ := hnames.registered s.name (List.mem_map_of_mem hs)
    obtain ⟨s', hs', hty, -⟩ := (hstages e he hr s.name hname).failure_iff.mp (hnone e he)
    have hglobal : p₆.catalog.lookupGlobal s.name = some s := (find?_key_eq_some_iff hnames.nodup).mpr ⟨hs, rfl⟩
    rwa [Option.some.inj (hglobal.symm.trans hs')]
  · intro i hi
    have hglobal : i.name ∈ p₆.catalog.globals.map Symbol.name := hnames.structs.mem (List.mem_map_of_mem hi)
    obtain ⟨e, he, hr, hname⟩ := hnames.registered i.name hglobal
    have hat := hstages e he hr i.name hname
    have hstruct : (p₆.record i.name).struct = some i :=
      (find?_key_eq_some_iff (hnames.structs.nodup hnames.nodup)).mpr ⟨hi, rfl⟩
    obtain ⟨s, hs, hkind⟩ := hat.kind_of_struct hstruct
    obtain ⟨s', hs', -, hcomplete, -⟩ := hat.failure_iff.mp (hnone e he)
    obtain rfl := Option.some.inj (hs.symm.trans hs')
    obtain ⟨i', hi', hcomplete⟩ := hcomplete hkind
    rwa [Option.some.inj (hstruct.symm.trans hi')]

theorem Runs.isAccounted (h : p.Runs b p₁ p₂ p₃ p₄ p₅ p₆ es₁ es₂ es₃ es₄ es₅ es₆) :
    Resolution.IsAccounted b p ⟨es₆, p.file, p₆.catalog, p₆.functions⟩ where
  names := (Phase.map_name_run (Step.isLocal_body b).name h.bodies).trans h.names_headers.2
  problems := Resolution.problems_perm _
  failed _ _ _ := h.failed
  closed := h.accounts.names.current
  distinct := h.accounts.names.functions.nodup h.accounts.names.nodup
  functions _ := h.function
  lost _ _ _ := h.lost
  valid := Resolution.problems_eq_nil_iff.trans h.valid
  known hnone := h.known (Resolution.problems_eq_nil_iff.mp hnone)

end Program

/-- Every unit that is parsed is resolved, and gives an account of its declarations. Each of them has at most one problem, and
has one exactly if its name was taken by an earlier one or something about it is not found out: the type of its symbol, the
fields of a struct, or the body of a function. No scope is left open. A function without a signature has no scope and waits,
and its declaration has a problem; with a signature it has a scope and its body was entered once, and it is done, or it has
failed and its declaration has a problem. A declaration whose name was taken is not entered, and nothing else is touched by it.
There are no problems exactly if every declaration came through up to the bodies and every function is done; then every
global symbol has a type and every struct all its fields. -/
theorem Program.resolve_accounted {source : String} {file : Option String} {p : Program} (h : ofSource source file = .ok p)
    (b : Builtins) : ∃ r, p.resolve b = .ok r ∧ r.IsAccounted b p := by
  obtain ⟨r, -, hr, -⟩ := exists_resolve (isWellFormed_of_ofSource h) b
  obtain ⟨p₁, p₂, p₃, p₄, p₅, p₆, es₁, es₂, es₃, es₄, es₅, es₆, hruns, rfl⟩ := exists_runs hr
  exact ⟨_, hr, hruns.isAccounted⟩

/-- Of four functions one loses its name, one has no signature, one fails in its body and one is done. -/
theorem Program.resolve_accounted_losses :
    ∃ p r, ofSource "var f int fun f void() \x7b \x7d fun g t() \x7b \x7d fun h void() \x7b break \x7d fun k void() \x7b \x7d" = .ok p
      ∧ p.resolve = .ok r ∧ r.functions.map FunctionInfo.state = [.waiting, .failed, .done]
      ∧ r.IsAccounted Builtins.standard p := by
  have hstates : statesOf "var f int fun f void() \x7b \x7d fun g t() \x7b \x7d fun h void() \x7b break \x7d fun k void() \x7b \x7d"
      = some [.waiting, .failed, .done] := Program.bind_ofSource (by decide +kernel)
  obtain ⟨p, hp, hstates⟩ := Option.bind_eq_some_iff.mp hstates
  obtain ⟨r, hr, hstates⟩ := Option.bind_eq_some_iff.mp hstates
  have hp := Except.toOption_eq_some_iff.mp hp
  have hr := Except.toOption_eq_some_iff.mp hr
  obtain ⟨r', hr', haccounted⟩ := resolve_accounted hp Builtins.standard
  obtain rfl := Except.ok.inj (hr.symm.trans hr')
  exact ⟨p, r, hp, hr, Option.some.inj hstates, haccounted⟩

end FlatScope
