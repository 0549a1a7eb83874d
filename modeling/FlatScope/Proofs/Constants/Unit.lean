/-
  Constants in a unit. Behind the phase of the constants, their symbols stay as they are (`Phase.lookupGlobal_run`). So a
  constant that holds its name has the type and the value of the literal that it leads to. If it leads to none, it has
  exactly one problem, and at no step of any phase is there anything to be had of its symbol (`Catalog.Lacks`,
  `Program.resolves_constants`).
-/
import FlatScope.Proofs.Accounting.Unit
import FlatScope.Proofs.Constants.Chain
import FlatScope.Proofs.Resolution.Runs
import FlatScope.Proofs.Typing.Unit

namespace FlatScope

variable {p p' : Progress} {es es' : List Entry} {x : String}

/-! ## The phases behind -/

/-- An entry that has the name and has not failed is a constant. -/
def Entry.IsConstAt (x : String) (e : Entry) : Prop := e.failure = none → e.decl.name? = some x → ∃ c, e.decl = .const c

theorem Phase.isConstAt_run {phase : Phase} {step : Step} (hlocal : step.IsLocal)
    (hconst : ∀ p c p' d' problem, step p (.const c) = .ok (p', d', problem) → ∃ c', d' = .const c')
    (hes : ∀ e ∈ es, e.IsConstAt x) (hrun : phase.run step p es = .ok (p', es')) : ∀ e ∈ es', e.IsConstAt x := by
  have htakes := run_entries hrun
  clear hrun
  induction htakes with
  | nil => exact List.forall_mem_nil _
  | cons htake _ ih =>
    obtain ⟨he, hrest⟩ := List.forall_mem_cons.mp hes
    refine List.forall_mem_cons.mpr ⟨fun hnone hname => ?_, ih hrest⟩
    rw [htake.name? hlocal.name] at hname
    obtain ⟨hf, rfl⟩ | ⟨hf, q, q', problem, hone, -⟩ := htake
    · rw [hnone] at hf
      exact nomatch hf
    · obtain ⟨c, hc⟩ := he hf hname
      rw [hc] at hone
      exact hconst q c q' _ problem hone

/-- Phases that are not about constants leave the symbol of a constant as it is. -/
theorem Phase.lookupGlobal_run {phase : Phase} {step : Step} (hlocal : step.IsLocal) (hconst : ∀ c, step.Ignores (.const c))
    (hes : ∀ e ∈ es, e.IsConstAt x) (hrun : phase.run step p es = .ok (p', es')) :
    p'.catalog.lookupGlobal x = p.catalog.lookupGlobal x := by
  induction es generalizing p es' with
  | nil =>
    obtain ⟨rfl, -⟩ := Prod.mk.inj (Except.ok.inj hrun)
    rfl
  | cons e es ih =>
    obtain ⟨d, failure⟩ := e
    obtain ⟨he, hrest⟩ := List.forall_mem_cons.mp hes
    cases failure with
    | some failure =>
      obtain ⟨rest, hbehind, -⟩ := (run_failed_eq_ok phase rfl).mp hrun
      exact ih hrest hbehind
    | none =>
      obtain ⟨q, d', problem, rest, hone, hbehind, -⟩ := (run_cons_eq_ok phase).mp hrun
      refine (ih hrest hbehind).trans ?_
      by_cases hname : d.name? = some x
      · obtain ⟨c, rfl⟩ := he rfl hname
        obtain ⟨rfl, -, -⟩ := (hconst c).cases hone
        rfl
      · exact congrArg Record.global (hlocal.record hone hname)

/-- The phases in front of a phase. -/
def Phase.earlier (phase : Phase) : List Phase := Phase.all.takeWhile (· ≠ phase)

/-- There is nothing to be had of the global symbol of a name: no type or value, no value for another constant, no
length of an array, and no value in a body, unless a local symbol hides it. -/
structure Catalog.Lacks (c : Catalog) (name : String) : Prop where
  bare : ∀ s, c.lookupGlobal name = some s → s.IsBare
  constants : ∀ (d : ConstDecl) symbol info, d.value = .ident name symbol info → ∀ i, d.initializer c ≠ .ok i
  sizes : ∀ at? n, c.intConstant? name at? ≠ some n
  sizesWithin : ∀ scope at? n, (c.within scope).intConstant? name at? = some n → scope.get? name ≠ none
  values : ∀ b scope n s t, Site.value ⟨b, c.within scope, n⟩ name = .ok (s, t) → scope.get? name = some s

/-- Resolving a unit comes to the step of a phase with a declaration, and with that progress. -/
def Program.Visits (p : Program) (b : Builtins) (phase : Phase) (q : Progress) (d : Decl) : Prop :=
  ∃ q₀ as bs as', Phase.runAll b {} (p.decls.map fun decl => { decl }) phase.earlier = .ok (q₀, as ++ ⟨d, none⟩ :: bs)
    ∧ phase.run (Step.ofPhase b phase) q₀ as = .ok (q, as')

/-- No step opens a scope or closes one. -/
theorem Step.current_ofPhase {b : Builtins} {phase : Phase} {d d' : Decl} {problem : Option Problem}
    (hone : Step.ofPhase b phase p d = .ok (p', d', problem)) : p'.catalog.current = p.catalog.current := by
  cases phase with
  | registration =>
    obtain ⟨s, -, -, ⟨previous, -, rfl, -⟩ | ⟨-, rfl, -⟩⟩ := Step.register_eq_ok.mp hone
    · rfl
    · rfl
  | constants => exact (Step.isLocal_constant.names hone).current
  | fields => exact (Step.isLocal_fields.names hone).current
  | containment => exact (Step.isLocal_containment.names hone).current
  | headers => exact (Step.isLocal_header.names hone).current
  | bodies => exact ((Step.isLocal_body b).names hone).current

theorem Phase.current_run {b : Builtins} {phase : Phase} (hrun : phase.run (Step.ofPhase b phase) p es = .ok (p', es')) :
    p'.catalog.current = p.catalog.current := by
  induction es generalizing p es' with
  | nil =>
    obtain ⟨rfl, -⟩ := Prod.mk.inj (Except.ok.inj hrun)
    rfl
  | cons e es ih =>
    obtain ⟨d, failure⟩ := e
    cases failure with
    | some failure =>
      obtain ⟨rest, hrest, -⟩ := (run_failed_eq_ok phase rfl).mp hrun
      exact ih hrest
    | none =>
      obtain ⟨q, d', problem, rest, hone, hrest, -⟩ := (run_cons_eq_ok phase).mp hrun
      exact (ih hrest).trans (Step.current_ofPhase hone)

theorem Phase.current_runAll {b : Builtins} {phases : List Phase} (hrun : Phase.runAll b p es phases = .ok (p', es')) :
    p'.catalog.current = p.catalog.current := by
  induction phases generalizing p es with
  | nil =>
    obtain ⟨rfl, -⟩ := Prod.mk.inj (Except.ok.inj hrun)
    rfl
  | cons phase phases ih =>
    obtain ⟨⟨q, fs⟩, hone, hrest⟩ := Except.bind_eq_ok.mp hrun
    exact (ih hrest).trans (current_run hone)

theorem Program.Visits.current {b : Builtins} {p : Program} {phase : Phase} {q : Progress} {d : Decl}
    (h : p.Visits b phase q d) : q.catalog.current = none := by
  obtain ⟨q₀, as, bs, as', hbefore, hrun⟩ := h
  exact (Phase.current_run hrun).trans (Phase.current_runAll hbefore)

namespace Catalog

variable {c : Catalog} {name : String}

/-- What is found under the name of a bare global symbol is bare, or it is a symbol of the open scope. -/
theorem isBare_of_lookup (h : ∀ s, c.lookupGlobal name = some s → s.IsBare) {at? : Option Int} {s : Symbol}
    (hs : c.lookup name at? = some s) : s.IsBare ∨ (c.current.bind fun scope => scope.get? name) = some s := by
  rw [lookup] at hs
  split at hs
  · rename_i s' hs'
    obtain rfl := Option.some.inj hs
    exact .inr (Option.filter_eq_some_iff.mp hs').1
  · exact .inl (h s hs)

theorem intConstant?_of_isBare {at? : Option Int} (h : ∀ s, c.lookup name at? = some s → s.IsBare) :
    c.intConstant? name at? = none := by
  rw [intConstant?]
  split
  · rename_i hs
    exact nomatch (h _ hs).1
  · rfl

theorem lacks_of_isBare (hcurrent : c.current = none) (h : ∀ s, c.lookupGlobal name = some s → s.IsBare) : c.Lacks name where
  bare := h
  constants d symbol info hv i hi := by
    rw [ConstDecl.initializer, hv] at hi
    dsimp only at hi
    split at hi
    · cases hi
    · rename_i s hs
      split at hi
      · cases hi
      · rw [(h s hs).1] at hi
        cases hi
  sizes at? n hn := by
    rw [intConstant?_of_isBare fun s hs => ?_] at hn
    · cases hn
    · obtain hs | hs := isBare_of_lookup h hs
      · exact hs
      · rw [hcurrent] at hs
        cases hs
  sizesWithin scope at? n hn hnone := by
    rw [intConstant?_of_isBare fun s hs => ?_] at hn
    · cases hn
    · obtain hs | hs := isBare_of_lookup (c := c.within scope) h hs
      · exact hs
      · cases hnone.symm.trans hs
  values b scope n s t hv := by
    rw [Site.value] at hv
    split at hv
    · split at hv
      · cases hv
      · split at hv <;> cases hv
    · rename_i s' hs
      split at hv
      · cases hv
      · cases hv
      · cases hv
      · cases hv
      · rename_i t' ht _ _ _
        obtain ⟨rfl, -⟩ := Prod.mk.inj (Except.ok.inj hv)
        obtain hbare | hlocal := isBare_of_lookup (c := c.within scope) h hs
        · cases ht.symm.trans hbare.1
        · exact hlocal

end Catalog

/-- The problems of an entry. -/
def Entry.problems (e : Entry) : List Problem := Phase.all.filterMap e.problemIn?

namespace Program

variable {b : Builtins} {p : Program} {p₁ p₂ p₃ p₄ p₅ p₆ : Progress} {es₁ es₂ es₃ es₄ es₅ es₆ : List Entry} {i : Nat}
  {c : ConstDecl}

/-- Only the constant that holds a name has it and has not failed, in whatever phase. -/
theorem Runs.isConstAt (h : p.Runs b p₁ p₂ p₃ p₄ p₅ p₆ es₁ es₂ es₃ es₄ es₅ es₆) (hc : Decl.Holds p.decls i (.const c)) :
    (∀ e ∈ es₂, e.IsConstAt c.name) ∧ (∀ e ∈ es₃, e.IsConstAt c.name) ∧ (∀ e ∈ es₄, e.IsConstAt c.name)
      ∧ ∀ e ∈ es₅, e.IsConstAt c.name := by
  have hfrom := Phase.areFrom_run_register h.registration
  have h₁ : ∀ e ∈ es₁, e.IsConstAt c.name := by
    intro e he hnone hname
    obtain ⟨m, hm⟩ := List.getElem?_of_mem he
    have hheld := ((hfrom m e hm).2.mp hnone).unique hc hname
    exact ⟨c, hheld.2⟩
  have hignored {step : Step} (hstep : ∀ c, step.Ignores (.const c)) (p : Progress) (c : ConstDecl) (p' : Progress)
      (d' : Decl) (problem : Option Problem) (hone : step p (.const c) = .ok (p', d', problem)) : ∃ c', d' = .const c' :=
    ⟨c, ((hstep c).cases hone).2.1⟩
  have h₂ := Phase.isConstAt_run Step.isLocal_constant (fun p c p' d' problem hone => by
    obtain ⟨i, -, -, rfl, -⟩ | ⟨-, rfl, -⟩ := Step.constant_cases hone
    · exact ⟨_, rfl⟩
    · exact ⟨_, rfl⟩) h₁ h.constants
  have h₃ := Phase.isConstAt_run Step.isLocal_fields (hignored fun _ _ => rfl) h₂ h.fields
  have h₄ := Phase.isConstAt_run Step.isLocal_containment (hignored fun _ _ => rfl) h₃ h.containment
  exact ⟨h₂, h₃, h₄, Phase.isConstAt_run Step.isLocal_header (hignored fun _ _ => rfl) h₄ h.headers⟩

/-- Behind the phase of the constants, the symbols of constants stay as they are. -/
theorem Runs.lookupGlobal_const (h : p.Runs b p₁ p₂ p₃ p₄ p₅ p₆ es₁ es₂ es₃ es₄ es₅ es₆)
    (hc : Decl.Holds p.decls i (.const c)) :
    p₃.catalog.lookupGlobal c.name = p₂.catalog.lookupGlobal c.name
      ∧ p₄.catalog.lookupGlobal c.name = p₂.catalog.lookupGlobal c.name
      ∧ p₅.catalog.lookupGlobal c.name = p₂.catalog.lookupGlobal c.name
      ∧ p₆.catalog.lookupGlobal c.name = p₂.catalog.lookupGlobal c.name := by
  obtain ⟨h₂, h₃, h₄, h₅⟩ := h.isConstAt hc
  have hfields := Phase.lookupGlobal_run Step.isLocal_fields (fun _ _ => rfl) h₂ h.fields
  have hcontainment := Phase.lookupGlobal_run Step.isLocal_containment (fun _ _ => rfl) h₃ h.containment
  have hheaders := Phase.lookupGlobal_run Step.isLocal_header (fun _ _ => rfl) h₄ h.headers
  have hbodies := Phase.lookupGlobal_run (Step.isLocal_body b) (fun _ _ => rfl) h₅ h.bodies
  exact ⟨hfields, hcontainment.trans hfields, hheaders.trans (hcontainment.trans hfields),
    hbodies.trans (hheaders.trans (hcontainment.trans hfields))⟩

theorem Runs.knows (h : p.Runs b p₁ p₂ p₃ p₄ p₅ p₆ es₁ es₂ es₃ es₄ es₅ es₆) : p₂.Knows p.decls p.decls.length := by
  have hlength : es₁.length = p.decls.length :=
    (Phase.run_entries h.registration).length_eq.symm.trans (List.length_map _)
  have hknows := (Phase.knows_run_register h.registration).run (Phase.areFrom_run_register h.registration) h.constants
  rwa [Nat.zero_add, hlength] at hknows

/-- What there is when a phase begins. -/
theorem Runs.earlier (h : p.Runs b p₁ p₂ p₃ p₄ p₅ p₆ es₁ es₂ es₃ es₄ es₅ es₆) (phase : Phase) :
    Phase.runAll b {} (p.decls.map fun decl => { decl }) phase.earlier = .ok (match phase with
      | .registration => ({}, p.decls.map fun decl => { decl })
      | .constants => (p₁, es₁)
      | .fields => (p₂, es₂)
      | .containment => (p₃, es₃)
      | .headers => (p₄, es₄)
      | .bodies => (p₅, es₅)) := by
  have hearlier : phase.earlier = (match phase with
      | .registration => []
      | .constants => [.registration]
      | .fields => [.registration, .constants]
      | .containment => [.registration, .constants, .fields]
      | .headers => [.registration, .constants, .fields, .containment]
      | .bodies => [.registration, .constants, .fields, .containment, .headers] : List Phase) := by
    cases phase <;> rfl
  rw [hearlier]
  cases phase <;> simp only [Phase.runAll, Step.ofPhase, h.registration, h.constants, h.fields, h.containment, h.headers,
    bind, Except.bind, pure, Except.pure]

/-- A constant that leads to no literal has neither a type nor a value, whatever step is taken. -/
theorem Runs.isBare_of_visits (h : p.Runs b p₁ p₂ p₃ p₄ p₅ p₆ es₁ es₂ es₃ es₄ es₅ es₆)
    (hc : Decl.Holds p.decls i (.const c)) (hl : ∀ l, ¬ Decl.LeadsTo p.decls i l) {phase : Phase} {q : Progress} {d : Decl}
    (hv : p.Visits b phase q d) {s : Symbol} (hs : q.catalog.lookupGlobal c.name = some s) : s.IsBare := by
  have hchained {k : Nat} {q : Progress} (hq : q.Knows p.decls k) {s : Symbol}
      (hs : q.catalog.lookupGlobal c.name = some s) : s.IsBare := by
    obtain ⟨s', hs', -, -, hchained⟩ := hq.held i c hc
    obtain rfl := Option.some.inj (hs.symm.trans hs')
    cases hchained with
    | known _ hlead _ => exact absurd hlead (hl _)
    | bare _ hbare => exact hbare
  have hlater {step : Step} (hlocal : step.IsLocal) (hconst : ∀ c, step.Ignores (.const c)) {q₀ q : Progress}
      {as bs as' : List Entry} (hes : ∀ e ∈ as ++ bs, e.IsConstAt c.name)
      (hq₀ : q₀.catalog.lookupGlobal c.name = p₂.catalog.lookupGlobal c.name)
      (hrun : phase.run step q₀ as = .ok (q, as')) (hs : q.catalog.lookupGlobal c.name = some s) : s.IsBare := by
    rw [Phase.lookupGlobal_run hlocal hconst (fun e he => hes e (List.mem_append_left _ he)) hrun, hq₀] at hs
    exact hchained h.knows hs
  obtain ⟨h₂, h₃, h₄, h₅⟩ := h.isConstAt hc
  obtain ⟨hg₃, hg₄, hg₅, -⟩ := h.lookupGlobal_const hc
  obtain ⟨q₀, as, bs, as', hbefore, hrun⟩ := hv
  rw [h.earlier phase] at hbefore
  have hbefore := Except.ok.inj hbefore
  cases phase with
  | registration =>
    obtain ⟨rfl, hes⟩ := Prod.mk.inj hbefore
    have hfresh : ∀ e ∈ as, e.failure = none := fun e he => by
      obtain ⟨d, -, rfl⟩ := List.mem_map.mp (hes.symm ▸ List.mem_append_left _ he)
      rfl
    rw [Phase.lookupGlobal_run_register hfresh hrun] at hs
    obtain ⟨d', hd', hs⟩ := Option.bind_eq_some_iff.mp hs
    have hdecls : p.decls = as.map Entry.decl ++ d :: bs.map Entry.decl := by
      have hmap := congrArg (List.map Entry.decl) hes
      rwa [List.map_map, Function.comp_def, List.map_id', List.map_append, List.map_cons] at hmap
    have hfind := hc.find? rfl
    rw [hdecls, List.find?_append, hd', Option.some_or] at hfind
    obtain rfl := Option.some.inj hfind
    obtain rfl := Option.some.inj hs
    exact ⟨rfl, rfl⟩
  | constants =>
    obtain ⟨rfl, rfl⟩ := Prod.mk.inj hbefore
    exact hchained ((Phase.knows_run_register h.registration).run (Phase.areFrom_run_register h.registration).front hrun) hs
  | fields =>
    obtain ⟨rfl, rfl⟩ := Prod.mk.inj hbefore
    exact hlater Step.isLocal_fields (fun _ _ => rfl) h₂ rfl hrun hs
  | containment =>
    obtain ⟨rfl, rfl⟩ := Prod.mk.inj hbefore
    exact hlater Step.isLocal_containment (fun _ _ => rfl) h₃ hg₃ hrun hs
  | headers =>
    obtain ⟨rfl, rfl⟩ := Prod.mk.inj hbefore
    exact hlater Step.isLocal_header (fun _ _ => rfl) h₄ hg₄ hrun hs
  | bodies =>
    obtain ⟨rfl, rfl⟩ := Prod.mk.inj hbefore
    exact hlater (Step.isLocal_body b) (fun _ _ => rfl) h₅ hg₅ hrun hs

/-- The entry of a constant that holds its name: it fails, once and in the phase of the constants, if its symbol has no
type, and does not fail if it has. -/
theorem Runs.exists_entry (h : p.Runs b p₁ p₂ p₃ p₄ p₅ p₆ es₁ es₂ es₃ es₄ es₅ es₆)
    (hc : Decl.Holds p.decls i (.const c)) {s : Symbol} (hs : p₆.catalog.lookupGlobal c.name = some s)
    (hkind : s.kind = .const) : ∃ e, es₆[i]? = some e ∧ (s.ty = none → ∃ q, e.failure = some (.constants, q))
      ∧ (s.ty ≠ none → e.failure = none) := by
  have hnames : es₆.map (fun e => e.decl.name?) = p.decls.map Decl.name? :=
    (Phase.map_name_run (Step.isLocal_body b).name h.bodies).trans h.names_headers.2
  have hget (j : Nat) : (es₆[j]?).map (fun e => e.decl.name?) = (p.decls[j]?).map Decl.name? := by
    rw [← List.getElem?_map, hnames, List.getElem?_map]
  obtain ⟨e, he, hname⟩ := Option.map_eq_some_iff.mp ((hget i).trans (congrArg (Option.map Decl.name?) hc.1))
  obtain ⟨front, back, hsplit, rfl⟩ := Entry.exists_append he
  have hregistered : e.IsRegistered := by
    refine (h.accounts.names.first front e back hsplit).mpr fun a ha heq => ?_
    obtain ⟨j, hj, rfl⟩ := List.getElem_of_mem ha
    have hat : es₆[j]? = some front[j] := by
      rw [hsplit, List.getElem?_append_left hj, List.getElem?_eq_getElem hj]
    obtain ⟨d, hd, hdname⟩ := Option.map_eq_some_iff.mp ((hget j).symm.trans (congrArg (Option.map _) hat))
    exact hc.2 j hj d hd (hdname.trans (heq.trans hname))
  have hstage := h.accounts.stages e (List.mem_of_getElem? he) hregistered c.name hname
  have hglobal : (p₆.record c.name).global = some s := hs
  refine ⟨e, he, ?_⟩
  obtain ⟨d, failure⟩ := e
  cases d with
  | const _ =>
    obtain ⟨s', hr, -, hs'⟩ := hstage
    rw [hr] at hglobal
    obtain rfl := Option.some.inj hglobal
    generalize hknown : s'.ty.isSome = known at hs'
    cases hs' with
    | waiting hmem => exact absurd (show Phase.constants ∈ _ by decide) hmem
    | failed _ problem =>
      rw [Option.isSome_eq_false_iff, Option.isNone_iff_eq_none] at hknown
      exact ⟨fun _ => ⟨problem, rfl⟩, fun hne => absurd hknown hne⟩
    | known _ => exact ⟨fun hnone => by simp [hnone] at hknown, fun _ => rfl⟩
  | var _ =>
    obtain ⟨s', hr, hkind', -⟩ := hstage
    rw [hr] at hglobal
    obtain rfl := Option.some.inj hglobal
    exact nomatch hkind'.symm.trans hkind
  | struct _ =>
    obtain ⟨s', _, hr, hkind', -⟩ := hstage
    rw [hr] at hglobal
    obtain rfl := Option.some.inj hglobal
    exact nomatch hkind'.symm.trans hkind
  | func _ =>
    obtain ⟨s', _, _, hr, hkind', -⟩ := hstage
    rw [hr] at hglobal
    obtain rfl := Option.some.inj hglobal
    exact nomatch hkind'.symm.trans hkind
  | foreign _ => exact hstage.elim

/-- A constant that holds its name has the type and the value of the literal that it leads to, and no problem. If it leads
to none, it has exactly one problem, and never a type or a value. -/
theorem resolves_constants {source : String} {file : Option String} (hp : ofSource source file = .ok p) (b : Builtins)
    (hc : Decl.Holds p.decls i (.const c)) :
    ∃ r s e, p.resolve b = .ok r ∧ r.catalog.lookupGlobal c.name = some s ∧ s.kind = .const ∧ s.span = c.span
      ∧ r.entries[i]? = some e ∧ (∀ l, s.Has l ↔ Decl.LeadsTo p.decls i l)
      ∧ ((∃ l, Decl.LeadsTo p.decls i l) → e.problems = [])
      ∧ ((∀ l, ¬ Decl.LeadsTo p.decls i l) → s.IsBare ∧ (∃ q, e.problems = [q] ∧ q ∈ r.problems)
        ∧ ∀ phase q d, p.Visits b phase q d → q.catalog.Lacks c.name) := by
  obtain ⟨r, -, hr, -⟩ := exists_resolve (isWellFormed_of_ofSource hp) b
  obtain ⟨p₁, p₂, p₃, p₄, p₅, p₆, es₁, es₂, es₃, es₄, es₅, es₆, hruns, rfl⟩ := exists_runs hr
  obtain ⟨s, hs, hkind, hspan, hchained⟩ := hruns.knows.held i c hc
  rw [← (hruns.lookupGlobal_const hc).2.2.2] at hs
  obtain ⟨e, he, hfails, hpasses⟩ := hruns.exists_entry hc hs hkind
  refine ⟨_, s, e, hr, hs, hkind, hspan, he, ?_⟩
  obtain ⟨d, failure⟩ := e
  cases hchained with
  | @known l _ hl hhas =>
    refine ⟨fun l' => ⟨fun h => ?_, fun hl' => hl.unique hl' ▸ hhas⟩, fun _ => ?_, fun hno => absurd hl (hno l)⟩
    · have hsame : l = l' := Prod.ext (Option.some.inj (hhas.1.symm.trans h.1)) (Option.some.inj (hhas.2.symm.trans h.2))
      exact hsame ▸ hl
    · obtain rfl := hpasses (by rw [hhas.1]; nofun)
      rfl
  | bare hlate hbare =>
    have hno (l : Ty × Constant) : ¬ Decl.LeadsTo p.decls i l := fun hl =>
      absurd (hlate l hl) (Nat.not_le.mpr (List.getElem?_eq_some_iff.mp hc.1).1)
    refine ⟨fun l => iff_of_false (fun h => nomatch hbare.1.symm.trans h.1) (hno l), fun ⟨l, hl⟩ => absurd hl (hno l),
      fun _ => ⟨hbare, ?_, fun phase q d hv => ?_⟩⟩
    · obtain ⟨q, rfl⟩ := hfails hbare.1
      refine ⟨q, rfl, ?_⟩
      exact (Resolution.problems_perm _).mem_iff.mpr (List.mem_filterMap.mpr ⟨_, List.mem_of_getElem? he, rfl⟩)
    · exact Catalog.lacks_of_isBare hv.current fun s hs => hruns.isBare_of_visits hc hno hv hs

end Program

/-! ## A unit with constants -/

/-- What a constant names or spells. -/
def Decl.link? : Decl → Option (String ⊕ Ty × Constant)
  | .const c =>
    match c.value with
    | .ident name _ _ => some (.inl name)
    | value => value.literal?.map .inr
  | _ => none

/-- The declarations of a source: their names, and what they name or spell if they are constants. -/
def linksOf (source : String) : Option (List (Option String × Option (String ⊕ Ty × Constant))) := do
  let p ← (Program.ofSource source).toOption
  return p.decls.map fun d => (d.name?, d.link?)

/-- A constant, a variable with the name of another constant behind it, one that refers forward, and one that refers back. -/
def constantsAround : String := "const a 1 var b int const b a const c d const d a"

namespace Decl

variable {ds : List Decl} {i : Nat} {name : String}

theorem exists_ident_of_link? {d : Decl} (h : d.link? = some (.inl name)) :
    ∃ c symbol info, d = .const c ∧ c.value = .ident name symbol info := by
  cases d with
  | const c =>
    rw [link?] at h
    split at h
    · rename_i symbol info hv
      obtain rfl := Sum.inl.inj (Option.some.inj h)
      exact ⟨c, symbol, info, rfl, hv⟩
    · obtain ⟨_, -, hl⟩ := Option.map_eq_some_iff.mp h
      exact nomatch hl
  | var _ | struct _ | func _ | foreign _ => exact nomatch h

theorem exists_literal_of_link? {d : Decl} {l : Ty × Constant} (h : d.link? = some (.inr l)) :
    ∃ c, d = .const c ∧ c.value.literal? = some l := by
  cases d with
  | const c =>
    rw [link?] at h
    split at h
    · exact nomatch h
    · obtain ⟨_, hv, hl⟩ := Option.map_eq_some_iff.mp h
      exact ⟨c, rfl, hv.trans (congrArg some (Sum.inr.inj hl))⟩
  | var _ | struct _ | func _ | foreign _ => exact nomatch h

theorem holds_of_names {d : Decl} {names : List (Option String)} (hnames : ds.map name? = names) (hd : ds[i]? = some d)
    (hfirst : ∀ x ∈ names.take i, x ≠ d.name?) : Holds ds i d := by
  refine ⟨hd, fun j hj e he => hfirst e.name? (List.mem_of_getElem? (i := j) ?_)⟩
  rw [List.getElem?_take_of_lt hj, ← hnames, List.getElem?_map, he]
  rfl

end Decl

/-- In `constantsAround`, `d` has the value of `a`, and `c` has a problem. -/
theorem Program.resolves_constants_around : ∃ p r r' d c e, ofSource constantsAround = .ok p
    ∧ p.resolve = .ok r ∧ r.catalog.lookupGlobal "d" = some d ∧ d.Has (.int, .int 1)
    ∧ p.resolve = .ok r' ∧ r'.catalog.lookupGlobal "c" = some c ∧ c.IsBare ∧ r'.entries[3]? = some e
    ∧ ∃ q, e.problems = [q] ∧ q ∈ r'.problems := by
  have hlinks : linksOf constantsAround = some [(some "a", some (.inr (.int, .int 1))), (some "b", none),
      (some "b", some (.inl "a")), (some "c", some (.inl "d")), (some "d", some (.inl "a"))] :=
    Program.bind_ofSource (by decide +kernel)
  obtain ⟨p, hp, hlinks⟩ := Option.bind_eq_some_iff.mp hlinks
  have hp := Except.toOption_eq_some_iff.mp hp
  have hlinks := Option.some.inj hlinks
  have hnames : p.decls.map Decl.name? = [some "a", some "b", some "b", some "c", some "d"] := by
    have hfst := congrArg (List.map Prod.fst) hlinks
    rwa [List.map_map] at hfst
  have hget (j : Nat) := (List.getElem?_map (f := fun d : Decl => (d.name?, d.link?)) (l := p.decls) (i := j)).symm.trans
    (congrArg (·[j]?) hlinks)
  obtain ⟨d₀, hd₀, h₀⟩ := Option.map_eq_some_iff.mp (hget 0)
  obtain ⟨d₃, hd₃, h₃⟩ := Option.map_eq_some_iff.mp (hget 3)
  obtain ⟨d₄, hd₄, h₄⟩ := Option.map_eq_some_iff.mp (hget 4)
  obtain ⟨a, rfl, ha⟩ := Decl.exists_literal_of_link? (Prod.mk.inj h₀).2
  obtain ⟨c, symbol, info, rfl, hc⟩ := Decl.exists_ident_of_link? (Prod.mk.inj h₃).2
  obtain ⟨d, symbol', info', rfl, hd⟩ := Decl.exists_ident_of_link? (Prod.mk.inj h₄).2
  have haname : a.name = "a" := Option.some.inj (Prod.mk.inj h₀).1
  have hcname : c.name = "c" := Option.some.inj (Prod.mk.inj h₃).1
  have hdname : d.name = "d" := Option.some.inj (Prod.mk.inj h₄).1
  have ha_holds : Decl.Holds p.decls 0 (.const a) := ⟨hd₀, nofun⟩
  have hc_holds : Decl.Holds p.decls 3 (.const c) := Decl.holds_of_names hnames hd₃ (by
    rw [Decl.name?, hcname]
    decide)
  have hd_holds : Decl.Holds p.decls 4 (.const d) := Decl.holds_of_names hnames hd₄ (by
    rw [Decl.name?, hdname]
    decide)
  have hd_leads : Decl.LeadsTo p.decls 4 (.int, .int 1) :=
    .follow hd₄ (haname.symm ▸ hd) ha_holds (by decide) (.literal hd₀ ha)
  have hc_leads (l : Ty × Constant) : ¬ Decl.LeadsTo p.decls 3 l := by
    intro h
    cases h with
    | literal hc' hl =>
      obtain rfl := Decl.const.inj (Option.some.inj (hd₃.symm.trans hc'))
      rw [hc] at hl
      exact nomatch hl
    | @follow _ j _ source _ _ _ hc' hv hj hlt _ =>
      obtain rfl := Decl.const.inj (Option.some.inj (hd₃.symm.trans hc'))
      obtain ⟨hname, -, -⟩ := Expr.ident.inj (hv.symm.trans hc)
      have hj' : (p.decls.map Decl.name?)[j]? = some (some source.name) := by
        rw [List.getElem?_map, hj.1]
        rfl
      rw [hnames, hname] at hj'
      match j, hlt with
      | 0, _ | 1, _ | 2, _ => exact absurd hj' (by decide)
  obtain ⟨r, s, -, hr, hs, -, -, -, hhas, -, -⟩ := resolves_constants hp Builtins.standard hd_holds
  obtain ⟨r', s', e, hr', hs', -, -, he, -, -, hbare⟩ := resolves_constants hp Builtins.standard hc_holds
  obtain ⟨hs'bare, hproblem, -⟩ := hbare hc_leads
  exact ⟨p, r, r', s, s', e, hp, hr, hdname ▸ hs, (hhas _).mpr hd_leads, hr', hcname ▸ hs', hs'bare, he, hproblem⟩

end FlatScope
