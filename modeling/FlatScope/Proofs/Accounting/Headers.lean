/-
  Headers among the global symbols of a resolved unit. Settling variables and functions changes nothing that types depend on
  (`Phase.agreesOnTypes_headers`), so the header of a declaration, which was read when those further on were not settled yet, reads
  the same in the catalog that is left in the end; and what it reads as is what is known under the name
  (`Program.Runs.header`).
-/
import FlatScope.Proofs.Accounting.Names
import FlatScope.Proofs.Isolation

namespace FlatScope

theorem Catalog.AgreesOnTypes.refl (c : Catalog) : c.AgreesOnTypes c := ⟨fun _ _ => rfl, fun _ _ => rfl⟩

theorem Catalog.AgreesOnTypes.trans {c c' c'' : Catalog} (h : c.AgreesOnTypes c') (h' : c'.AgreesOnTypes c'') :
    c.AgreesOnTypes c'' where
  named allowVoid name := (h'.named allowVoid name).trans (h.named allowVoid name)
  constant name at? := (h'.constant name at?).trans (h.constant name at?)

namespace Progress

variable {p q : Progress} {d : Decl}

/-- The global symbols of a state are those of another one, as far as their names and kinds go. -/
def SameKinds (p q : Progress) : Prop :=
  ∀ name, (q.catalog.lookupGlobal name).map Symbol.kind = (p.catalog.lookupGlobal name).map Symbol.kind

theorem KnowsKind.congr (h : p.KnowsKind d) (hq : p.SameKinds q) : q.KnowsKind d := by
  intro name s hname hs
  have hkind := hq name
  rw [hs, Option.map_some, eq_comm, Option.map_eq_some_iff] at hkind
  obtain ⟨s', hs', hkind⟩ := hkind
  rw [← hkind]
  exact h name s' hname hs'

theorem sameKinds_settle (p : Progress) (name : String) (t : Ty) (s : Option Signature) : p.SameKinds (p.settle name t s) := by
  intro x
  rw [lookupGlobal_settle, map_kind_ite (f := fun g => { g with ty := some t }) fun _ => rfl]

end Progress

/-- The step of the headers changes nothing that types depend on. -/
theorem Step.agreesOnTypes_header {p p' : Progress} {d d' : Decl} {problem : Option Problem} (hk : p.KnowsKind d)
    (h : header p d = .ok (p', d', problem)) : p.SameKinds p' ∧ p.catalog.AgreesOnTypes p'.catalog := by
  cases hd : d.header? p.catalog with
  | none =>
    rw [((ignores_header hd).cases h).1]
    exact ⟨fun _ => rfl, .refl _⟩
  | some x =>
    obtain ⟨-, ⟨name, t, s, rfl, rfl, -⟩ | ⟨rfl, -⟩⟩ := header_cases hd h
    · obtain ⟨hname, hconst⟩ := Decl.name?_of_header? hd
      exact ⟨p.sameKinds_settle name t s, Progress.agreesOnTypes_settle hk hconst hname t s⟩
    · exact ⟨fun _ => rfl, .refl _⟩

/-- Types are the same in front of the headers and behind them. -/
theorem Phase.agreesOnTypes_headers {p p' : Progress} {es es' : List Entry} (hk : ∀ e ∈ es, e.failure = none → p.KnowsKind e.decl)
    (hrun : Phase.headers.run Step.header p es = .ok (p', es')) : p.SameKinds p' ∧ p.catalog.AgreesOnTypes p'.catalog := by
  induction es generalizing p es' with
  | nil =>
    obtain ⟨rfl, -⟩ := Prod.mk.inj (Except.ok.inj hrun)
    exact ⟨fun _ => rfl, .refl _⟩
  | cons e es ih =>
    obtain ⟨d, failure⟩ := e
    obtain ⟨he, hes⟩ := List.forall_mem_cons.mp hk
    cases failure with
    | some failure =>
      obtain ⟨rest, hrest, rfl⟩ := (run_failed_eq_ok _ rfl).mp hrun
      exact ih hes hrest
    | none =>
      obtain ⟨q, d', problem, rest, hone, hrest, rfl⟩ := (run_cons_eq_ok _).mp hrun
      obtain ⟨hkinds, hagrees⟩ := Step.agreesOnTypes_header (he rfl) hone
      obtain ⟨hkinds', hagrees'⟩ := ih (fun e he hn => (hes e he hn).congr hkinds) hrest
      exact ⟨fun name => (hkinds' name).trans (hkinds name), hagrees.trans hagrees'⟩

/-- The kind of the symbol of a declaration that has got its name is known. -/
theorem Progress.Accounts.knowsKind {p : Progress} {past : List Phase} {es : List Entry} (h : p.Accounts past es) {e : Entry}
    (he : e ∈ es) (hfailure : e.failure = none) : p.KnowsKind e.decl := by
  intro name s hname hs
  have hstage := h.stages e he (.of_eq_none hfailure) name hname
  obtain ⟨d, failure⟩ := e
  have hglobal : (p.record name).global = some s := hs
  cases d with
  | const d | var d =>
    obtain ⟨g, hr, hkind, -⟩ := hstage
    rw [hr] at hglobal
    obtain rfl := Option.some.inj hglobal
    rw [hkind]
    simp [Decl.isConst]
  | struct d =>
    obtain ⟨g, i, hr, hkind, -⟩ := hstage
    rw [hr] at hglobal
    obtain rfl := Option.some.inj hglobal
    rw [hkind]
    simp [Decl.isConst]
  | func d =>
    obtain ⟨g, f, scope, hr, hkind, -⟩ := hstage
    rw [hr] at hglobal
    obtain rfl := Option.some.inj hglobal
    rw [hkind]
    simp [Decl.isConst]
  | foreign node => exact hstage.elim

namespace Program

variable {b : Builtins} {p : Program} {p₁ p₂ p₃ p₄ p₅ p₆ : Progress} {es₁ es₂ es₃ es₄ es₅ es₆ : List Entry}

/-- The header of a declaration that has not failed reads behind all headers as what is known under its name. -/
theorem Runs.header (h : p.Runs b p₁ p₂ p₃ p₄ p₅ p₆ es₁ es₂ es₃ es₄ es₅ es₆) {i : Nat} {d : Decl}
    (hd : es₅[i]? = some ⟨d, none⟩) {x : Except Halt (String × Ty × Option Signature)} (hx : d.header? p₅.catalog = some x) :
    ∃ name t s, x = .ok (name, t, s) ∧ d.name? = some name
      ∧ (∀ g, p₅.catalog.lookupGlobal name = some g → g.ty = some t)
      ∧ ∀ f s', p₅.function? name = some f → s = some s' → f.signature = some s' := by
  have haccounts := h.accounts_containment
  have hrun := h.headers
  obtain ⟨as', bs', rfl, -⟩ := Entry.exists_append hd
  obtain ⟨as, e, bs, rfl, hlength, -⟩ := Phase.exists_of_run_append hrun
  have hknown (a : Entry) (ha : a ∈ as ++ e :: bs) (hn : a.failure = none) : p₄.KnowsKind a.decl := haccounts.knowsKind ha hn
  obtain ⟨hknownFront, hknownBack⟩ := List.forall_mem_append.mp hknown
  -- The headers in front of the declaration, its own one, and those behind it.
  obtain ⟨q, xs, ys, hfront, hback, heq⟩ := Phase.run_append.mp hrun
  have hxs : xs.length = as'.length := (Phase.run_entries hfront).length_eq.symm.trans hlength
  obtain ⟨-, rfl⟩ := List.append_inj heq hxs.symm
  obtain ⟨d₀, failure⟩ := e
  cases failure with
  | some failure =>
    obtain ⟨rest, -, hrest⟩ := (Phase.run_failed_eq_ok _ rfl).mp hback
    cases (List.cons.inj hrest).1
  | none =>
    obtain ⟨q', d', problem, rest, hone, hrest, hentries⟩ := (Phase.run_cons_eq_ok _).mp hback
    obtain ⟨hentry, rfl⟩ := List.cons.inj hentries
    obtain ⟨rfl, hproblem⟩ := Entry.mk.inj hentry
    obtain rfl : problem = none := Option.map_eq_none_iff.mp hproblem.symm
    obtain rfl := Step.keepsDecl_header _ _ _ _ _ hone
    have hkinds := (Phase.agreesOnTypes_headers hknownFront hfront).1
    obtain ⟨hknownOwn, hknownRest⟩ := List.forall_mem_cons.mp hknownBack
    obtain ⟨hkinds', hagrees⟩ := Step.agreesOnTypes_header ((hknownOwn rfl).congr hkinds) hone
    have hagrees' := (Phase.agreesOnTypes_headers
      (fun a ha hn => ((hknownRest a ha hn).congr hkinds).congr hkinds') hrest).2
    rw [Decl.header?_eq (hagrees.trans hagrees')] at hx
    obtain ⟨-, ⟨name, t, s, rfl, rfl, -⟩ | ⟨-, q, hq⟩⟩ := Step.header_cases hx hone
    · obtain ⟨hname, -⟩ := Decl.name?_of_header? hx
      have hothers (a : Entry) (ha : a ∈ bs) (hn : a.failure = none) : a.decl.name? ≠ some name := by
        have hapart := (List.pairwise_cons.mp (List.pairwise_append.mp haccounts.apart).2.1).1 a ha
        exact fun h => hapart (.of_eq_none rfl) (.of_eq_none hn) (hname.trans h.symm)
      have hrecord := Phase.record_run Step.isLocal_header hothers hrest
      refine ⟨name, t, s, rfl, hname, fun g hg => ?_, fun f s' hf hs => ?_⟩
      · have hglobal : p₅.catalog.lookupGlobal name = (q.settle name t s).catalog.lookupGlobal name :=
          congrArg Record.global hrecord
        rw [hglobal, Progress.lookupGlobal_settle, Option.map_eq_some_iff] at hg
        obtain ⟨g', hg', rfl⟩ := hg
        have hfound : g'.name = name := by simpa using List.find?_some hg'
        rw [if_pos hfound]
      · have hfunction : p₅.function? name = (q.settle name t s).function? name := congrArg Record.function hrecord
        rw [hfunction, Progress.function?_settle, Option.map_eq_some_iff] at hf
        obtain ⟨f', hf', rfl⟩ := hf
        have hfound : f'.name = name := by simpa using List.find?_some hf'
        rw [if_pos hfound, hs]
        rfl
    · cases hq

end Program

end FlatScope
