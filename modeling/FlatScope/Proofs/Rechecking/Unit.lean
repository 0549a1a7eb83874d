/-
  Resolving a unit twice. What has become of a body reads like the body, and work on it comes to the same
  (`FuncDecl.work_again`), whether the first work went through or ended at a problem. What has become of a unit reads like the
  unit, and resolving it once more comes to the same in everything: the same problems, catalog and functions, and the same tree
  (`Program.resolve_again`). Every phase does with a declaration what it does with what will have become of it in the end.
-/
import FlatScope.Proofs.Grammar.WellFormed
import FlatScope.Proofs.Rechecking.Stmt
import FlatScope.Proofs.Resolution.Body
import FlatScope.Proofs.Resolution.Runs
import FlatScope.Proofs.Resolution.Steps
import FlatScope.Proofs.Typing.Unit

namespace FlatScope

/-- Statements that declare the same are collected to the same. -/
theorem Stmt.collect_eq {ss ss' : List Stmt} (h : List.Forall₂ DeclaresAs ss ss') (c : Catalog) (scope : LocalScope)
    (n : Nat) : collect c scope n ss' = collect c scope n ss := by
  induction h generalizing scope n with
  | nil => rfl
  | cons hs _ ih => simp only [collect, hs (c.within scope) n, ih]

/-- A function with another body. -/
def FuncDecl.withBody (d : FuncDecl) (body : List Stmt) : FuncDecl := { d with body }

/-- A function reads like another one. Only the bodies may differ, by what does not show. -/
def FuncDecl.ReadsAs (d d' : FuncDecl) : Prop := ∃ body, d' = d.withBody body ∧ Stmt.AllRead d.body body

namespace FuncDecl

theorem ReadsAs.refl (d : FuncDecl) : d.ReadsAs d := ⟨d.body, rfl, .refl d.body⟩

variable (b : Builtins) (c : Catalog) (d : FuncDecl)

theorem workStatements_again (collected : Collected) :
    d.ReadsAs (d.workStatements b c collected).decl
      ∧ (d.workStatements b c collected).decl.workStatements b c collected = d.workStatements b c collected := by
  have hnumbered := Stmt.numberAll_numberAll collected.count 0 d.body
  have hread := Stmt.allRead_number collected.count 0 d.body
  cases hh : collected.halt with
  | some halt =>
    refine ⟨⟨Stmt.numberAll collected.count 0 d.body, ?_, hread⟩, ?_⟩ <;>
      simp [workStatements, worked, withBody, hh, hnumbered]
  | none =>
    have hstable := Stmt.allStable ⟨b, c.within collected.scope, d.name⟩ (Stmt.numberAll collected.count 0 d.body)
    have hkeeps := hstable.keeps 0 0
    have hagain := hstable.again 0 0
    have hbody := hkeeps.numbered _ _ hnumbered
    have hsame : Stmt.AllRead d.body ((Stmt.checkAll ⟨b, c.within collected.scope, d.name⟩ 0 0
        (Stmt.numberAll collected.count 0 d.body)).after id) := hread.trans hkeeps.toAllRead
    cases hc : Stmt.checkAll ⟨b, c.within collected.scope, d.name⟩ 0 0 (Stmt.numberAll collected.count 0 d.body) with
    | error left =>
      rw [hc] at hagain hbody hsame
      simp only [Checked.after] at hagain hbody hsame
      refine ⟨⟨left.2, ?_, hsame⟩, ?_⟩ <;> simp [workStatements, worked, withBody, hh, hc, hbody, hagain]
    | ok body =>
      rw [hc] at hagain hbody hsame
      simp only [Checked.after, id] at hagain hbody hsame
      refine ⟨⟨body, ?_, hsame⟩, ?_⟩ <;> simp [workStatements, worked, withBody, hh, hc, hbody, hagain]

/-- What has become of a body reads like it, and work on it comes to the same once more. -/
theorem work_again (s : Signature) :
    d.ReadsAs (d.work b c s).decl ∧ (d.work b c s).decl.work b c s = d.work b c s := by
  cases hheads : LocalScope.addAll { function := d.name } (d.headSymbols s) with
  | mk scope halt =>
    cases halt with
    | some halt =>
      have hwork : d.work b c s = ⟨d, scope, [], some halt⟩ := by rw [work, hheads]
      rw [hwork]
      exact ⟨.refl d, hwork⟩
    | none =>
      cases hbraces : d.braces.misplaced? with
      | some m =>
        have hwork : d.work b c s = ⟨d, scope, [], some (.misplaced m)⟩ := by simp only [work, hheads, hbraces]
        rw [hwork]
        exact ⟨.refl d, hwork⟩
      | none =>
        have hwork : ∀ body, (d.withBody body).work b c s
            = (d.withBody body).workStatements b c (Stmt.collect c scope 0 (Stmt.flattenAll body)) := by
          intro body
          have hsame : LocalScope.addAll { function := (d.withBody body).name } ((d.withBody body).headSymbols s)
              = (scope, none) := hheads
          have hthere : (d.withBody body).braces.misplaced? = none := hbraces
          simp only [work, hsame, hthere]
          rfl
        obtain ⟨⟨body, hdecl, hread⟩, hagain⟩ :=
          d.workStatements_again b c (Stmt.collect c scope 0 (Stmt.flattenAll d.body))
        have hfirst := hwork d.body
        rw [hdecl] at hagain
        refine ⟨⟨body, ?_, hread⟩, ?_⟩
        · rw [← hdecl]
          exact congrArg Worked.decl hfirst
        · have hd : (d.work b c s).decl = d.withBody body := by
            rw [← hdecl]
            exact congrArg Worked.decl hfirst
          rw [hd, hwork, Stmt.collect_eq hread.declares, hagain]
          exact hfirst.symm

end FuncDecl

/-! ## Constants -/

/-- An initializer reads like the value it was made from, and gives itself once more. -/
theorem ConstDecl.initializer_again {d : ConstDecl} {c : Catalog} {i : Initializer} (h : d.initializer c = .ok i) :
    d.value.ReadsAs i.value ∧ ConstDecl.initializer c { d with value := i.value } = .ok i := by
  obtain ⟨name, value, span⟩ := d
  unfold initializer at h
  cases value
  case ident source symbol info =>
    dsimp only at h
    split at h
    · cases h
    · rename_i s hs
      split at h
      · cases h
      · rename_i hk
        split at h
        · cases h
        · rename_i t ht
          obtain rfl := Except.ok.inj h
          exact ⟨⟨rfl, rfl, id⟩, by simp [initializer, hs, hk, ht]⟩
  case int | real | byte =>
    obtain rfl := Except.ok.inj h
    exact ⟨⟨rfl, rfl, id⟩, rfl⟩
  all_goals cases h

/-! ## Declarations -/

/-- A declaration reads like another one. -/
inductive Decl.ReadsAs : Decl → Decl → Prop
  | same (d : Decl) : ReadsAs d d
  | value {d : ConstDecl} {value : Expr} (h : d.value.ReadsAs value) : ReadsAs (.const d) (.const { d with value })
  | body {d d' : FuncDecl} (h : d.ReadsAs d') : ReadsAs (.func d) (.func d')

/-- A declaration reads like another one in what has become of its body, and is the same otherwise. -/
inductive Decl.BodyReadsAs : Decl → Decl → Prop
  | same (d : Decl) : BodyReadsAs d d
  | body {d d' : FuncDecl} (h : d.ReadsAs d') : BodyReadsAs (.func d) (.func d')

namespace Decl.BodyReadsAs

variable {d d' : Decl}

theorem readsAs (h : d.BodyReadsAs d') : d.ReadsAs d' := by
  cases h with
  | same => exact .same d
  | body h => exact .body h

theorem head_eq (h : d.BodyReadsAs d') : d'.head = d.head := by
  cases h with
  | same => rfl
  | body h =>
    obtain ⟨body, rfl, -⟩ := h
    rfl

end Decl.BodyReadsAs

namespace Step

/-! ## Steps -/

/-- A step does with what becomes of a declaration in the end what it does with the declaration. `after` says what may
still become of what the step leaves, and `before` what may become of what it is given. -/
def Anticipates (step : Step) (before after : Decl → Decl → Prop) : Prop :=
  ∀ p d p' d' problem last, step p d = .ok (p', d', problem) → after d' last →
    step p last = .ok (p', last, problem) ∧ before d last

/-- A step that changes no declaration and does not look into bodies does not see what becomes of them. -/
theorem IsBlind.anticipates {step : Step} (hblind : step.IsBlind) (hkeeps : step.KeepsDecl) :
    step.Anticipates Decl.BodyReadsAs Decl.BodyReadsAs := by
  intro p d p' d' problem last h hlast
  obtain rfl := hkeeps p d p' d' problem h
  obtain ⟨d₁, hstep, -⟩ := hblind.eq_ok hlast.head_eq h
  obtain rfl := hkeeps p last p' d₁ problem hstep
  exact ⟨hstep, hlast⟩

theorem anticipates_register : Anticipates register Decl.ReadsAs Decl.ReadsAs := by
  intro p d p' d' problem last h hlast
  obtain ⟨s, hs, rfl, hcases⟩ := register_eq_ok.mp h
  -- What is registered of a declaration are its name, its sort and its place.
  have hsame : symbol last = symbol d' ∧ p.declare s last = p.declare s d' := by
    cases hlast with
    | same | value _ => exact ⟨rfl, rfl⟩
    | body hbody =>
      obtain ⟨body, rfl, -⟩ := hbody
      exact ⟨rfl, rfl⟩
  refine ⟨register_eq_ok.mpr ⟨s, hsame.1.trans hs, rfl, ?_⟩, hlast⟩
  rwa [hsame.2]

theorem anticipates_constant : Anticipates constant Decl.ReadsAs Decl.BodyReadsAs := by
  intro p d p' d' problem last h hlast
  cases d with
  | const d =>
    rw [constant] at h
    cases hi : d.initializer p.catalog with
    | error halt =>
      rw [hi] at h
      obtain ⟨rfl, rfl, hreport⟩ := halted_eq_ok.mp h
      cases hlast
      refine ⟨?_, .same _⟩
      rw [constant, hi]
      exact halted_eq_ok.mpr ⟨rfl, rfl, hreport⟩
    | ok i =>
      rw [hi] at h
      obtain ⟨rfl, rfl, rfl⟩ := done_eq_ok h
      cases hlast
      obtain ⟨hvalue, hagain⟩ := d.initializer_again hi
      refine ⟨?_, .value hvalue⟩
      rw [constant, hagain]
  | var _ | struct _ | foreign _ =>
    obtain ⟨rfl, rfl, rfl⟩ := done_eq_ok h
    cases hlast
    exact ⟨rfl, .same _⟩
  | func _ =>
    obtain ⟨rfl, rfl, rfl⟩ := done_eq_ok h
    refine ⟨?_, hlast.readsAs⟩
    cases hlast <;> rfl

theorem anticipates_body (b : Builtins) : Anticipates (body b) Decl.BodyReadsAs Eq := by
  rintro p d p' d' problem _ h rfl
  cases d with
  | func d =>
    obtain ⟨hs, rfl, rfl, rfl⟩ | ⟨s, last, e, hs, hbody, rfl, rfl, rfl⟩ := body_eq_ok.mp h
    · exact ⟨h, .same _⟩
    · rw [FuncDecl.resolveBody_eq] at hbody
      obtain ⟨hreads, hagain⟩ := d.work_again b p.catalog s
      rw [← (Worked.report_eq_ok hbody).1] at hreads hagain
      refine ⟨body_eq_ok.mpr (.inr ⟨s, last, e, ?_⟩), .body hreads⟩
      rw [FuncDecl.resolveBody_eq, hagain]
      obtain ⟨body, rfl, -⟩ := hreads
      exact ⟨hs, hbody, rfl, rfl, rfl⟩
  | const _ | var _ | struct _ | foreign _ =>
    obtain ⟨rfl, rfl, rfl⟩ := done_eq_ok h
    exact ⟨rfl, .same _⟩

end Step

/-! ## Phases -/

/-- Entries with other declarations. -/
def Entry.withDecls (es : List Entry) (ds : List Decl) : List Entry :=
  List.zipWith (fun e d => { e with decl := d }) es ds

theorem Entry.withDecls_self (es : List Entry) : withDecls es (es.map Entry.decl) = es := by
  induction es with
  | nil => rfl
  | cons e es ih => exact congrArg (e :: ·) ih

theorem Entry.withDecls_fresh {ds last : List Decl} (h : ds.length = last.length) :
    withDecls (ds.map fun decl => { decl }) last = last.map fun decl => { decl } := by
  induction ds generalizing last with
  | nil => rw [List.length_eq_zero_iff.mp h.symm]; rfl
  | cons d ds ih =>
    cases last with
    | nil => cases h
    | cons d' last => exact congrArg (({ decl := d' } : Entry) :: ·) (ih (Nat.succ.inj h))

/-- A phase does with what becomes of declarations in the end what it does with the declarations. -/
theorem Phase.run_again (phase : Phase) {step : Step} {before after : Decl → Decl → Prop}
    (hstep : step.Anticipates before after) (hskip : ∀ d d', after d d' → before d d') {p p' : Progress}
    {es es' : List Entry} (hrun : phase.run step p es = .ok (p', es')) {last : List Decl}
    (hlast : List.Forall₂ after (es'.map Entry.decl) last) :
    phase.run step p (Entry.withDecls es last) = .ok (p', Entry.withDecls es' last)
      ∧ List.Forall₂ before (es.map Entry.decl) last := by
  induction es generalizing p es' last with
  | nil =>
    obtain ⟨rfl, rfl⟩ := Prod.mk.inj (Except.ok.inj hrun)
    cases hlast
    exact ⟨rfl, .nil⟩
  | cons e es ih =>
    obtain ⟨d, failure⟩ := e
    cases failure with
    | some failure =>
      obtain ⟨rest, hrest, rfl⟩ := (run_failed_eq_ok phase rfl).mp hrun
      cases hlast with
      | @cons _ last _ lasts hlast hlasts =>
        obtain ⟨hagain, hbefore⟩ := ih hrest hlasts
        exact ⟨(run_failed_eq_ok phase rfl).mpr ⟨_, hagain, rfl⟩, .cons (hskip d last hlast) hbefore⟩
    | none =>
      obtain ⟨q, d', problem, rest, hone, hrest, rfl⟩ := (run_cons_eq_ok phase).mp hrun
      cases hlast with
      | @cons _ last _ lasts hlast hlasts =>
        obtain ⟨hagain, hbefore⟩ := ih hrest hlasts
        obtain ⟨hone, hd⟩ := hstep p d q d' problem last hone hlast
        exact ⟨(run_cons_eq_ok phase).mpr ⟨q, last, problem, _, hone, hagain, rfl⟩, .cons hd hbefore⟩

/-- What has become of a unit reads like the unit, and is resolved to the same once more. -/
theorem Program.resolve_again {b : Builtins} {p : Program} {r : Resolution} (h : p.resolve b = .ok r) :
    r.program.resolve b = .ok r ∧ List.Forall₂ Decl.ReadsAs p.decls r.program.decls := by
  obtain ⟨p₁, p₂, p₃, p₄, p₅, p₆, es₁, es₂, es₃, es₄, es₅, es₆, hruns, rfl⟩ := exists_runs h
  have hread : ∀ d d' : Decl, d.BodyReadsAs d' → d.ReadsAs d' := fun _ _ hd => hd.readsAs
  have hdone : ∀ d d' : Decl, d = d' → d.BodyReadsAs d' := fun d _ hd => hd ▸ .same d
  have hsame : List.Forall₂ Eq (es₆.map Entry.decl) (es₆.map Entry.decl) := List.forall₂_refl _
  obtain ⟨h₆, hlast⟩ := Phase.run_again .bodies (Step.anticipates_body b) hdone hruns.bodies hsame
  obtain ⟨h₅, hlast⟩ := Phase.run_again .headers (Step.isBlind_header.anticipates Step.keepsDecl_header)
    (fun _ _ => id) hruns.headers hlast
  obtain ⟨h₄, hlast⟩ := Phase.run_again .containment (Step.isBlind_containment.anticipates Step.keepsDecl_containment)
    (fun _ _ => id) hruns.containment hlast
  obtain ⟨h₃, hlast⟩ := Phase.run_again .fields (Step.isBlind_fields.anticipates Step.keepsDecl_fields)
    (fun _ _ => id) hruns.fields hlast
  obtain ⟨h₂, hlast⟩ := Phase.run_again .constants Step.anticipates_constant hread hruns.constants hlast
  obtain ⟨h₁, hlast⟩ := Phase.run_again .registration Step.anticipates_register (fun _ _ => id) hruns.registration hlast
  have hdecls : (p.decls.map fun decl => ({ decl } : Entry)).map Entry.decl = p.decls := by
    rw [List.map_map]
    exact List.map_id _
  rw [hdecls] at hlast
  rw [Entry.withDecls_fresh hlast.length_eq] at h₁
  rw [Entry.withDecls_self] at h₆
  exact ⟨Runs.resolve ⟨h₁, h₂, h₃, h₄, h₅, h₆⟩, hlast⟩

/-- A unit that is parsed is resolved, and so is its tree with the notes, wherever the work on it ended: to the same
problems, catalog and functions, and to the same tree. -/
theorem Program.resolve_twice {source : String} {file : Option String} {p : Program} (h : ofSource source file = .ok p)
    (b : Builtins) : ∃ r, p.resolve b = .ok r ∧ r.program.resolve b = .ok r := by
  obtain ⟨r, -, hr, -⟩ := exists_resolve (isWellFormed_of_ofSource h) b
  exact ⟨r, hr, (resolve_again hr).1⟩

/-- The work on a function ends between two arguments of a call, the first of which has become a field. -/
theorem Program.resolve_twice_between_arguments :
    ∃ p r, ofSource "struct s [var x int] fun f int(var n int, var a s) \x7b result := f(a[x], b) n := a[x] \x7d" = .ok p
      ∧ p.resolve = .ok r ∧ r.problems.map (fun q => q.cause.kind) = [.undefined] ∧ r.program.resolve = .ok r := by
  have hkinds : problemKindsOf "struct s [var x int] fun f int(var n int, var a s) \x7b result := f(a[x], b) n := a[x] \x7d"
      = some [.undefined] := Program.bind_ofSource (by decide +kernel)
  obtain ⟨p, r, hp, hr, hkinds⟩ := exists_of_problemKindsOf hkinds
  obtain ⟨r₁, hr₁, hagain⟩ := resolve_twice hp Builtins.standard
  obtain rfl := Except.ok.inj (hr.symm.trans hr₁)
  exact ⟨p, r, hp, hr, hkinds, hagain⟩

end FlatScope
