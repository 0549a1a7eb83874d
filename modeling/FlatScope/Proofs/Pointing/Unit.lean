/-
  Diagnostics of sources. A name that is registered twice has its first declaration in front (`Phase.isPlaced_run_register`), and
  whatever problem a later phase has with a declaration is at a place of it (`Step.isPlaced_constant` and what follows). So
  everything that is reported of a source points into it (`Program.points_into_source`).
-/
import FlatScope.Proofs.Accounting.Records
import FlatScope.Proofs.Pointing.Source
import FlatScope.Proofs.Rewriting.Unit
import FlatScope.Proofs.Totality.Unit

namespace FlatScope

/-! ## Problems -/

/-- A problem is at the start of a token. Notes are for a name declared twice only: they name the previous declaration,
which starts at a token ahead of the problem. A later declaration that a message names starts at a token behind the
problem. -/
structure Problem.PointsInto (ts : List Token) (q : Problem) : Prop where
  start : ∃ t ∈ ts, q.diagnostic.span.start = t.start.point
  notes : (∀ d, q.cause ≠ .duplicate d) → q.diagnostic.notes = []
  previous : ∀ d, q.cause = .duplicate d → d.previous.span.StartsAhead ts q.diagnostic.span
    ∧ q.diagnostic.notes
      = ["previous declaration of " ++ d.previous.kind.text ++ " '" ++ d.previous.name ++ "' at " ++ d.previous.span.place]
  later : ∀ name declaration, q.cause = .usedBeforeDeclaration name declaration →
    q.diagnostic.span.StartsAhead ts declaration
      ∧ q.diagnostic.message = "'" ++ name ++ "' is used before its declaration at " ++ declaration.place

/-- The tokens of a source spell their kinds, and are in order. -/
structure AreSourced (ts : List Token) : Prop where
  spelled : ∀ t ∈ ts, t.IsSpelled
  ordered : ts.Pairwise fun t t' => t.start.IsAhead t'.start

variable {ts : List Token} {ns : List Node} {q : Problem} {d d' : Decl} {p p' : Progress} {problem : Option Problem}

theorem Problem.IsPlaced.pointsInto (h : q.IsPlaced ns) (hread : Node.AreReadOff ts ns) (hts : AreSourced ts) : q.PointsInto ts where
  start := hread.exists_start hts.spelled h.place
  notes hnone := by
    show q.cause.notes = []
    unfold Cause.notes
    split
    · rename_i d hd
      exact absurd hd (hnone d)
    · rfl
  previous d hd := by
    have hahead := (h.previous d hd).startsAhead hread hts.spelled hts.ordered
    refine ⟨hahead, ?_⟩
    obtain ⟨t, -, t', -, hstart, -⟩ := hahead
    show q.cause.notes = _
    rw [hd]
    exact if_pos (by rw [hstart]; rfl)
  later name declaration hd := by
    refine ⟨(h.later name declaration hd).startsAhead hread hts.spelled hts.ordered, ?_⟩
    show q.cause.message = _
    rw [hd]
    rfl

/-! ## Registration -/

/-- A problem of the registration is at a declaration, and the one that has its name stands in front. -/
theorem Phase.isPlaced_run_register {phase : Phase} {ds : List Decl} {es : List Entry}
    (hp : ∀ s ∈ p.catalog.globals, ∃ n ∈ ns, n.Spans s.span)
    (h : phase.run Step.register p (ds.map fun decl => { decl }) = .ok (p', es)) :
    ∀ e ∈ es, ∀ f, e.failure = some f → f.2.IsPlaced (ns ++ ds.map Decl.node) := by
  induction ds generalizing p es ns with
  | nil =>
    obtain ⟨-, rfl⟩ := Prod.mk.inj (Except.ok.inj h)
    exact List.forall_mem_nil _
  | cons d ds ih =>
    obtain ⟨p₁, d', problem, rest, hone, hrest, rfl⟩ := (run_cons_eq_ok phase).mp h
    obtain ⟨s, hs, rfl, hcase⟩ := Step.register_eq_ok.mp hone
    have hspan : d'.node.Spans s.span := by
      cases d' with
      | foreign _ => cases hs
      | const _ | var _ | struct _ | func _ =>
        obtain rfl := Except.ok.inj hs
        exact .own rfl
    have hmem : ∃ n ∈ ns ++ [d'.node], n.Spans s.span := ⟨_, List.mem_append_right _ List.mem_cons_self, hspan⟩
    have hbefore : ∀ s ∈ p.catalog.globals, ∃ n ∈ ns ++ [d'.node], n.Spans s.span := fun s hs =>
      (hp s hs).imp fun _ hn => hn.imp_left (List.mem_append_left _)
    have hnodes : ns ++ [d'.node] ++ ds.map Decl.node = ns ++ (d' :: ds).map Decl.node := List.append_assoc ..
    rw [← hnodes]
    obtain ⟨previous, hprevious, rfl, rfl⟩ | ⟨-, rfl, rfl⟩ := hcase
    · refine List.forall_mem_cons.mpr ⟨fun f hf => ?_, ih hbefore hrest⟩
      obtain rfl := Option.some.inj hf
      exact (Problem.IsPlaced.of_duplicate rfl (hp previous (List.mem_of_find?_eq_some hprevious)) (List.mem_singleton.mpr rfl)
        hspan).append _
    · refine List.forall_mem_cons.mpr ⟨fun f hf => (nomatch hf), ih (List.forall_mem_append.mpr ⟨hbefore, ?_⟩) hrest⟩
      exact List.forall_mem_singleton.mpr hmem

/-! ## Other phases -/

/-- A halt that is reported as a problem points where the problem is. -/
theorem Halt.Points.of_report {P : Problem.Cause → Prop} {n : Node} {halt : Halt} (h : halt.Points P n) (hq : halt.report = .ok q) :
    n.Spans q.span ∧ P q.cause := by
  cases halt with
  | problem q' =>
    obtain rfl := Except.ok.inj hq
    exact h
  | misplaced _ => cases hq

theorem ConstDecl.points_of_initializer {c : Catalog} {d : ConstDecl} {halt : Halt} (h : d.initializer c = .error halt) :
    halt.Points Problem.Cause.IsAlone (.const d) := by
  obtain ⟨name, value, span⟩ := d
  unfold initializer at h
  cases value with
  | ident x symbol info =>
    have hspan : (Node.const ⟨name, .ident x symbol info, span⟩).Spans info.span := .inner List.mem_cons_self (.own rfl)
    dsimp only at h
    split at h
    · obtain rfl := Except.error.inj h
      exact ⟨hspan, rfl⟩
    · split at h
      · obtain rfl := Except.error.inj h
        exact ⟨hspan, rfl⟩
      · split at h
        · obtain rfl := Except.error.inj h
          exact ⟨hspan, rfl⟩
        · cases h
  | int _ _ | real _ _ | byte _ _ => cases h
  | index _ _ _ | field _ _ _ | call _ _ _ | composite _ _ | addrOf _ _ | typeArg _ _ | foreign _ =>
    obtain rfl := Except.error.inj h
    trivial

variable {c : Catalog} {halt : Halt}

theorem Member.span?_of_isReadOff {us : List Token} {m : Member} (h : m.node.IsReadOff us) : m.node.span? = some m.span := by
  cases m with
  | var _ | param _ => rfl
  | foreign _ _ => exact h.elim

theorem Member.points_of_resolve {m : Member} (hm : m.node.span? = some m.span) (h : m.resolve c = .error halt) :
    halt.Points Problem.Cause.IsAlone m.node := by
  obtain h | ⟨w, hw, h⟩ := Except.bind_eq_error.mp h
  · obtain ⟨misplaced, -, rfl⟩ := Except.mapError_eq_error.mp h
    trivial
  · have hpoints := w.points_of_resolve h
    have hw := Except.mapError_eq_ok.mp hw
    cases m with
    | var d | param d =>
      obtain rfl := Except.ok.inj hw
      exact hpoints.inner List.mem_cons_self
    | foreign _ _ => cases hm

theorem StructDecl.points_of_resolveFields {struct : String} {known known' : List (String × Ty)} {ms : List Member}
    (hms : ∀ m ∈ ms, m.node.span? = some m.span) (h : resolveFields c struct known ms = (known', some halt)) :
    ∃ m ∈ ms, halt.Points Problem.Cause.IsAlone m.node := by
  induction ms generalizing known with
  | nil => cases (Prod.mk.inj h).2
  | cons m ms ih =>
    obtain ⟨hm, hms⟩ := List.forall_mem_cons.mp hms
    rw [resolveFields] at h
    split at h
    · rename_i hfield
      obtain rfl := Option.some.inj (Prod.mk.inj h).2
      refine ⟨m, List.mem_cons_self, ?_⟩
      obtain h | ⟨name, -, h⟩ := Except.bind_eq_error.mp hfield
      · obtain ⟨misplaced, -, rfl⟩ := Except.mapError_eq_error.mp h
        trivial
      · split at h
        · obtain rfl := Except.error.inj h
          exact ⟨.own hm, rfl⟩
        · obtain h | ⟨t, -, h⟩ := Except.bind_eq_error.mp h
          · exact Member.points_of_resolve hm h
          · cases h
    · exact (ih hms h).imp fun _ hm' => hm'.imp_left (List.mem_cons_of_mem m)

theorem FuncDecl.points_of_signature {d : FuncDecl} (hparams : ∀ m ∈ d.params, m.node.span? = some m.span)
    (h : d.signature c = .error halt) : ∃ n ∈ d.places, halt.Points Problem.Cause.IsAlone n := by
  obtain h | ⟨ts, -, h⟩ := Except.bind_eq_error.mp h
  · obtain ⟨m, hm, h⟩ := Except.exists_error_of_mapM _ h
    have hmem : m.node ∈ d.params.map Member.node ++ (Stmt.flattenAll d.body).flatMap Stmt.heads :=
      List.mem_append_left _ (List.mem_map_of_mem hm)
    exact ⟨m.node, List.mem_cons_of_mem _ hmem, Member.points_of_resolve (hparams m hm) h⟩
  · obtain h | ⟨t, -, h⟩ := Except.bind_eq_error.mp h
    · exact ⟨_, List.mem_cons_self, d.result.points_of_resolve h⟩
    · cases h

namespace Step

variable {us : List Token}

/-- A step that halts has the problem where the halt points. -/
theorem isPlaced_of_halted {n : Node} (hn : n ∈ ns) (h : halt.Points Problem.Cause.IsAlone n)
    (hstep : halted p d halt = .ok (p', d', some q)) : q.IsPlaced ns := by
  obtain ⟨-, -, q', hreport, hq⟩ := halted_eq_ok.mp hstep
  obtain rfl := Option.some.inj hq
  obtain ⟨hspan, halone⟩ := h.of_report hreport
  exact .of_isAlone hn hspan halone

theorem isPlaced_constant (h : constant p d = .ok (p', d', some q)) : q.IsPlaced d.places := by
  cases d with
  | const d =>
    rw [constant] at h
    split at h
    · rename_i hinitializer
      exact isPlaced_of_halted (List.mem_singleton.mpr rfl) (ConstDecl.points_of_initializer hinitializer) h
    · cases (done_eq_ok h).2.2
  | var _ | struct _ | func _ | foreign _ => cases ((ignores_constant rfl).cases h).2.2

theorem isPlaced_fields (hread : d.node.IsReadOff us) (h : fields p d = .ok (p', d', some q)) : q.IsPlaced d.places := by
  cases d with
  | struct d =>
    have hfields : ∀ m ∈ d.fields, m.node.span? = some m.span := by
      intro m hm
      obtain ⟨_, _, _, -, hreadm⟩ := hread.children.exists_of_mem (List.mem_map_of_mem hm)
      exact Member.span?_of_isReadOff hreadm
    rw [fields] at h
    cases hresolve : StructDecl.resolveFields p.catalog d.name [] d.fields with
    | mk known halt =>
      rw [hresolve] at h
      cases halt with
      | none => cases (done_eq_ok h).2.2
      | some halt =>
        obtain ⟨m, hm, hpoints⟩ := StructDecl.points_of_resolveFields hfields hresolve
        have hinner : halt.Points Problem.Cause.IsAlone (.struct d) := hpoints.inner (List.mem_map_of_mem hm)
        exact isPlaced_of_halted (List.mem_singleton.mpr rfl) hinner h
  | const _ | var _ | func _ | foreign _ => cases (done_eq_ok h).2.2

theorem isPlaced_containment (h : containment p d = .ok (p', d', some q)) : q.IsPlaced d.places := by
  cases d with
  | struct d =>
    rw [containment] at h
    split at h
    · cases (done_eq_ok h).2.2
    · obtain rfl := Option.some.inj (done_eq_ok h).2.2
      exact .of_isAlone (List.mem_singleton.mpr rfl) (.own rfl) rfl
  | const _ | var _ | func _ | foreign _ => cases (done_eq_ok h).2.2

theorem span?_of_mem_params {d : FuncDecl} (hread : (Node.func d).IsReadOff us) : ∀ m ∈ d.params, m.node.span? = some m.span := by
  intro m hm
  have hmem : m.node ∈ (Node.func d).children := List.mem_cons_of_mem _ (List.mem_append_left _ (List.mem_map_of_mem hm))
  obtain ⟨_, _, _, -, hreadm⟩ := hread.children.exists_of_mem hmem
  exact Member.span?_of_isReadOff hreadm

theorem isPlaced_header (hread : d.node.IsReadOff us) (h : header p d = .ok (p', d', some q)) : q.IsPlaced d.places := by
  cases d with
  | var d =>
    rw [header] at h
    split at h
    · rename_i hresolve
      have hinner : Halt.Points Problem.Cause.IsAlone (.stmt (.var d)) _ := (d.type.points_of_resolve hresolve).inner List.mem_cons_self
      exact isPlaced_of_halted (List.mem_singleton.mpr rfl) hinner h
    · cases (done_eq_ok h).2.2
  | func d =>
    rw [header] at h
    split at h
    · rename_i hsignature
      obtain ⟨n, hn, hpoints⟩ := FuncDecl.points_of_signature (span?_of_mem_params hread) hsignature
      exact isPlaced_of_halted hn hpoints h
    · cases (done_eq_ok h).2.2
  | const _ | struct _ | foreign _ => cases (done_eq_ok h).2.2

theorem isPlaced_body {b : Builtins} (hread : d.node.IsReadOff us) (h : body b p d = .ok (p', d', some q)) : q.IsPlaced d.places := by
  cases d with
  | func d =>
    obtain ⟨-, -, -, hnone⟩ | ⟨s, d', e, -, he, -, -, hq⟩ := body_eq_ok.mp h
    · cases hnone
    · rw [FuncDecl.resolveBody_eq] at he
      obtain ⟨-, -, -, hproblem, -⟩ := Worked.report_eq_ok he
      obtain ⟨halt, hhalt, hreport⟩ := hproblem q hq.symm
      cases halt with
      | problem q' =>
        obtain rfl := Except.ok.inj hreport
        exact FuncDecl.isPlaced_work (span?_of_mem_params hread) hhalt
      | misplaced _ => cases hreport
  | const _ | var _ | struct _ | foreign _ => cases (done_eq_ok h).2.2

end Step

/-! ## Runs -/

/-- A declaration is read off a stretch of some tokens. -/
def Decl.IsReadIn (ts : List Token) (d : Decl) : Prop := ∃ front us back, ts = front ++ (us ++ back) ∧ d.node.IsReadOff us

theorem Decl.IsReadIn.pointsInto (h : d.IsReadIn ts) (hts : AreSourced ts)
    (hplaced : ∀ us, d.node.IsReadOff us → q.IsPlaced d.places) : q.PointsInto ts := by
  obtain ⟨front, us, back, rfl, hread⟩ := h
  exact (hplaced us hread).pointsInto ((d.areReadOff_places hread).within front back) hts

/-- An entry without a problem has a declaration of some form, and the problem of one that failed points into some
tokens. -/
structure Entry.PointsInto (ts : List Token) (P : Decl → Prop) (e : Entry) : Prop where
  decl : e.failure = none → P e.decl
  problem : ∀ f, e.failure = some f → f.2.PointsInto ts

/-- A phase whose problems point into tokens, and which keeps a form of declarations, or puts it into another one. -/
theorem Phase.pointsInto_run {phase : Phase} {step : Step} {P P' : Decl → Prop} {es es' : List Entry}
    (hstep : ∀ p d p' d' problem, P d → step p d = .ok (p', d', problem) → (∀ q, problem = some q → q.PointsInto ts) ∧ P' d')
    (h : phase.run step p es = .ok (p', es')) (hes : ∀ e ∈ es, e.PointsInto ts P) : ∀ e ∈ es', e.PointsInto ts P' := by
  have htakes := run_entries h
  clear h
  induction htakes with
  | nil => exact List.forall_mem_nil _
  | @cons e e' es es' htake _ ih =>
    obtain ⟨he, hes⟩ := List.forall_mem_cons.mp hes
    refine List.forall_mem_cons.mpr ⟨?_, ih hes⟩
    obtain ⟨hfailed, rfl⟩ | ⟨hnone, p, p', problem, hone, hfailure⟩ := htake
    · refine ⟨fun hnone => ?_, he.problem⟩
      rw [hnone] at hfailed
      cases hfailed
    · obtain ⟨hproblem, hdecl⟩ := hstep p _ p' _ problem (he.decl hnone) hone
      refine ⟨fun _ => hdecl, fun f hf => ?_⟩
      rw [hfailure] at hf
      obtain ⟨q, hq, rfl⟩ := Option.map_eq_some_iff.mp hf
      exact hproblem q hq

/-- What a step has against a declaration that is read off tokens points into them. A constant may have changed, if the step does
nothing about constants. -/
theorem Step.pointsInto_of_isPlaced {step : Step} (hts : AreSourced ts) (hconst : ∀ c, step.Ignores (.const c))
    (hplaced : ∀ us, d.node.IsReadOff us → step p d = .ok (p', d', some q) → q.IsPlaced d.places)
    (hd : d.isConst = false → d.IsReadIn ts) (h : step p d = .ok (p', d', some q)) : q.PointsInto ts := by
  cases d with
  | const c => cases ((hconst c).cases h).2.2
  | var _ | struct _ | func _ | foreign _ => exact (hd rfl).pointsInto hts fun us hread => hplaced us hread h

namespace Program

variable {b : Builtins} {p : Program} {p₁ p₂ p₃ p₄ p₅ p₆ : Progress} {es₁ es₂ es₃ es₄ es₅ es₆ : List Entry} {r : Resolution}

/-- The problems of a unit that is read off tokens point into them. -/
theorem Runs.pointsInto (h : p.Runs b p₁ p₂ p₃ p₄ p₅ p₆ es₁ es₂ es₃ es₄ es₅ es₆) (hts : AreSourced ts)
    (hread : Node.AreReadOff ts (p.decls.map Decl.node)) : ∀ e ∈ es₆, ∀ f, e.failure = some f → f.2.PointsInto ts := by
  have h₁ : ∀ e ∈ es₁, e.PointsInto ts (Decl.IsReadIn ts) := by
    intro e he
    have hmem : e.decl ∈ es₁.map Entry.decl := List.mem_map_of_mem he
    rw [Phase.run_decls Step.keepsDecl_register h.registration, List.map_map, Function.comp_def, List.map_id'] at hmem
    refine ⟨fun _ => hread.exists_of_mem (List.mem_map_of_mem hmem), fun f hf => ?_⟩
    have hempty : ∀ s ∈ ({} : Progress).catalog.globals, ∃ n ∈ ([] : List Node), n.Spans s.span := List.forall_mem_nil _
    have hplaced := Phase.isPlaced_run_register hempty h.registration e he f hf
    exact hplaced.pointsInto hread hts
  have h₂ : ∀ e ∈ es₂, e.PointsInto ts fun d => d.isConst = false → d.IsReadIn ts := by
    refine Phase.pointsInto_run (fun p d p' d' problem hd hstep => ⟨fun q hq => ?_, fun hconst => ?_⟩) h.constants h₁
    · obtain rfl := hq
      exact hd.pointsInto hts fun us _ => Step.isPlaced_constant hstep
    · cases d with
      | const c =>
        obtain ⟨i, -, -, rfl, -⟩ | ⟨-, rfl, -⟩ := Step.constant_cases hstep <;> cases hconst
      | var _ | struct _ | func _ | foreign _ => exact (Step.done_eq_ok hstep).2.1 ▸ hd
  -- no later phase looks at what a constant has become
  have hlater {phase : Phase} {step : Step} {p p' : Progress} {es es' : List Entry} (hkeeps : step.KeepsDecl)
      (hconst : ∀ c, step.Ignores (.const c))
      (hplaced : ∀ {p d p' d' q us}, d.node.IsReadOff us → step p d = .ok (p', d', some q) → q.IsPlaced d.places)
      (hrun : phase.run step p es = .ok (p', es')) (hes : ∀ e ∈ es, e.PointsInto ts fun d => d.isConst = false → d.IsReadIn ts) :
      ∀ e ∈ es', e.PointsInto ts fun d => d.isConst = false → d.IsReadIn ts := by
    refine Phase.pointsInto_run (fun p d p' d' problem hd hstep => ⟨fun q hq => ?_, ?_⟩) hrun hes
    · obtain rfl := hq
      exact Step.pointsInto_of_isPlaced hts hconst (fun _ => hplaced) hd hstep
    · rwa [hkeeps p d p' d' problem hstep]
  have h₃ := hlater Step.keepsDecl_fields (fun _ _ => rfl) Step.isPlaced_fields h.fields h₂
  have h₄ := hlater Step.keepsDecl_containment (fun _ _ => rfl) (fun _ => Step.isPlaced_containment) h.containment h₃
  have h₅ := hlater Step.keepsDecl_header (fun _ _ => rfl) Step.isPlaced_header h.headers h₄
  have h₆ : ∀ e ∈ es₆, e.PointsInto ts fun _ => True := by
    refine Phase.pointsInto_run (fun p d p' d' problem hd hstep => ⟨fun q hq => ?_, trivial⟩) h.bodies h₅
    obtain rfl := hq
    exact Step.pointsInto_of_isPlaced hts (fun _ _ => rfl) (fun _ => Step.isPlaced_body) hd hstep
  exact fun e he => (h₆ e he).problem

/-- Every diagnostic points into the source. A lexical fault is at a character with which no lexeme begins, or at a literal whose
value is out of range; a syntactic fault is at the start of a token, or if it is about the end of the input, at the last
one; and a unit that is parsed is resolved, and every problem of it is at the start of a token. The place that is named in the
note on a previous declaration is ahead of the problem, and the place that is named where something is used before its
declaration is behind it; these are starts of tokens, too. -/
theorem points_into_source (source : String) (file : Option String) (b : Builtins) :
    match ofSource source file with
    | .error (.lexical e) => e.PointsInto {} source.toList
    | .error (.syntactic e) => e.PointsInto (scan source file).tokens
    | .ok p => ∃ r, p.resolve b = .ok r ∧ ∀ q ∈ r.problems, q.PointsInto (scan source file).tokens := by
  cases hsource : ofSource source file with
  | error e =>
    rw [ofSource, Scan.toExcept] at hsource
    cases herror : (scan source file).error with
    | some e' =>
      rw [herror] at hsource
      obtain rfl := Except.error.inj hsource
      exact Scan.pointsInto_scanFrom file {} none source.toList herror
    | none =>
      have hscan : (scan source file).toExcept = .ok (scan source file).tokens := by rw [Scan.toExcept, herror]
      rw [herror] at hsource
      obtain ⟨e', rfl, hpoints⟩ := pointsInto_ofTokens (fun t ht => (Scan.isScanned_of_mem_scan hscan t ht).spelled) hsource
      exact hpoints
  | ok p =>
    obtain ⟨r, -, hr, -⟩ := exists_resolve (isWellFormed_of_ofSource hsource) b
    obtain ⟨hnone, d, htokens, hspelled, hproper, rfl⟩ := exists_proper_of_ofSource hsource
    have hts : AreSourced (scan source file).tokens := ⟨htokens ▸ hspelled, Scan.pairwise_isAhead hnone⟩
    have hread : Node.AreReadOff (scan source file).tokens (d.value.map Decl.node) := htokens ▸ d.areReadOff hproper
    obtain ⟨p₁, p₂, p₃, p₄, p₅, p₆, es₁, es₂, es₃, es₄, es₅, es₆, hruns, rfl⟩ := exists_runs hr
    refine ⟨_, hr, fun q hq => ?_⟩
    obtain ⟨phase, -, hq⟩ := List.mem_flatMap.mp hq
    obtain ⟨e, he, hq⟩ := List.mem_filterMap.mp hq
    obtain ⟨f, hf, rfl⟩ := Option.map_eq_some_iff.mp hq
    exact hruns.pointsInto hts hread e he f (Option.filter_eq_some_iff.mp hf).1

end Program

end FlatScope
