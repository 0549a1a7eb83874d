/-
  What resolving makes of a unit. Only the values of constants and the bodies of functions change at all, each in its own
  phase and also where the phase ends at a problem (`Program.becomes_resolve`). So the tree with its notes has the source
  that the parsed tree has, and differs from it in notes, in indexes that became fields, and in operands of allocations that
  became types (`Program.resolve_rewrites`).
-/
import FlatScope.Proofs.Reprinting
import FlatScope.Proofs.Resolution.Entries
import FlatScope.Proofs.Rewriting.Stmt

namespace FlatScope

/-! ## Declarations -/

/-- What may become of a declaration. -/
inductive Decl.Becomes : Decl → Decl → Prop
  | same {d : Decl} : Becomes d d
  | const {d : ConstDecl} {value : Expr} (h : d.value.Becomes value) : Becomes (.const d) (.const { d with value })
  | func {d d' : FuncDecl} (h : d.Becomes d') : Becomes (.func d) (.func d')

/-- What may become of a unit: its declarations stay in order, and the unit in its file. -/
structure Program.Becomes (p q : Program) : Prop where
  file : q.file = p.file
  decls : List.Forall₂ Decl.Becomes p.decls q.decls

/-- An initializer is what may become of the value that it was made from. -/
theorem ConstDecl.initializer_becomes {d : ConstDecl} {c : Catalog} {i : Initializer} (h : d.initializer c = .ok i) :
    d.value.Becomes i.value := by
  obtain ⟨name, value, span⟩ := d
  unfold initializer at h
  cases value
  case ident source symbol info =>
    dsimp only at h
    split at h
    · cases h
    · split at h
      · cases h
      · split at h
        · cases h
        · obtain rfl := Except.ok.inj h
          exact .ident rfl
  case int =>
    obtain rfl := Except.ok.inj h
    exact .int rfl
  case real =>
    obtain rfl := Except.ok.inj h
    exact .real rfl
  case byte =>
    obtain rfl := Except.ok.inj h
    exact .byte rfl
  all_goals cases h

namespace Step

/-- A step makes of a declaration what `R` says. -/
def Makes (R : Decl → Decl → Prop) (step : Step) : Prop :=
  ∀ p d p' d' problem, step p d = .ok (p', d', problem) → R d d'

/-- Constants are the only declarations that the phase of constants changes. -/
theorem makes_constant : Makes (fun d d' => d' = d ∨ ∃ (k : ConstDecl) (value : Expr), d = .const k
    ∧ d' = .const { k with value } ∧ k.value.Becomes value) constant := by
  intro p d p' d' problem h
  cases d with
  | const d =>
    rw [constant] at h
    cases hi : d.initializer p.catalog with
    | error halt =>
      rw [hi] at h
      obtain ⟨-, rfl, -⟩ := halted_eq_ok.mp h
      exact .inl rfl
    | ok i =>
      rw [hi] at h
      obtain ⟨-, rfl, -⟩ := done_eq_ok h
      exact .inr ⟨d, i.value, rfl, rfl, d.initializer_becomes hi⟩
  | var _ | struct _ | func _ | foreign _ =>
    obtain ⟨-, rfl, -⟩ := done_eq_ok h
    exact .inl rfl

/-- Functions are the only declarations that the phase of bodies changes. -/
theorem makes_body (b : Builtins) :
    Makes (fun d d' => d' = d ∨ ∃ f f' : FuncDecl, d = .func f ∧ d' = .func f' ∧ f.Becomes f') (body b) := by
  intro p d p' d' problem h
  cases d with
  | func f =>
    obtain ⟨-, -, rfl, -⟩ | ⟨s, f', e, -, hbody, -, rfl, -⟩ := body_eq_ok.mp h
    · exact .inl rfl
    · rw [FuncDecl.resolveBody_eq] at hbody
      refine .inr ⟨f, f', rfl, rfl, ?_⟩
      rw [(Worked.report_eq_ok hbody).1]
      exact f.becomes_work b p.catalog s
  | const _ | var _ | struct _ | foreign _ =>
    obtain ⟨-, rfl, -⟩ := done_eq_ok h
    exact .inl rfl

end Step

/-! ## Phases -/

/-- What a step makes of declarations, a phase makes of those that have not failed. -/
theorem Phase.run_makes {R : Decl → Decl → Prop} (hrefl : ∀ d, R d d) {phase : Phase} {step : Step}
    (hstep : step.Makes R) {p p' : Progress} {es es' : List Entry} (h : phase.run step p es = .ok (p', es')) :
    List.Forall₂ R (es.map Entry.decl) (es'.map Entry.decl) := by
  rw [List.forall₂_map_left_iff, List.forall₂_map_right_iff]
  refine (run_entries h).imp fun e e' htakes => ?_
  obtain ⟨-, rfl⟩ | ⟨-, q, q', problem, hone, -⟩ := htakes
  · exact hrefl e'.decl
  · exact hstep q e.decl q' e'.decl problem hone

/-- A phase whose step changes no declaration changes none. -/
theorem Phase.run_decls {phase : Phase} {step : Step} (hstep : step.KeepsDecl) {p p' : Progress} {es es' : List Entry}
    (h : phase.run step p es = .ok (p', es')) : es'.map Entry.decl = es.map Entry.decl :=
  (List.forall₂_eq_eq_eq ▸ run_makes (fun _ => rfl)
    (fun p d p' d' problem hone => (hstep p d p' d' problem hone).symm) h : es.map Entry.decl = es'.map Entry.decl).symm

namespace Program

variable {b : Builtins} {p : Program} {p₁ p₂ p₃ p₄ p₅ p₆ : Progress} {es₁ es₂ es₃ es₄ es₅ es₆ : List Entry}

theorem Runs.constants_make (h : p.Runs b p₁ p₂ p₃ p₄ p₅ p₆ es₁ es₂ es₃ es₄ es₅ es₆) :
    List.Forall₂ (fun d d' => d' = d ∨ ∃ (k : ConstDecl) (value : Expr), d = .const k ∧ d' = .const { k with value }
      ∧ k.value.Becomes value) p.decls (es₂.map Entry.decl) := by
  have hconstants := Phase.run_makes (fun _ => .inl rfl) Step.makes_constant h.constants
  rwa [Phase.run_decls Step.keepsDecl_register h.registration, List.map_map, Function.comp_def, List.map_id'] at hconstants

theorem Runs.decls_headers (h : p.Runs b p₁ p₂ p₃ p₄ p₅ p₆ es₁ es₂ es₃ es₄ es₅ es₆) :
    es₅.map Entry.decl = es₂.map Entry.decl := by
  rw [Phase.run_decls Step.keepsDecl_header h.headers, Phase.run_decls Step.keepsDecl_containment h.containment,
    Phase.run_decls Step.keepsDecl_fields h.fields]

/-- Resolving leaves of a unit what may become of it, wherever problems end the work on its declarations. -/
theorem becomes_resolve {r : Resolution} (h : p.resolve b = .ok r) : p.Becomes r.program := by
  obtain ⟨p₁, p₂, p₃, p₄, p₅, p₆, es₁, es₂, es₃, es₄, es₅, es₆, hruns, rfl⟩ := exists_runs h
  have hconstants := hruns.constants_make
  have hbodies := Phase.run_makes (fun _ => .inl rfl) (Step.makes_body b) hruns.bodies
  rw [hruns.decls_headers] at hbodies
  refine ⟨rfl, ?_⟩
  show List.Forall₂ Decl.Becomes p.decls (es₆.map Entry.decl)
  generalize p.decls = ds₀ at hconstants
  generalize es₂.map Entry.decl = ds at hconstants hbodies
  generalize es₆.map Entry.decl = ds' at hbodies
  induction hconstants generalizing ds' with
  | nil =>
    cases hbodies
    exact .nil
  | cons hconstant _ ih =>
    cases hbodies with
    | cons hbody hrest =>
      refine .cons ?_ (ih _ hrest)
      -- No declaration is both a constant and a function.
      obtain rfl | ⟨k, value, rfl, rfl, hvalue⟩ := hconstant
      · obtain rfl | ⟨f, f', rfl, rfl, hf⟩ := hbody
        · exact .same
        · exact .func hf
      · obtain rfl | ⟨f, f', hf, -⟩ := hbody
        · exact .const hvalue
        · cases hf

end Program

/-- Whatever problems a parsed unit has, its tree is written like the parsed one when it is resolved, and nothing of it is
another node but indexes by a name that became fields and first operands of `_alloc` that became types. -/
theorem Program.resolve_rewrites {source : String} {file : Option String} {p : Program} (h : ofSource source file = .ok p)
    (b : Builtins) :
    ∃ r t, p.resolve b = .ok r ∧ p.source? = .ok t ∧ r.program.source? = .ok t ∧ p.Becomes r.program := by
  have hp := isWellFormed_of_ofSource h
  obtain ⟨r, -, hr, -⟩ := exists_resolve hp b
  have hplaced : p.misplaced? = none := List.findSome?_eq_none_iff.mpr fun d hd => d.misplaced?_eq_none (hp d hd)
  refine ⟨r, p.source, hr, ?_, source?_program hp hr, becomes_resolve hr⟩
  rw [source?, hplaced]
  rfl

/-- The operand of an allocation becomes a type in front of the problem that ends the work on a function. Nothing else is
rewritten: a pointer has no fields, so `p[x]` is an index. -/
theorem Program.resolve_rewrites_before_problem :
    ∃ p r t, ofSource "struct s [var x int] fun f void(var p s*) \x7b p := _alloc(s) p[x] := q \x7d" = .ok p
      ∧ p.resolve = .ok r ∧ r.problems.map (fun q => q.cause.kind) = [.undefined] ∧ p.source? = .ok t
      ∧ r.program.source? = .ok t ∧ p.Becomes r.program := by
  have hkinds : problemKindsOf "struct s [var x int] fun f void(var p s*) \x7b p := _alloc(s) p[x] := q \x7d"
      = some [.undefined] := Program.bind_ofSource (by decide +kernel)
  obtain ⟨p, r, hp, hr, hkinds⟩ := exists_of_problemKindsOf hkinds
  obtain ⟨r₁, t, hr₁, hrewrites⟩ := resolve_rewrites hp Builtins.standard
  obtain rfl := Except.ok.inj (hr.symm.trans hr₁)
  exact ⟨p, r, t, hp, hr, hkinds, hrewrites⟩

end FlatScope
