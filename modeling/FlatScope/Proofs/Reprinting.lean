/-
  Printing what resolving makes of a unit. The tree with its notes has the source of the tree without them, whatever has
  become of its expressions; so its source is parsed as the unit again, at other places, and resolved to the same there:
  with the same problems, if any, to the same tree with the same notes, the same catalog and the same functions
  (`Program.resolve_reprinted`).
-/
import FlatScope.Proofs.Printing.Unit
import FlatScope.Proofs.Rechecking.Unit
import FlatScope.Proofs.Relabeling.Places
import FlatScope.Proofs.Relabeling.Unit

namespace FlatScope

/-! ## The source of what resolving makes of a unit -/

namespace Decl

variable {d d' : Decl}

theorem ReadsAs.lines_eq (h : d.ReadsAs d') : d'.lines = d.lines := by
  cases h with
  | same => rfl
  | value h => rw [lines, lines, h.source]
  | body h =>
    obtain ⟨body, rfl, hbody⟩ := h
    simp only [lines, FuncDecl.withBody, hbody.lines]

theorem ReadsAs.linesAfter_eq (h : d.ReadsAs d') (before : List String) : d'.linesAfter before = d.linesAfter before := by
  have hlines := h.lines_eq
  cases h with
  | same => rfl
  | value _ => exact hlines
  | body _ => simp only [linesAfter, hlines]

theorem ReadsAs.misplaced?_eq_none (h : d.ReadsAs d') (hd : d.misplaced? = none) : d'.misplaced? = none := by
  cases h with
  | same => exact hd
  | value h => exact h.placed hd
  | body h =>
    obtain ⟨body, rfl, hbody⟩ := h
    obtain ⟨hparams, hd⟩ := orElse_eq_none_iff.mp hd
    obtain ⟨hresult, hd⟩ := orElse_eq_none_iff.mp hd
    obtain ⟨hbraces, hd⟩ := orElse_eq_none_iff.mp hd
    exact orElse_none hparams (orElse_none hresult (orElse_none hbraces (hbody.placed hd)))

end Decl

namespace Program

variable {p q : Program} {b : Builtins} {r : Resolution}

/-- Units whose declarations read the same have the same source. -/
theorem source_eq_of_readsAs (h : List.Forall₂ Decl.ReadsAs p.decls q.decls) : q.source = p.source := by
  have hlines : ∀ {ds ds' : List Decl}, List.Forall₂ Decl.ReadsAs ds ds' → ∀ before : List String,
      ds'.foldl (fun before d => before ++ d.linesAfter before) before
        = ds.foldl (fun before d => before ++ d.linesAfter before) before := by
    intro ds ds' h
    induction h with
    | nil => exact fun _ => rfl
    | cons hd _ ih =>
      intro before
      rw [List.foldl_cons, List.foldl_cons, hd.linesAfter_eq, ih]
  exact congrArg unlines (hlines h [])

theorem misplaced?_eq_none_of_readsAs (h : List.Forall₂ Decl.ReadsAs p.decls q.decls) (hp : p.misplaced? = none) :
    q.misplaced? = none := by
  have hdecls : ∀ {ds ds' : List Decl}, List.Forall₂ Decl.ReadsAs ds ds' →
      ds.findSome? (·.misplaced?) = none → ds'.findSome? (·.misplaced?) = none := by
    intro ds ds' h
    induction h with
    | nil => exact id
    | cons hd _ ih =>
      rw [List.findSome?_eq_none_iff, List.findSome?_eq_none_iff, List.forall_mem_cons, List.forall_mem_cons]
      exact fun hds =>
        ⟨hd.misplaced?_eq_none hds.1, List.findSome?_eq_none_iff.mp (ih (List.findSome?_eq_none_iff.mpr hds.2))⟩
  exact hdecls h hp

/-- What resolving makes of a well-formed unit has the source of the unit. -/
theorem source?_program (hp : p.IsWellFormed) (hr : p.resolve b = .ok r) : r.program.source? = .ok p.source := by
  obtain ⟨-, hreads⟩ := resolve_again hr
  have hplaced : p.misplaced? = none := List.findSome?_eq_none_iff.mpr fun d hd => d.misplaced?_eq_none (hp d hd)
  rw [source?, misplaced?_eq_none_of_readsAs hreads hplaced, source_eq_of_readsAs hreads]
  rfl

/-! ## Resolving it -/

/-- What is parsed has no notes. -/
theorem strip_of_ofSource {source : String} {file : Option String} (h : ofSource source file = .ok p) :
    p.strip true = p.bare := by
  obtain ⟨d, -, -, rfl⟩ := exists_derivation_of_ofSource h
  exact congrArg (Program.mk · none) d.isRaw_value

/-- What a unit is resolved to does not depend on the file it is in. -/
theorem resolve_of_decls (h : q.decls = p.decls) (hr : p.resolve b = .ok r) :
    q.resolve b = .ok { r with file := q.file } := by
  obtain ⟨p₁, p₂, p₃, p₄, p₅, p₆, es₁, es₂, es₃, es₄, es₅, es₆, hruns, rfl⟩ := exists_runs hr
  exact Runs.resolve ⟨h ▸ hruns.registration, hruns.constants, hruns.fields, hruns.containment, hruns.headers, hruns.bodies⟩

/-- A unit that is the same but for its places is resolved to the same but for these. -/
theorem resolve_unplaced (h : q.strip true = p.strip true) (hr : p.resolve b = .ok r) :
    ∃ r', q.resolve b = .ok r' ∧ r'.relabel .unplacing = { r.relabel .unplacing with file := q.file } := by
  have hp := Program.resolve_relabel (φ := .unplacing) (b.lookup_placing (fun _ => {}) rfl) p
  rw [hr, Except.toOption, Option.map_some, Except.toOption_eq_some_iff] at hp
  have hdecls : (q.relabel .unplacing).decls = (p.relabel .unplacing).decls := by
    rw [relabel_unplacing, relabel_unplacing, h]
  have hq := Program.resolve_relabel (φ := .unplacing) (b.lookup_placing (fun _ => {}) rfl) q
  rw [resolve_of_decls hdecls hp, Except.toOption, eq_comm, Option.map_eq_some_iff] at hq
  obtain ⟨r', hr', hsame⟩ := hq
  exact ⟨r', Except.toOption_eq_some_iff.mp hr', hsame⟩

end Program

namespace Resolution

/-- The tree of a resolved unit without places is the tree of the resolved unit without places. -/
theorem strip_program (r : Resolution) : r.program.strip true = { decls := (r.relabel .unplacing).entries.map Entry.decl } := by
  simp only [program, Program.strip, relabel, List.map_map]
  congr 1
  exact List.map_congr_left fun e _ => (e.decl.relabel_unplacing).symm

end Resolution

/-- The source of what resolving makes of a parsed unit is parsed and resolved to the same: it has the same problems, or
none, its tree has the same notes and the same source, and its catalog and functions are the same, all up to places. -/
theorem Program.resolve_reprinted {source : String} {file : Option String} {p : Program} (h : ofSource source file = .ok p)
    (b : Builtins) (file' : Option String) :
    ∃ r t q r', p.resolve b = .ok r ∧ r.program.source? = .ok t ∧ ofSource t file' = .ok q ∧ q.resolve b = .ok r'
      ∧ r'.problems.map (Problem.relabel .unplacing) = r.problems.map (Problem.relabel .unplacing)
      ∧ r'.program.strip true = r.program.strip true ∧ r'.program.source? = .ok t
      ∧ r'.catalog.relabel .unplacing = r.catalog.relabel .unplacing
      ∧ r'.functions.map (FunctionInfo.relabel .unplacing) = r.functions.map (FunctionInfo.relabel .unplacing) := by
  have hp := isWellFormed_of_ofSource h
  obtain ⟨r, -, hr, -⟩ := exists_resolve hp b
  obtain ⟨q, hq, hbare⟩ := ofSource_source hp file'
  have hstrip : q.strip true = p.strip true := by rw [strip_of_ofSource hq, strip_of_ofSource h, hbare]
  obtain ⟨r', hr', hsame⟩ := resolve_unplaced hstrip hr
  have hsource : q.source = p.source := by rw [← q.source_strip true, hstrip, p.source_strip true]
  refine ⟨r, p.source, q, r', hr, source?_program hp hr, hq, hr', ?_, ?_, ?_, ?_, ?_⟩
  · rw [← r'.problems_relabel, hsame, ← r.problems_relabel]
    rfl
  · rw [r'.strip_program, hsame, r.strip_program]
  · rw [source?_program (isWellFormed_of_ofSource hq) hr', hsource]
  · exact congrArg Resolution.catalog hsame
  · exact congrArg Resolution.functions hsame

/-- A unit in one line, with a field among indices and a struct's name as a type to be allocated. -/
theorem Program.resolve_reprinted_list :
    ∃ p r t q r', ofSource "struct s [var x int, var t s*] fun f void(var a s*[2]) \x7b a[0] := _alloc(s, 2) a[0][0][t] := a[1] \x7d"
        = .ok p ∧ p.resolve = .ok r ∧ r.problems = [] ∧ r.program.source? = .ok t ∧ ofSource t = .ok q ∧ q.resolve = .ok r'
      ∧ r'.problems = [] ∧ r'.program.strip true = r.program.strip true ∧ r'.program.source? = .ok t := by
  have hkinds : problemKindsOf
      "struct s [var x int, var t s*] fun f void(var a s*[2]) \x7b a[0] := _alloc(s, 2) a[0][0][t] := a[1] \x7d" = some [] :=
    Program.bind_ofSource (by decide +kernel)
  obtain ⟨p, r, hp, hr, hkinds⟩ := exists_of_problemKindsOf hkinds
  obtain ⟨r₁, t, q, r', hr₁, ht, hq, hr', hproblems, htree, hsource, -⟩ := resolve_reprinted hp Builtins.standard none
  obtain rfl := Except.ok.inj (hr.symm.trans hr₁)
  have hnone : r.problems = [] := List.map_eq_nil_iff.mp hkinds
  rw [hnone, List.map_nil, List.map_eq_nil_iff] at hproblems
  exact ⟨p, r, t, q, r', hp, hr, hnone, ht, hq, hr', hproblems, htree, hsource⟩

end FlatScope
