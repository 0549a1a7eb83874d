/-
  The work on a body as a value. A body is worked on up to its end or to a halt (`FuncDecl.work`), and what came of it is
  reported in one place (`FuncDecl.resolveBody_eq`). The function and its scope keep their name
  (`FuncDecl.name_of_resolveBody`).
-/
import FlatScope.Proofs.Resolution.Results
import FlatScope.Resolution.Body

namespace FlatScope

/-- What came of a body, and why the work on it ended early if it did. -/
structure Worked where
  decl : FuncDecl
  scope : LocalScope
  statements : List Stmt
  halt : Option Halt

/-- The report on a body. -/
def Worked.report (w : Worked) : Except Misplaced (FuncDecl × Entered) :=
  match w.halt with
  | none => .ok (w.decl, { scope := w.scope, statements := w.statements })
  | some halt =>
    match halt.report with
    | .ok p => .ok (w.decl, { scope := w.scope, statements := w.statements, problem := some p })
    | .error m => .error m

/-- What a report tells of the work on a body. -/
theorem Worked.report_eq_ok {w : Worked} {d : FuncDecl} {e : Entered} (h : w.report = .ok (d, e)) :
    d = w.decl ∧ e.scope = w.scope ∧ e.statements = w.statements
      ∧ (∀ q, e.problem = some q → ∃ halt, w.halt = some halt ∧ halt.report = .ok q) ∧ (e.problem = none → w.halt = none) := by
  unfold report at h
  split at h
  · rename_i hnone
    obtain ⟨rfl, rfl⟩ := Prod.mk.inj (Except.ok.inj h)
    exact ⟨rfl, rfl, rfl, fun q hq => (nomatch hq), fun _ => hnone⟩
  · rename_i halt hsome
    split at h
    · rename_i q hq
      obtain ⟨rfl, rfl⟩ := Prod.mk.inj (Except.ok.inj h)
      refine ⟨rfl, rfl, rfl, fun q' hq' => ?_, fun hnone => (nomatch hnone)⟩
      obtain rfl := Option.some.inj hq'
      exact ⟨halt, hsome, hq⟩
    · cases h

namespace FuncDecl

/-- What came of a body whose declarations are collected, and whose statements have become `body`. -/
def worked (d : FuncDecl) (collected : Collected) (body : List Stmt) (halt : Option Halt) : Worked :=
  ⟨{ d with body }, collected.scope, (Stmt.flattenAll body).take collected.count, halt⟩

/-- The work on the statements of a body whose declarations are collected. -/
def workStatements (b : Builtins) (c : Catalog) (d : FuncDecl) (collected : Collected) : Worked :=
  let body := Stmt.numberAll collected.count 0 d.body
  match collected.halt with
  | some halt => d.worked collected body (some halt)
  | none =>
    match Stmt.checkAll ⟨b, c.within collected.scope, d.name⟩ 0 0 body with
    | .ok body => d.worked collected body none
    | .error (halt, body) => d.worked collected body (some halt)

/-- The work on a body. -/
def work (b : Builtins) (c : Catalog) (s : Signature) (d : FuncDecl) : Worked :=
  match LocalScope.addAll { function := d.name } (d.headSymbols s) with
  | (scope, some halt) => ⟨d, scope, [], some halt⟩
  | (scope, none) =>
    match d.braces.misplaced? with
    | some m => ⟨d, scope, [], some (.misplaced m)⟩
    | none => d.workStatements b c (Stmt.collect c scope 0 (Stmt.flattenAll d.body))

/-- Resolving a body is working on it and reporting. -/
theorem resolveBody_eq (b : Builtins) (c : Catalog) (s : Signature) (d : FuncDecl) :
    d.resolveBody b c s = (d.work b c s).report := by
  unfold resolveBody work
  cases LocalScope.addAll { function := d.name } (d.headSymbols s) with
  | mk scope halt =>
    cases halt with
    | some halt =>
      cases halt <;> rfl
    | none =>
      cases d.braces.misplaced? with
      | some m => rfl
      | none =>
        unfold workStatements
        dsimp only
        cases (Stmt.collect c scope 0 (Stmt.flattenAll d.body)).halt with
        | some halt => cases halt <;> rfl
        | none =>
          cases Stmt.checkAll ⟨b, c.within (Stmt.collect c scope 0 (Stmt.flattenAll d.body)).scope, d.name⟩ 0 0
              (Stmt.numberAll (Stmt.collect c scope 0 (Stmt.flattenAll d.body)).count 0 d.body) with
          | ok body => rfl
          | error left =>
            obtain ⟨halt, body⟩ := left
            cases halt <;> rfl

end FuncDecl

/-! ## Names -/

theorem LocalScope.function_of_add {scope scope' : LocalScope} {s : Symbol} (h : scope.add s = .ok scope') :
    scope'.function = scope.function := by
  unfold add declare at h
  split at h
  · cases h
  · obtain rfl := Except.ok.inj h
    rfl

theorem LocalScope.function_addAll (scope : LocalScope) (ss : List (Except Misplaced Symbol)) :
    (scope.addAll ss).1.function = scope.function := by
  induction ss generalizing scope with
  | nil => rfl
  | cons s ss ih =>
    rw [addAll]
    split
    · rfl
    · rename_i scope' hadd
      obtain ⟨_, -, hadd⟩ := Except.bind_eq_ok.mp hadd
      rw [ih, function_of_add hadd]

/-- What is declared in front of a body is one of the symbols that are to be declared there. -/
theorem LocalScope.mem_addAll {scope : LocalScope} {ss : List (Except Misplaced Symbol)} {x : Symbol}
    (h : x ∈ (scope.addAll ss).1.symbols) : x ∈ scope.symbols ∨ ∃ s owner, .ok s ∈ ss ∧ x = { s with owner } := by
  induction ss generalizing scope with
  | nil => exact .inl h
  | cons s ss ih =>
    rw [addAll] at h
    split at h
    · exact .inl h
    · rename_i scope' hstep
      obtain ⟨y, hy, hadd⟩ := Except.bind_eq_ok.mp hstep
      obtain rfl := Except.mapError_eq_ok.mp hy
      obtain h | ⟨z, owner, hz, rfl⟩ := ih h
      · unfold add declare at hadd
        split at hadd
        · cases hadd
        · obtain rfl := Except.ok.inj hadd
          refine (List.mem_append.mp h).imp_right fun h => ⟨y, some scope.function, List.mem_cons_self, ?_⟩
          exact List.mem_singleton.mp h
      · exact .inr ⟨z, owner, List.mem_cons_of_mem _ hz, rfl⟩

theorem Stmt.function_collect (c : Catalog) (scope : LocalScope) (n : Nat) (ss : List Stmt) :
    (collect c scope n ss).scope.function = scope.function := by
  induction ss generalizing scope n with
  | nil => rfl
  | cons s ss ih =>
    rw [collect]
    split
    · rfl
    · exact ih scope (n + 1)
    · split
      · rfl
      · rename_i hadd
        rw [ih, LocalScope.function_of_add hadd]

namespace FuncDecl

variable (b : Builtins) (c : Catalog) (s : Signature) (d : FuncDecl)

variable {s d} in
/-- Neither the result nor a parameter is declared by a statement. -/
theorem mem_headSymbols {x : Symbol} (h : .ok x ∈ d.headSymbols s) :
    x.level = .local ∧ (x.kind = .result ∨ x.kind = .param) ∧ x.order = -1 := by
  rw [headSymbols] at h
  obtain h | h := List.mem_append.mp h
  · obtain ⟨y, hy, hx⟩ := List.mem_map.mp h
    obtain rfl := Except.ok.inj hx
    split at hy
    · cases hy
    · obtain rfl := List.mem_singleton.mp hy
      exact ⟨rfl, .inl rfl, rfl⟩
  · rw [← List.map_uncurry_zip_eq_zipWith] at h
    obtain ⟨⟨m, t⟩, -, hx⟩ := List.mem_map.mp h
    obtain ⟨name, -, rfl⟩ := Except.map_eq_ok.mp hx
    exact ⟨rfl, .inr rfl, rfl⟩

theorem name_work : (d.work b c s).decl.name = d.name ∧ (d.work b c s).scope.function = d.name := by
  have hadd := LocalScope.function_addAll { function := d.name } (d.headSymbols s)
  have hstatements (collected : Collected) : (d.workStatements b c collected).decl.name = d.name
      ∧ (d.workStatements b c collected).scope = collected.scope := by
    unfold workStatements
    dsimp only
    split
    · exact ⟨rfl, rfl⟩
    · split <;> exact ⟨rfl, rfl⟩
  unfold work
  split
  · rename_i hs
    rw [hs] at hadd
    exact ⟨rfl, hadd⟩
  · rename_i scope hs
    rw [hs] at hadd
    split
    · exact ⟨rfl, hadd⟩
    · obtain ⟨hname, hscope⟩ := hstatements (Stmt.collect c scope 0 (Stmt.flattenAll d.body))
      exact ⟨hname, by rw [hscope, Stmt.function_collect]; exact hadd⟩

variable {b c s d} in
theorem name_of_resolveBody {d' : FuncDecl} {e : Entered} (h : d.resolveBody b c s = .ok (d', e)) :
    d'.name = d.name ∧ e.scope.function = d.name := by
  rw [resolveBody_eq] at h
  obtain ⟨hdecl, hscope, -⟩ := Worked.report_eq_ok h
  rw [hdecl, hscope]
  exact d.name_work b c s

end FuncDecl

end FlatScope
