/-
  What a function declares. A function whose declarations are read without a halt (`FuncDecl.Collects`) has a scope that holds
  its result and its parameters and then what its statements declare, by their numbers, under names of their own
  (`FuncDecl.Collects.rows`).
-/
import FlatScope.Proofs.Resolution.Jumps

namespace FlatScope

namespace Stmt

/-- What the statement with number `n` declares, in a row: a variable or a label. -/
def row? (n : Nat) : Stmt → Option (String × Symbol.Kind × Int)
  | var d => some (d.name, .var, n)
  | label name _ _ => some (name, .label, n)
  | _ => none

/-- What statements declare, in rows, where the first statement has number `n`. -/
def rows (n : Nat) (ss : List Stmt) : List (String × Symbol.Kind × Int) := (ss.zipIdx n).filterMap fun x => x.1.row? x.2

variable {Γ : Context} {function : String} {before locals : List Symbol} {n : Nat} {ss : List Stmt}

theorem rows_cons (n : Nat) (s : Stmt) (ss : List Stmt) : rows n (s :: ss) = (s.row? n).toList ++ rows (n + 1) ss := by
  rw [rows, List.zipIdx_cons, List.filterMap_cons]
  cases s.row? n <;> rfl

theorem row?_eq_none {s : Stmt} (h : s.declared? = none) (n : Nat) : s.row? n = none := by
  cases s with
  | var _ | label _ _ _ => cases h
  | _ => rfl

/-- The rows of what is declared. -/
theorem Declare.rows (h : Declare Γ function before n ss locals) :
    locals.map Symbol.row = before.map Symbol.row ++ Stmt.rows n ss := by
  induction h with
  | nil => exact (List.append_nil _).symm
  | var _ _ ih | label _ ih =>
    rw [ih, rows_cons, List.map_append, List.append_assoc]
    rfl
  | other hs _ ih =>
    rw [ih, rows_cons, row?_eq_none hs]
    rfl

/-- What is declared belongs to the function. -/
theorem Declare.owner (h : Declare Γ function before n ss locals) (hbefore : ∀ x ∈ before, x.owner = some function) :
    ∀ x ∈ locals, x.owner = some function := by
  induction h with
  | nil => exact hbefore
  | var _ _ ih | label _ ih => exact ih (List.forall_mem_append.mpr ⟨hbefore, List.forall_mem_singleton.mpr rfl⟩)
  | other _ _ ih => exact ih hbefore

end Stmt

namespace FuncDecl

variable {b : Builtins} {c : Catalog} {s : Signature} {d : FuncDecl} {scope : LocalScope}

/-- The declarations of a function are read without a halt, and this is the scope that comes of them. -/
def Collects (c : Catalog) (s : Signature) (d : FuncDecl) (scope : LocalScope) : Prop :=
  ∃ head, LocalScope.addAll { function := d.name } (d.headSymbols s) = (head, none)
    ∧ Stmt.collect c head 0 (Stmt.flattenAll d.body) = { scope, count := (Stmt.flattenAll d.body).length }

/-- The rows of what a well-formed function declares before its body. -/
theorem map_row_headLocals (hd : d.IsWellFormed) (hs : s.params.length = d.params.length) :
    (d.headLocals s).map Symbol.row = d.headRows s := by
  obtain ⟨heads, hheads, hrows⟩ := exists_headSymbols hd hs
  rw [headLocals_eq hheads, ← hrows, LocalScope.extend, List.map_append, List.map_map]
  rfl

/-- Where declarations are read without a halt, the rules declare the same symbols, and these have names of their own. -/
theorem Collects.declare (h : d.Collects c s scope) (hd : d.IsWellFormed) (hs : s.params.length = d.params.length) (b : Builtins) :
    (∀ locals, Stmt.Declare ⟨b, c.globals, c.structs, []⟩ d.name (d.headLocals s) 0 (Stmt.flattenAll d.body) locals
        ↔ locals = scope.symbols)
      ∧ scope.names.Nodup ∧ scope.function = d.name := by
  obtain ⟨head, hadd, hcollect⟩ := h
  obtain ⟨heads, hheads, -⟩ := exists_headSymbols hd hs
  have hbody := Stmt.isWellFormed_of_mem_flattenAll d.body hd.2.2.2.1
  rw [headLocals_eq hheads]
  rw [hheads] at hadd
  obtain ⟨hnodup, hextend⟩ | ⟨-, scope', halt, hhalt, -⟩ :=
    LocalScope.addAll_cases heads { function := d.name } List.nodup_nil
  · obtain ⟨rfl, -⟩ := Prod.mk.inj (hextend.symm.trans hadd)
    obtain ⟨locals, hdeclare, hlocals, hcollected⟩ | ⟨-, halt, hhalt, -⟩ :=
      Stmt.collect_cases (c := c) b _ hbody _ hnodup 0
    · obtain ⟨rfl, -⟩ := Collected.mk.inj (hcollected.symm.trans hcollect)
      exact ⟨hdeclare, hlocals, rfl⟩
    · rw [hcollect] at hhalt
      cases hhalt
  · cases hhalt.symm.trans hadd

/-- A scope holds the result and the parameters, and then the variables and the labels of the body by their numbers. -/
theorem Collects.rows (h : d.Collects c s scope) (hd : d.IsWellFormed) (hs : s.params.length = d.params.length) :
    scope.symbols.map Symbol.row = d.headRows s ++ Stmt.rows 0 (Stmt.flattenAll d.body) := by
  obtain ⟨hdeclare, -⟩ := h.declare hd hs []
  rw [((hdeclare _).mpr rfl).rows, map_row_headLocals hd hs]

/-- The work on a body that does not halt comes to its statements. -/
theorem work_of_halt (h : (d.work b c s).halt = none) : ∃ head, LocalScope.addAll { function := d.name } (d.headSymbols s) = (head, none)
    ∧ d.work b c s = d.workStatements b c (Stmt.collect c head 0 (Stmt.flattenAll d.body)) := by
  unfold work at h ⊢
  cases hadd : LocalScope.addAll { function := d.name } (d.headSymbols s) with
  | mk head halt =>
    rw [hadd] at h
    cases halt with
    | some halt => cases h
    | none =>
      cases hbraces : d.braces.misplaced? with
      | some m =>
        rw [hbraces] at h
        cases h
      | none => exact ⟨head, rfl, rfl⟩

/-- The work on statements that does not halt comes to their end. -/
theorem workStatements_of_halt {collected : Collected} (h : (d.workStatements b c collected).halt = none) :
    collected.halt = none
      ∧ ∃ body, Stmt.checkAll ⟨b, c.within collected.scope, d.name⟩ 0 0 (Stmt.numberAll collected.count 0 d.body) = .ok body
        ∧ d.workStatements b c collected = d.worked collected body none := by
  unfold workStatements at h ⊢
  cases hhalt : collected.halt with
  | some halt =>
    rw [hhalt] at h
    cases h
  | none =>
    rw [hhalt] at h
    dsimp only at h ⊢
    cases hcheck : Stmt.checkAll ⟨b, c.within collected.scope, d.name⟩ 0 0 (Stmt.numberAll collected.count 0 d.body) with
    | error left =>
      rw [hcheck] at h
      cases h
    | ok body => exact ⟨rfl, body, rfl, rfl⟩

/-- The scope that declarations come to is the one that the work on a body leaves behind. -/
theorem Collects.scope_eq {scope : LocalScope} (h : d.Collects c s scope) (hd : d.IsWellFormed) {d' : FuncDecl} {e : Entered}
    (hbody : d.resolveBody b c s = .ok (d', e)) : e.scope = scope := by
  obtain ⟨head, hadd, hcollect⟩ := h
  rw [resolveBody_eq] at hbody
  obtain ⟨-, hscope, -⟩ := Worked.report_eq_ok hbody
  rw [hscope, work, hadd, hd.2.2.2.2.misplaced?]
  dsimp only
  rw [hcollect, workStatements]
  dsimp only
  split <;> rfl

/-- A body that is resolved without a problem has had its declarations read and its statements checked. -/
theorem resolveBody_eq_done {d' : FuncDecl} {e : Entered} (h : d.resolveBody b c s = .ok (d', e)) (hproblem : e.problem = none) :
    d.Collects c s e.scope ∧ e.statements = Stmt.flattenAll d'.body
      ∧ Stmt.checkAll ⟨b, c.within e.scope, d.name⟩ 0 0 (Stmt.numberAll (Stmt.flattenAll d.body).length 0 d.body) = .ok d'.body := by
  rw [resolveBody_eq] at h
  obtain ⟨rfl, hscope, hstatements, -, hhalt⟩ := Worked.report_eq_ok h
  have hhalt := hhalt hproblem
  rw [hscope, hstatements]
  obtain ⟨head, hadd, hwork⟩ := work_of_halt hhalt
  rw [hwork] at hhalt ⊢
  obtain ⟨hnone, body, hcheck, hworked⟩ := workStatements_of_halt hhalt
  rw [hworked]
  have hcount := Stmt.count_collect hnone
  generalize hcollected : Stmt.collect c head 0 (Stmt.flattenAll d.body) = collected at hnone hcheck hcount ⊢
  obtain ⟨scope, count, halt⟩ := collected
  obtain rfl : halt = none := hnone
  obtain rfl : count = (Stmt.flattenAll d.body).length := hcount.trans (Nat.zero_add _)
  refine ⟨⟨head, hadd, hcollected⟩, List.take_of_length_le (le_of_eq ?_), hcheck⟩
  have hleads := Stmt.leads_checkAll ⟨b, c.within scope, d.name⟩ 0 0 (Stmt.numberAll (Stmt.flattenAll d.body).length 0 d.body)
  have hcheck : Stmt.checkAll ⟨b, c.within scope, d.name⟩ 0 0 (Stmt.numberAll (Stmt.flattenAll d.body).length 0 d.body) = .ok body :=
    hcheck
  rw [hcheck] at hleads
  have hlength : (Stmt.flattenAll (Stmt.numberAll (Stmt.flattenAll d.body).length 0 d.body)).length = (Stmt.flattenAll body).length :=
    hleads.length_eq
  rw [← hlength, Stmt.length_flattenAll, Stmt.length_flattenAll, Stmt.sizes_numberAll]

end FuncDecl

end FlatScope
