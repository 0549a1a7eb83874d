/-
  Functions that are done. The scope of such a function holds all that it declares and nothing else, its statements are those
  of its body in reading order, and its labels and jumps have the numbers of the labels that they name
  (`FuncDecl.isExact_of_resolveBody`). Whatever problems other declarations of a parsed unit have, the catalog keeps the scope of
  each function that is done, and with its statements it is exact (`Program.isExact_of_done`). In a function that has read its
  declarations, a length in the type of a variable stands in the complete scope for the constant that it was read as, unless
  the variable itself or a label further on hides it (`Program.isSized_of_collects`).
-/
import FlatScope.Proofs.Rewriting.Stmt
import FlatScope.Proofs.Scopes.Aimed
import FlatScope.Proofs.Scopes.Collected
import FlatScope.Proofs.Scopes.Entered
import FlatScope.Proofs.Scopes.Sizes

namespace FlatScope

/-! ## What a body has become, statement by statement -/

namespace Stmt

mutual

theorem Becomes.flatten (s : Stmt) {s' : Stmt} (h : s.Becomes s') : List.Forall₂ Becomes s.flatten s'.flatten := by
  cases s with
  | ifThen c body braces o span =>
    have hself := h
    cases h with
    | ifThen hc hb ho => exact .cons hself (List.rel_append (AllBecome.flattenAll body hb) (ElseBecomes.flattenElse o ho))
  | whileDo c body braces span =>
    have hself := h
    cases h with
    | whileDo hc hb => exact .cons hself (AllBecome.flattenAll body hb)
  | block body span =>
    have hself := h
    cases h with
    | block hb => exact .cons hself (AllBecome.flattenAll body hb)
  | var _ | assign _ _ _ | call _ _ | breakLoop _ | continueLoop _ | label _ _ _ | goto _ _ _ | foreign _ =>
    have hself := h
    cases h
    exact .cons hself .nil

theorem ElseBecomes.flattenElse (o : Option Stmt) {o' : Option Stmt} (h : ElseBecomes o o') :
    List.Forall₂ Becomes (flattenElse o) (flattenElse o') := by
  match o with
  | none =>
    cases h
    exact .nil
  | some (.ifThen c body braces o span) =>
    cases h with
    | some h =>
      have hself := h
      cases h with
      | ifThen hc hb ho => exact .cons hself (List.rel_append (AllBecome.flattenAll body hb) (ElseBecomes.flattenElse o ho))
  | some (.block body span) =>
    cases h with
    | some h =>
      cases h with
      | block hb => exact AllBecome.flattenAll body hb
  | some (.var _) | some (.assign ..) | some (.call ..) | some (.whileDo ..) | some (.breakLoop _)
  | some (.continueLoop _) | some (.label ..) | some (.goto ..) | some (.foreign _) =>
    cases h with
    | some h =>
      cases h
      exact .nil

/-- What becomes of a body becomes of its statements one by one. -/
theorem AllBecome.flattenAll (ss : List Stmt) {ss' : List Stmt} (h : AllBecome ss ss') :
    List.Forall₂ Becomes (flattenAll ss) (flattenAll ss') := by
  cases ss with
  | nil =>
    cases h
    exact .nil
  | cons s ss =>
    cases h with
    | cons hs hss => exact List.rel_append (Becomes.flatten s hs) (AllBecome.flattenAll ss hss)

end

/-- Statements declare what they did before. -/
theorem rows_of_forall₂ {ss ss' : List Stmt} (h : List.Forall₂ Becomes ss ss') (n : Nat) : rows n ss' = rows n ss := by
  induction h generalizing n with
  | nil => rfl
  | cons hs _ ih =>
    rw [rows_cons, rows_cons, ih]
    cases hs <;> rfl

end Stmt

/-! ## Bodies -/

/-- What has come of a function, which was `d` and has become `d'`, is all that there is to it. -/
structure Entered.IsExact (e : Entered) (d d' : FuncDecl) (s : Signature) : Prop where
  /-- The scope holds the result and the parameters, and then variables and labels by the numbers of their statements. -/
  rows : e.scope.symbols.map Symbol.row = d.headRows s ++ Stmt.rows 0 e.statements
  distinct : e.scope.names.Nodup
  owner : ∀ x ∈ e.scope.symbols, x.owner = some d.name
  becomes : d.Becomes d'
  reading : Stmt.IsReading d'.body e.statements
  label : ∀ (n : Nat) name index span, e.statements[n]? = some (.label name index span) → index = some n
  labels : e.scope.labels.map Symbol.row = (Stmt.rows 0 e.statements).filter fun row => row.2.1 = .label
  goto : ∀ (n : Nat) name target span, e.statements[n]? = some (.goto name target span) → ∃ t, target = some t
    ∧ t < e.statements.length ∧ ∃ index span', e.statements[t]? = some (.label name index span')
  loop : ∀ a s, Stmt.Stands d'.body a s → (∃ span, s = .breakLoop span ∨ s = .continueLoop span) → Stmt.InLoop d'.body a

namespace FuncDecl

variable {b : Builtins} {c : Catalog} {s : Signature} {d d' : FuncDecl} {e : Entered}

theorem filter_headRows (d : FuncDecl) (s : Signature) : (d.headRows s).filter (fun row => row.2.1 = .label) = [] := by
  refine List.filter_eq_nil_iff.mpr fun row hrow => ?_
  rw [headRows, List.mem_append] at hrow
  obtain hrow | hrow := hrow
  · split at hrow
    · cases hrow
    · obtain rfl := List.mem_singleton.mp hrow
      exact Bool.false_ne_true
  · obtain ⟨m, -, hrow⟩ := List.mem_filterMap.mp hrow
    obtain ⟨name, -, rfl⟩ := Option.map_eq_some_iff.mp hrow
    exact Bool.false_ne_true

/-- What has come of a well-formed function that is done is exact. -/
theorem isExact_of_resolveBody (hd : d.IsWellFormed) (hs : s.params.length = d.params.length)
    (hunlinked : Stmt.AreUnlinked (Stmt.flattenAll d.body)) (h : d.resolveBody b c s = .ok (d', e)) (hproblem : e.problem = none) :
    e.IsExact d d' s := by
  obtain ⟨hcollects, hstatements, hcheck⟩ := resolveBody_eq_done h hproblem
  obtain ⟨hdeclare, hnodup, -⟩ := hcollects.declare hd hs b
  rw [resolveBody_eq] at h
  obtain ⟨rfl, -, hread, -⟩ := Worked.report_eq_ok h
  have hbecomes := d.becomes_work b c s
  have hlinked : Stmt.AreLinked e.statements := hread ▸ areLinked_work hunlinked
  generalize (d.work b c s).decl = d' at hstatements hcheck hbecomes
  obtain ⟨body, rfl, hbody⟩ := hbecomes
  have hrows : e.scope.symbols.map Symbol.row = d.headRows s ++ Stmt.rows 0 e.statements := by
    rw [hcollects.rows hd hs, hstatements, Stmt.rows_of_forall₂ (Stmt.AllBecome.flattenAll d.body hbody)]
  have hreading : Stmt.IsReading body e.statements := hstatements ▸ Stmt.isReading_flattenAll body
  have haimed : Stmt.AreAimed false body := Stmt.areAimed_checkAll _ 0 0 _ hcheck
  refine ⟨hrows, hnodup, ?_, ⟨body, rfl, hbody⟩, hreading, ?_, ?_, ?_, ?_⟩
  · exact ((hdeclare _).mpr rfl).owner (List.forall_mem_map.mpr fun x _ => rfl)
  · intro n name index span hn
    exact hlinked.label n name index (by rw [List.getElem?_map, hn]; rfl)
  · rw [LocalScope.labels]
    have hfilter : (e.scope.symbols.filter fun x => x.kind = .label).map Symbol.row
        = (e.scope.symbols.map Symbol.row).filter fun row => row.2.1 = .label := by
      rw [List.filter_map]
      rfl
    rw [hfilter, hrows, List.filter_append, filter_headRows, List.nil_append]
  · intro n name target span hn
    obtain ⟨places, hsnd, -, hplaces⟩ := hreading
    obtain ⟨⟨a, _⟩, hat, rfl⟩ := List.mem_map.mp (hsnd ▸ List.mem_of_getElem? hn)
    obtain ⟨inLoop, haimed, -⟩ := ((hplaces a _).mp hat).aimed haimed
    obtain ⟨t, rfl⟩ := Option.isSome_iff_exists.mp haimed
    have hlabel := hlinked.goto n name t (by rw [List.getElem?_map, hn]; rfl)
    rw [List.getElem?_map, Option.map_eq_some_iff] at hlabel
    obtain ⟨s, hs, houtline⟩ := hlabel
    refine ⟨t, rfl, (List.getElem?_eq_some_iff.mp hs).1, ?_⟩
    cases s with
    | label name' index span' =>
      obtain ⟨rfl, -⟩ := Stmt.Outline.label.inj houtline
      exact ⟨index, span', hs⟩
    | _ => cases houtline
  · rintro a s hstands ⟨span, rfl | rfl⟩
    all_goals
      obtain ⟨inLoop, hin, hloop⟩ := hstands.aimed haimed
      exact hloop hin

end FuncDecl

/-! ## Functions of a unit -/

namespace Resolution

/-- A function has been entered, and what is declared in it is told from its declaration: where that is read without a halt,
the scope that the catalog keeps is the one that comes of it. -/
structure HasCollected (b : Builtins) (p : Program) (r : Resolution) (f : FunctionInfo) (e : Entered) (d d' : FuncDecl)
    (s : Signature) : Prop extends r.Enters b p f e d d' s where
  kept : r.catalog.scope? f.name = some e.scope
  /-- In a function without a problem the declarations have been read. -/
  collects : e.problem = none → d.Collects r.catalog s e.scope
  scope : ∀ scope, d.Collects r.catalog s scope → e.scope = scope

/-- Every function that is done has a scope that the catalog keeps, and with its statements it is exact. -/
def IsExact (b : Builtins) (p : Program) (r : Resolution) : Prop :=
  ∀ f ∈ r.functions, f.state = .done → ∃ e d d' s, f.entered = some e ∧ e.problem = none
    ∧ r.catalog.scope? f.name = some e.scope ∧ r.Enters b p f e d d' s ∧ e.IsExact d d' s

/-- In every function that has read its declarations, the type of a variable has been read in the part of the scope in front
of it, and is a sized one in the complete scope. -/
def IsSized (b : Builtins) (p : Program) (r : Resolution) : Prop :=
  ∀ f ∈ r.functions, ∀ e, f.entered = some e → ∃ d d' s, r.HasCollected b p f e d d' s
    ∧ ∀ scope, d.Collects r.catalog s scope → ∀ i v, (Stmt.flattenAll d.body)[i]? = some (.var v) →
      d.Reads r.catalog s i (scope.before i) ∧ ∃ t, v.IsSized r.catalog scope i t

end Resolution

/-- Whatever has been entered has come of one declaration, with the scope that this declaration makes. -/
theorem Program.exists_hasCollected {b : Builtins} {p : Program} {r : Resolution} (hp : p.IsWellFormed)
    (hr : p.resolve b = .ok r) {f : FunctionInfo} (hf : f ∈ r.functions) {e : Entered} (he : f.entered = some e) :
    ∃ d d' s, r.HasCollected b p f e d d' s := by
  obtain ⟨⟨d, d', s, henters⟩, hscope⟩ := exists_body hp hr hf he
  refine ⟨d, d', s, henters, hscope, fun hproblem => ?_, fun scope hcollects => ?_⟩
  · exact (FuncDecl.resolveBody_eq_done henters.body hproblem).1
  · exact hcollects.scope_eq henters.wellFormed henters.body

/-- The local scopes of a parsed unit are complete, and labels and jumps are exact: a function that is done has a scope of all
that it declares, its statements in reading order, labels with their numbers, jumps to the labels that they name, and `break`
and `continue` in loops only. -/
theorem Program.isExact_of_done {source : String} {file : Option String} {p : Program} (h : ofSource source file = .ok p)
    (b : Builtins) : ∃ r, p.resolve b = .ok r ∧ r.IsExact b p := by
  have hp := isWellFormed_of_ofSource h
  obtain ⟨r, -, hr, -⟩ := exists_resolve hp b
  refine ⟨r, hr, fun f hf hdone => ?_⟩
  cases he : f.entered with
  | none => exact nomatch hdone.symm.trans (FunctionInfo.state_of_not_entered he)
  | some e =>
    have hproblem : e.problem = none := by
      rw [FunctionInfo.state_of_entered he] at hdone
      cases hproblem : e.problem with
      | none => rfl
      | some problem =>
        rw [hproblem] at hdone
        cases hdone
    obtain ⟨⟨d, d', s, henters⟩, hscope⟩ := exists_body hp hr hf he
    obtain ⟨i, hd, -⟩ := henters.decl
    have hdecls : p.decls.map (Decl.strip true) = p.decls.map (Decl.strip false) := congrArg decls (strip_of_ofSource h)
    have hstrip := List.map_inj_left.mp hdecls _ (List.mem_of_getElem? hd)
    have hunlinked : Stmt.AreUnlinked (Stmt.flattenAll d.body) :=
      Stmt.areUnlinked_of_stripAll d.body (congrArg FuncDecl.body (Decl.func.inj hstrip))
    exact ⟨e, d, d', s, rfl, hproblem, hscope, henters,
      FuncDecl.isExact_of_resolveBody henters.wellFormed henters.arity hunlinked henters.body hproblem⟩

/-- The scopes that functions of a source leave behind, in rows. -/
def rowsOf (source : String) : Option (List (String × List (String × Symbol.Kind × Int))) := do
  let p ← (Program.ofSource source).toOption
  let r ← p.resolve.toOption
  return r.catalog.finished.map fun scope => (scope.function, scope.symbols.map Symbol.row)

/-- A function that jumps into blocks and out of a loop, and one that jumps to a label of the other. -/
def jumpAround : String :=
  "fun f int(var n int) \x7b while n \x7b if n \x7b var x int goto label out \x7d else if x \x7b break \x7d else \x7b label in goto label in \x7d \x7d \x7b label out \x7d \x7d fun g void() \x7b goto label out \x7d"

set_option maxRecDepth 1500 in
theorem Program.isExact_of_done_jumps :
    ∃ p r, ofSource jumpAround = .ok p ∧ p.resolve = .ok r ∧ r.functions.map FunctionInfo.state = [.done, .failed]
      ∧ r.catalog.finished.map (fun scope => (scope.function, scope.symbols.map Symbol.row))
        = [("f", [("result", .result, -1), ("n", .param, -1), ("x", .var, 2), ("in", .label, 6), ("out", .label, 9)]), ("g", [])]
      ∧ r.IsExact Builtins.standard p := by
  have hstates : statesOf jumpAround = some [.done, .failed] := Program.bind_ofSource (by decide +kernel)
  have hrows : rowsOf jumpAround = some
      [("f", [("result", .result, -1), ("n", .param, -1), ("x", .var, 2), ("in", .label, 6), ("out", .label, 9)]), ("g", [])] :=
    Program.bind_ofSource (by decide +kernel)
  obtain ⟨p, hp, hstates⟩ := Option.bind_eq_some_iff.mp hstates
  obtain ⟨r, hr, hstates⟩ := Option.bind_eq_some_iff.mp hstates
  obtain ⟨p', hp', hrows⟩ := Option.bind_eq_some_iff.mp hrows
  obtain rfl : p = p' := Option.some.inj (hp.symm.trans hp')
  obtain ⟨r', hr', hrows⟩ := Option.bind_eq_some_iff.mp hrows
  obtain rfl : r = r' := Option.some.inj (hr.symm.trans hr')
  have hp := Except.toOption_eq_some_iff.mp hp
  have hr := Except.toOption_eq_some_iff.mp hr
  obtain ⟨r', hr', hexact⟩ := isExact_of_done hp Builtins.standard
  obtain rfl := Except.ok.inj (hr.symm.trans hr')
  exact ⟨p, r, hp, hr, Option.some.inj hstates, Option.some.inj hrows, hexact⟩

/-! ## Lengths -/

/-- Lengths in the variables of a parsed unit. Where the declarations of a function are read without a halt, which they are in a
function without a problem, the type of each variable is read in the part of the scope in front of it; and in the complete scope
its lengths stand for the same constants, unless the variable itself or a label further on has the name of one. -/
theorem Program.isSized_of_collects {source : String} {file : Option String} {p : Program} (h : ofSource source file = .ok p)
    (b : Builtins) : ∃ r, p.resolve b = .ok r ∧ r.IsSized b p := by
  have hp := isWellFormed_of_ofSource h
  obtain ⟨r, -, hr, -⟩ := exists_resolve hp b
  refine ⟨r, hr, fun f hf e he => ?_⟩
  obtain ⟨d, d', s, hfunction⟩ := exists_hasCollected hp hr hf he
  refine ⟨d, d', s, hfunction, fun scope hcollects i v hi => ?_⟩
  obtain ⟨-, hnames, -⟩ := hcollects.declare hfunction.wellFormed hfunction.arity b
  exact ⟨(hcollects.read hi).1, hcollects.isSized hnames hi⟩

/-- The types of what functions of a source declare, and the kind of what a name stands for in their complete scopes at a place. -/
def typesOf (source : String) (name : String) (n : Nat) : Option (List (List (Option Ty) × Option Symbol.Kind)) := do
  let p ← (Program.ofSource source).toOption
  let r ← p.resolve.toOption
  return r.catalog.finished.map fun scope =>
    (scope.symbols.map Symbol.ty, ((r.catalog.within scope).lookup name (some n)).map Symbol.kind)

/-- A function with two variables of a length, and one that has a variable of the name in between. -/
def twoLengths : String :=
  "const n 3 fun f void() \x7b var x int[n] while x[0] \x7b label m var y int*[n] \x7d \x7d fun g void() \x7b var x int[n] var n int var y int[n] \x7d"

set_option maxRecDepth 1500 in
theorem Program.isSized_of_collects_two :
    ∃ p r, ofSource twoLengths = .ok p ∧ p.resolve = .ok r ∧ statesOf twoLengths = some [.done, .failed]
      ∧ typesOf twoLengths "n" 3 = some [([some (.array .int 3), none, some (.array (.pointer .int) 3)], some .const),
        ([some (.array .int 3), some .int], some .var)]
      ∧ r.IsSized Builtins.standard p := by
  have hstates : statesOf twoLengths = some [.done, .failed] := Program.bind_ofSource (by decide +kernel)
  obtain ⟨p, hp, hrest⟩ := Option.bind_eq_some_iff.mp hstates
  obtain ⟨r, hr, -⟩ := Option.bind_eq_some_iff.mp hrest
  have hp := Except.toOption_eq_some_iff.mp hp
  have hr := Except.toOption_eq_some_iff.mp hr
  obtain ⟨r', hr', hsized⟩ := isSized_of_collects hp Builtins.standard
  obtain rfl := Except.ok.inj (hr.symm.trans hr')
  exact ⟨p, r, hp, hr, hstates, Program.bind_ofSource (by decide +kernel), hsized⟩

/-- A variable whose length is a constant that a label further on hides. -/
def hiddenLength : String := "const n 3 fun f void() \x7b var x int[n] label n \x7d"

/-- The function is done and its variable has three elements, but in its complete scope the length names the label. -/
theorem Program.length_hidden_by_label : statesOf hiddenLength = some [.done]
    ∧ typesOf hiddenLength "n" 0 = some [([some (.array .int 3), none], some .label)] :=
  ⟨Program.bind_ofSource (by decide +kernel), Program.bind_ofSource (by decide +kernel)⟩

end FlatScope
