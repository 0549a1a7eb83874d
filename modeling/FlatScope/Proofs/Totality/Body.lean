/-
  The body of a function with its scope in the catalog. The scope is opened, symbols are declared in it, statements are
  checked by the numbers they were read with, and the scope is closed again whether or not there was a halt; each of these is
  refused where it does not belong, and a constant of type `int` has to be an integer. If no scope was open, and if the
  global constants of type `int` are integers, nothing of this is refused (`FuncDecl.guardedBody_eq`).
-/
import FlatScope.Proofs.Resolution.Body
import FlatScope.Proofs.Totality.Numbers
import FlatScope.Proofs.Typing.Body

namespace FlatScope

/-! ## Integer constants -/

/-- A symbol is a constant of type `int` whose value is no integer. -/
def Symbol.lacksInteger (s : Symbol) : Bool :=
  s.kind = .const && s.ty = some .int &&
    match s.value with
    | some (.int _) => false
    | _ => true

namespace Catalog

/-- The symbols that can be looked up. -/
def symbols (c : Catalog) : List Symbol := c.globals ++ (c.current.map LocalScope.symbols).getD []

/-- Gives up if there is a constant of type `int` whose value is no integer. -/
def checkIntegers (c : Catalog) : Except Breach Unit :=
  match c.symbols.find? Symbol.lacksInteger with
  | some s => .error (.noInteger s.name)
  | none => .ok ()

/-- The global constants of type `int` are integers. -/
def HasIntegers (c : Catalog) : Prop := ∀ s ∈ c.globals, s.lacksInteger = false

variable {c : Catalog}

theorem checkIntegers_eq (h : c.HasIntegers) {symbols : List Symbol} (hs : ∀ s ∈ symbols, s.kind ≠ .const)
    (hc : (c.current.map LocalScope.symbols).getD [] = symbols) : c.checkIntegers = .ok () := by
  have hnone : c.symbols.find? Symbol.lacksInteger = none := by
    refine List.find?_eq_none.mpr (List.forall_mem_append.mpr ⟨fun s hmem => ?_, fun s hmem => ?_⟩)
    · rw [h s hmem]
      exact Bool.false_ne_true
    · rw [hc] at hmem
      rw [Symbol.lacksInteger, decide_eq_false (hs s hmem)]
      exact Bool.false_ne_true
  rw [checkIntegers, hnone]

end Catalog

/-! ## Declaring -/

/-- A symbol is one that a function declares. -/
def Symbol.IsOwn (s : Symbol) : Prop := s.level = .local ∧ s.kind ≠ .const

/-- The symbols of a scope are such as a function declares. -/
def LocalScope.IsOwn (scope : LocalScope) : Prop := ∀ s ∈ scope.symbols, s.kind ≠ .const

namespace Catalog

/-- Declares a symbol of a function in the open scope. -/
def guardedAdd (c : Catalog) (s : Symbol) : Except Breach (Except Halt Catalog) :=
  match c.declareLocal s with
  | .ok c => .ok (.ok c)
  | .error (.duplicate d) => .ok (.error (.at s.span (.duplicate d)))
  | .error refusal => .error (.refused refusal)

/-- Declares symbols in order, up to the first that is none or whose name is taken. -/
def guardedAddAll (c : Catalog) : List (Except Misplaced Symbol) → Except Breach (Catalog × Option Halt)
  | [] => return (c, none)
  | .error m :: _ => return (c, some (.misplaced m))
  | .ok s :: ss => do
    match ← c.guardedAdd s with
    | .error halt => return (c, some halt)
    | .ok c => c.guardedAddAll ss

variable {c : Catalog} {scope : LocalScope}

theorem checkIntegers_within (h : c.HasIntegers) (hscope : scope.IsOwn) : (c.within scope).checkIntegers = .ok () :=
  checkIntegers_eq h hscope rfl

theorem guardedAdd_within (c : Catalog) (scope : LocalScope) {s : Symbol} (hs : s.IsOwn) :
    (c.within scope).guardedAdd s = .ok ((scope.add s).map c.within) := by
  have hdeclare : (c.within scope).declareLocal s = ((scope.declare s).map c.within).mapError Refusal.duplicate := by
    simp only [declareLocal, openScope, within, hs.1, bind, Except.bind, ne_eq, not_true, if_false, pure, Except.pure]
    cases scope.declare s <;> rfl
  rw [guardedAdd, hdeclare, LocalScope.add]
  cases scope.declare s <;> rfl

theorem isOwn_of_add {scope' : LocalScope} {s : Symbol} (h : scope.IsOwn) (hs : s.IsOwn) (hadd : scope.add s = .ok scope') :
    scope'.IsOwn := by
  obtain ⟨-, hok⟩ | ⟨-, halt, hhalt, -⟩ := scope.add_cases s
  · rw [hok] at hadd
    obtain rfl := Except.ok.inj hadd
    exact List.forall_mem_append.mpr ⟨h, List.forall_mem_singleton.mpr hs.2⟩
  · rw [hhalt] at hadd
    cases hadd

theorem guardedAddAll_within (c : Catalog) {ss : List (Except Misplaced Symbol)} (hss : ∀ s, .ok s ∈ ss → s.IsOwn)
    (h : scope.IsOwn) : (c.within scope).guardedAddAll ss = .ok (c.within (scope.addAll ss).1, (scope.addAll ss).2)
      ∧ (scope.addAll ss).1.IsOwn := by
  induction ss generalizing scope with
  | nil => exact ⟨rfl, h⟩
  | cons s ss ih =>
    cases s with
    | error m => exact ⟨rfl, h⟩
    | ok s =>
      have hs : s.IsOwn := hss s List.mem_cons_self
      have hadd : (Except.ok s : Except Misplaced Symbol).mapError Halt.misplaced >>= scope.add = scope.add s := rfl
      rw [guardedAddAll, LocalScope.addAll, guardedAdd_within c scope hs, hadd]
      cases hscope : scope.add s with
      | error halt => exact ⟨rfl, h⟩
      | ok scope' => exact ih (fun x hx => hss x (List.mem_cons_of_mem _ hx)) (isOwn_of_add h hs hscope)

end Catalog

/-- What a function declares in front of its body. -/
theorem FuncDecl.isOwn_of_mem_headSymbols {d : FuncDecl} {s : Signature} {x : Symbol} (h : .ok x ∈ d.headSymbols s) :
    x.IsOwn := by
  obtain ⟨hlevel, hkind, -⟩ := mem_headSymbols h
  refine ⟨hlevel, fun hconst => ?_⟩
  rw [hconst] at hkind
  cases hkind with
  | inl h | inr h => cases h

/-! ## Reading declarations -/

namespace Stmt

/-- Declares what statements declare, the first of which has number `n`: the catalog with the scope, how many statements
were read, and why no more. -/
def guardedCollect (c : Catalog) (n : Nat) : List Stmt → Except Breach (Catalog × Nat × Option Halt)
  | [] => return (c, n, none)
  | s :: ss => do
    c.checkIntegers
    match s.symbol? c n with
    | .error halt => return (c, n + 1, some halt)
    | .ok none => guardedCollect c (n + 1) ss
    | .ok (some symbol) =>
      match ← c.guardedAdd symbol with
      | .error halt => return (c, n + 1, some halt)
      | .ok c => guardedCollect c (n + 1) ss

variable {c : Catalog} {scope : LocalScope}

theorem isOwn_of_symbol? {s : Stmt} {n : Nat} {symbol : Symbol} (h : s.symbol? c n = .ok (some symbol)) : symbol.IsOwn := by
  cases s with
  | var d =>
    obtain ⟨t, -, h⟩ := Except.bind_eq_ok.mp h
    obtain rfl := Option.some.inj (Except.ok.inj h)
    exact ⟨rfl, nofun⟩
  | label name index span =>
    obtain rfl := Option.some.inj (Except.ok.inj h)
    exact ⟨rfl, nofun⟩
  | ifThen _ _ braces _ _ | whileDo _ _ braces _ => cases braces <;> exact nomatch h
  | assign _ _ _ | call _ _ | breakLoop _ | continueLoop _ | goto _ _ _ | block _ _ | foreign _ => exact nomatch h

theorem guardedCollect_within (h : c.HasIntegers) (hscope : scope.IsOwn) (n : Nat) (ss : List Stmt) :
    guardedCollect (c.within scope) n ss
        = .ok (c.within (collect c scope n ss).scope, (collect c scope n ss).count, (collect c scope n ss).halt)
      ∧ (collect c scope n ss).scope.IsOwn := by
  induction ss generalizing scope n with
  | nil => exact ⟨rfl, hscope⟩
  | cons s ss ih =>
    rw [guardedCollect, collect, Catalog.checkIntegers_within h hscope]
    simp only [bind, Except.bind]
    cases hs : s.symbol? (c.within scope) n with
    | error halt => exact ⟨rfl, hscope⟩
    | ok symbol? =>
      cases symbol? with
      | none => exact ih hscope (n + 1)
      | some symbol =>
        have hown := isOwn_of_symbol? hs
        dsimp only
        rw [Catalog.guardedAdd_within c scope hown]
        cases hadd : scope.add symbol with
        | error halt => exact ⟨rfl, hscope⟩
        | ok scope' => exact ih (Catalog.isOwn_of_add hscope hown hadd) (n + 1)

/-- Unless there is a halt, all statements are read. -/
theorem count_collect {n : Nat} {ss : List Stmt} (h : (collect c scope n ss).halt = none) :
    (collect c scope n ss).count = n + ss.length := by
  induction ss generalizing scope n with
  | nil => rfl
  | cons s ss ih =>
    have hcount : n + (s :: ss).length = n + 1 + ss.length := by
      rw [List.length_cons, Nat.add_assoc, Nat.add_comm 1]
    rw [collect] at h ⊢
    rw [hcount]
    split at h
    · cases h
    · exact ih h
    · split at h
      · cases h
      · exact ih h

end Stmt

/-! ## Bodies -/

namespace FuncDecl

/-- The work on a function whose scope is open: the catalog behind it, the function as it has become, the statements that
were read, and the halt that ended the work, if one did. -/
def guardedWork (b : Builtins) (c : Catalog) (s : Signature) (d : FuncDecl) :
    Except Breach (Catalog × FuncDecl × List Stmt × Option Halt) := do
  match ← c.guardedAddAll (d.headSymbols s) with
  | (c, some halt) => return (c, d, [], some halt)
  | (c, none) =>
    match d.braces.misplaced? with
    | some m => return (c, d, [], some (.misplaced m))
    | none =>
      let (c, count, halt) ← Stmt.guardedCollect c 0 (Stmt.flattenAll d.body)
      let body := Stmt.numberAll count 0 d.body
      let worked (body : List Stmt) (halt : Option Halt) : Catalog × FuncDecl × List Stmt × Option Halt :=
        (c, { d with body }, (Stmt.flattenAll body).take count, halt)
      match halt with
      | some halt => return worked body (some halt)
      | none =>
        c.checkIntegers
        match ← Stmt.guardedCheckAll ⟨b, c, d.name⟩ ((Stmt.addressesAll [] 0 d.body).take count) 0 [] 0 body with
        | .ok body => return worked body none
        | .error (halt, body) => return worked body (some halt)

/-- Resolves the body of a function. The function comes back with what its body has become, and the catalog with the
scope of the function among the finished ones. -/
def guardedBody (b : Builtins) (c : Catalog) (s : Signature) (d : FuncDecl) : Except Breach (FuncDecl × Entered × Catalog) := do
  let c ← (c.enter d.name).mapError Breach.refused
  let (c, d, statements, halt) ← d.guardedWork b c s
  let (scope, c) ← c.leave.mapError Breach.refused
  match halt with
  | none => return (d, { scope, statements }, c)
  | some halt =>
    let problem ← halt.report.mapError Breach.misplaced
    return (d, { scope, statements, problem := some problem }, c)

variable {b : Builtins} {c : Catalog} {s : Signature} {d d' : FuncDecl} {e : Entered}

theorem guardedWork_within (h : c.HasIntegers) :
    d.guardedWork b (c.within { function := d.name }) s
      = .ok (c.within (d.work b c s).scope, (d.work b c s).decl, (d.work b c s).statements, (d.work b c s).halt) := by
  have hhead : ∀ x, .ok x ∈ d.headSymbols s → x.IsOwn := fun _ hx => d.isOwn_of_mem_headSymbols hx
  have hempty : LocalScope.IsOwn { function := d.name } := List.forall_mem_nil _
  obtain ⟨hadd, hown⟩ := Catalog.guardedAddAll_within c hhead hempty
  rw [guardedWork, work, hadd]
  simp only [bind, Except.bind]
  generalize LocalScope.addAll { function := d.name } (d.headSymbols s) = added at hown ⊢
  obtain ⟨scope, halt⟩ := added
  cases halt with
  | some halt => rfl
  | none =>
    dsimp only
    cases d.braces.misplaced? with
    | some m => rfl
    | none =>
      obtain ⟨hcollect, hscope⟩ := Stmt.guardedCollect_within h hown 0 (Stmt.flattenAll d.body)
      have hcount : (Stmt.collect c scope 0 (Stmt.flattenAll d.body)).halt = none →
          (Stmt.collect c scope 0 (Stmt.flattenAll d.body)).count = 0 + (Stmt.flattenAll d.body).length := Stmt.count_collect
      simp only [hcollect, workStatements]
      generalize Stmt.collect c scope 0 (Stmt.flattenAll d.body) = collected at hscope hcount ⊢
      obtain ⟨scope', count, halt⟩ := collected
      cases halt with
      | some halt => rfl
      | none =>
        -- All statements were read, and so each is found under its address.
        have hcount : count = 0 + (Stmt.flattenAll d.body).length := hcount rfl
        have hlength : (Stmt.addressesAll [] 0 d.body).length ≤ count := by
          rw [hcount, Stmt.length_addressesAll, Stmt.length_flattenAll, Nat.zero_add]
        have hread : Stmt.addressesAll [] 0 (Stmt.numberAll count 0 d.body)
            <+: ((Stmt.addressesAll [] 0 d.body).take count).drop 0 := by
          rw [Stmt.addressesAll_numberAll, List.take_of_length_le hlength]
          exact List.prefix_rfl
        have hchecked := Stmt.guardedCheckAll_eq (s := ⟨b, c.within scope', d.name⟩) rfl
          ((List.take_sublist _ _).nodup (Stmt.nodup_addressesAll [] 0 d.body)) 0 0 [] 0 _ hread
        dsimp only at hscope ⊢
        rw [Catalog.checkIntegers_within h hscope, hchecked]
        cases Stmt.checkAll ⟨b, c.within scope', d.name⟩ 0 0 (Stmt.numberAll count 0 d.body) <;> rfl

/-- If no scope is open, the body of a function is resolved as it is without the catalog. -/
theorem guardedBody_eq (h : c.HasIntegers) (hc : c.current = none) (hbody : d.resolveBody b c s = .ok (d', e)) :
    d.guardedBody b c s = .ok (d', e, { c with finished := Catalog.finish c.finished e.scope }) := by
  have henter : c.enter d.name = .ok (c.within { function := d.name }) := by rw [Catalog.enter, hc]
  have hleave (scope : LocalScope) : (c.within scope).leave
      = .ok (scope, { c with finished := Catalog.finish c.finished scope }) := by
    obtain ⟨globals, structs, finished, current⟩ := c
    obtain rfl : current = none := hc
    rfl
  rw [resolveBody_eq] at hbody
  rw [guardedBody, henter]
  simp only [Except.mapError, bind, Except.bind, guardedWork_within h, hleave]
  rw [Worked.report] at hbody
  cases hhalt : (d.work b c s).halt with
  | none =>
    rw [hhalt] at hbody
    obtain ⟨rfl, rfl⟩ := Prod.mk.inj (Except.ok.inj hbody)
    rfl
  | some halt =>
    rw [hhalt] at hbody
    dsimp only at hbody ⊢
    cases hreport : halt.report with
    | ok problem =>
      rw [hreport] at hbody
      obtain ⟨rfl, rfl⟩ := Prod.mk.inj (Except.ok.inj hbody)
      rfl
    | error m =>
      rw [hreport] at hbody
      cases hbody

end FuncDecl

end FlatScope
