/-
  Bodies are resolved as the rules say. Declaring symbols one after another succeeds exactly if their names are distinct,
  and reading the declarations of a body if its variables also have types; with the scope that comes of this the
  statements are checked. So the work on a well-formed function ends without a problem exactly if the function is
  typed (`FuncDecl.resolveBody_iff`).
-/
import FlatScope.Proofs.Resolution.Placed
import FlatScope.Proofs.Typing.Stmt

namespace FlatScope

/-! ## Declaring symbols -/

/-- What is known of a symbol without types and places: its name, its kind, and the number of its statement. -/
def Symbol.row (s : Symbol) : String × Symbol.Kind × Int := (s.name, s.kind, s.order)

/-- A symbol as a function has it. -/
def Symbol.owned (function : String) (s : Symbol) : Symbol := { s with owner := some function }

namespace LocalScope

variable {scope scope' : LocalScope} {s : Symbol} {halt : Halt}

/-- The names of a scope. -/
def names (scope : LocalScope) : List String := scope.symbols.map Symbol.name

/-- A scope with more symbols. -/
def extend (scope : LocalScope) (symbols : List Symbol) : LocalScope :=
  { scope with symbols := scope.symbols ++ symbols.map (Symbol.owned scope.function) }

theorem get?_eq_none_iff {name : String} : scope.get? name = none ↔ name ∉ scope.names := by
  rw [get?, Symbol.find?, List.find?_eq_none, names, List.mem_map]
  simp only [decide_eq_true_eq, not_exists, not_and]

/-- A symbol is added if its name is free; otherwise this is a problem. -/
theorem add_cases (scope : LocalScope) (s : Symbol) :
    (s.name ∉ scope.names ∧ scope.add s = .ok (scope.extend [s]))
      ∨ (s.name ∈ scope.names ∧ ∃ halt, scope.add s = .error halt ∧ halt.IsProblem) := by
  rw [add, declare]
  cases h : scope.get? s.name with
  | none => exact .inl ⟨get?_eq_none_iff.mp h, rfl⟩
  | some previous =>
    refine .inr ⟨?_, _, rfl, trivial⟩
    by_contra hn
    rw [get?_eq_none_iff.mpr hn] at h
    cases h

theorem names_extend (scope : LocalScope) (symbols : List Symbol) :
    (scope.extend symbols).names = scope.names ++ symbols.map Symbol.name := by
  rw [names, extend, List.map_append, List.map_map]
  rfl

theorem extend_extend (scope : LocalScope) (xs ys : List Symbol) :
    (scope.extend xs).extend ys = scope.extend (xs ++ ys) := by
  rw [extend, extend, extend, List.map_append, List.append_assoc]

theorem extend_nil (scope : LocalScope) : scope.extend [] = scope := by
  rw [extend, List.map_nil, List.append_nil]

theorem nodup_names_extend (scope : LocalScope) (h : scope.names.Nodup) (hs : s.name ∉ scope.names) : (scope.extend [s]).names.Nodup := by
  rw [names_extend, List.map_singleton, List.nodup_append]
  refine ⟨h, List.pairwise_singleton _ _, fun name hm name' hm' => ?_⟩
  rintro rfl
  rw [List.mem_singleton.mp hm'] at hm
  exact hs hm

/-- Symbols are declared one after another if their names are distinct. -/
theorem addAll_cases (symbols : List Symbol) (scope : LocalScope) (h : scope.names.Nodup) :
    ((scope.extend symbols).names.Nodup ∧ scope.addAll (symbols.map .ok) = (scope.extend symbols, none))
      ∨ (¬(scope.extend symbols).names.Nodup
        ∧ ∃ scope' halt, scope.addAll (symbols.map .ok) = (scope', some halt) ∧ halt.IsProblem) := by
  induction symbols generalizing scope with
  | nil => exact .inl ⟨by rwa [extend_nil], by rw [extend_nil]; rfl⟩
  | cons s symbols ih =>
    have hadd : (Except.ok s : Except Misplaced Symbol).mapError Halt.misplaced >>= scope.add = scope.add s := rfl
    rw [List.map_cons, addAll, hadd]
    obtain ⟨hs, hok⟩ | ⟨hs, halt, hhalt, hp⟩ := scope.add_cases s
    · have hextend : scope.extend (s :: symbols) = (scope.extend [s]).extend symbols := (extend_extend scope [s] symbols).symm
      rw [hok, hextend]
      exact ih _ (scope.nodup_names_extend h hs)
    · rw [hhalt]
      refine .inr ⟨fun hn => ?_, scope, halt, rfl, hp⟩
      rw [names_extend, List.map_cons] at hn
      exact (List.nodup_append.mp hn).2.2 _ hs _ List.mem_cons_self rfl

end LocalScope

/-! ## Collecting declarations -/

namespace Stmt

variable {Γ : Context} {function : String} {before locals : List Symbol} {n : Nat} {ss : List Stmt}

/-- The names of what is declared. -/
theorem Declare.names (h : Declare Γ function before n ss locals) :
    locals.map Symbol.name = before.map Symbol.name ++ ss.filterMap declared? := by
  induction h with
  | nil => rw [List.filterMap_nil, List.append_nil]
  | var _ _ ih =>
    rw [ih, List.map_append, List.append_assoc]
    rfl
  | label _ ih =>
    rw [ih, List.map_append, List.append_assoc]
    rfl
  | other hs _ ih => rw [ih, List.filterMap_cons_none hs]

variable {c : Catalog} {b : Builtins} {scope : LocalScope}

/-- What a well-formed statement declares: nothing, a symbol that the rules declare too, or nothing because its type
is a problem. -/
theorem symbol?_cases {s : Stmt} (hs : s.IsWellFormed) (h : scope.names.Nodup) (n : Nat) (ss : List Stmt) :
    (s.symbol? (c.within scope) n = .ok none
        ∧ ∀ locals, Declare ⟨b, c.globals, c.structs, []⟩ scope.function scope.symbols n (s :: ss) locals
          ↔ Declare ⟨b, c.globals, c.structs, []⟩ scope.function scope.symbols (n + 1) ss locals)
      ∨ (∃ symbol, s.symbol? (c.within scope) n = .ok (some symbol)
        ∧ ∀ locals, Declare ⟨b, c.globals, c.structs, []⟩ scope.function scope.symbols n (s :: ss) locals
          ↔ Declare ⟨b, c.globals, c.structs, []⟩ scope.function (scope.extend [symbol]).symbols (n + 1) ss locals)
      ∨ ∃ halt, s.symbol? (c.within scope) n = .error halt ∧ halt.IsProblem
        ∧ ∀ locals, ¬Declare ⟨b, c.globals, c.structs, []⟩ scope.function scope.symbols n (s :: ss) locals := by
  have hother : s.declared? = none → s.symbol? (c.within scope) n = .ok none →
      s.symbol? (c.within scope) n = .ok none
        ∧ ∀ locals, Declare ⟨b, c.globals, c.structs, []⟩ scope.function scope.symbols n (s :: ss) locals
          ↔ Declare ⟨b, c.globals, c.structs, []⟩ scope.function scope.symbols (n + 1) ss locals := by
    intro hd hsym
    refine ⟨hsym, fun locals => ⟨fun hl => ?_, .other hd⟩⟩
    cases hl with
    | var => cases hd
    | label => cases hd
    | other _ hl => exact hl
  cases s
  case var d =>
    have hresolve := fun t => d.type.resolve_eq_ok_iff (c := c.within scope) (n := n) h b false t
    cases hr : d.type.resolve (c.within scope) (some (n : Int)) false with
    | error halt =>
      refine .inr (.inr ⟨halt, ?_, d.type.isProblem_of_resolve (d.type.misplaced?_eq_none hs.2) hr, fun locals hl => ?_⟩)
      · rw [symbol?, hr]
        rfl
      · cases hl with
        | var ht _ =>
          have hok := (hresolve _).mpr ht
          rw [hr] at hok
          cases hok
        | other hd _ => cases hd
    | ok t =>
      have ht : Context.Denotes ⟨b, c.globals, c.structs, scope.symbols⟩ n false d.type t := (hresolve t).mp hr
      let symbol : Symbol := { name := d.name, kind := .var, level := .local, ty := some t, span := d.span, order := n }
      refine .inr (.inl ⟨symbol, ?_, fun locals => ⟨fun hl => ?_, fun hl => .var ht hl⟩⟩)
      · rw [symbol?, hr]
        rfl
      · cases hl with
        | var ht' hl =>
          have hok := (hresolve _).mpr ht'
          rw [hr] at hok
          obtain rfl := Except.ok.inj hok
          exact hl
        | other hd _ => cases hd
  case label name index span =>
    let symbol : Symbol := { name, kind := .label, level := .local, span, order := n }
    refine .inr (.inl ⟨symbol, rfl, fun locals => ⟨fun hl => ?_, fun hl => .label hl⟩⟩)
    cases hl with
    | label hl => exact hl
    | other hd _ => cases hd
  case ifThen condition body braces otherwise span =>
    cases braces with
    | around place => exact .inl (hother rfl rfl)
    | missing node => exact hs.2.2.1.elim
  case whileDo condition body braces span =>
    cases braces with
    | around place => exact .inl (hother rfl rfl)
    | missing node => exact hs.2.2.elim
  case foreign => exact hs.elim
  all_goals exact .inl (hother rfl rfl)

/-- The declarations of well-formed statements are read to the end if the rules declare symbols by them and the names
of these are distinct; otherwise reading them ends at a problem. -/
theorem collect_cases (b : Builtins) (ss : List Stmt) (hss : ∀ s ∈ ss, s.IsWellFormed) (scope : LocalScope)
    (h : scope.names.Nodup) (n : Nat) :
    (∃ locals, (∀ locals', Declare ⟨b, c.globals, c.structs, []⟩ scope.function scope.symbols n ss locals' ↔ locals' = locals)
        ∧ (locals.map Symbol.name).Nodup
        ∧ collect c scope n ss = { scope := { scope with symbols := locals }, count := n + ss.length })
      ∨ (∀ locals, Declare ⟨b, c.globals, c.structs, []⟩ scope.function scope.symbols n ss locals →
          ¬(locals.map Symbol.name).Nodup)
        ∧ ∃ halt, (collect c scope n ss).halt = some halt ∧ halt.IsProblem := by
  induction ss generalizing scope n with
  | nil =>
    refine .inl ⟨scope.symbols, fun locals => ⟨fun hl => ?_, fun hl => ?_⟩, h, rfl⟩
    · cases hl
      rfl
    · rw [hl]
      exact .nil
  | cons s ss ih =>
    obtain ⟨hs, hss⟩ := List.forall_mem_cons.mp hss
    have hcount : n + 1 + ss.length = n + (s :: ss).length := by
      rw [List.length_cons, Nat.add_assoc, Nat.add_comm 1]
    rw [collect]
    obtain ⟨hsym, hdeclare⟩ | ⟨symbol, hsym, hdeclare⟩ | ⟨halt, hsym, hp, hdeclare⟩ :=
      s.symbol?_cases (c := c) (b := b) hs h n ss
    · simp only [hsym, hdeclare]
      rw [← hcount]
      exact ih hss scope h (n + 1)
    · simp only [hsym, hdeclare]
      obtain ⟨hname, hadd⟩ | ⟨hname, halt, hadd, hp⟩ := scope.add_cases symbol
      · simp only [hadd]
        rw [← hcount]
        exact ih hss (scope.extend [symbol]) (scope.nodup_names_extend h hname) (n + 1)
      · simp only [hadd]
        refine .inr ⟨fun locals hl hn => ?_, halt, rfl, hp⟩
        have hnames := hl.names
        rw [hnames] at hn
        have hn := (List.nodup_append.mp hn).1
        have hn : (scope.extend [symbol]).names.Nodup := hn
        rw [LocalScope.names_extend, List.map_singleton] at hn
        exact (List.nodup_append.mp hn).2.2 _ hname _ List.mem_cons_self rfl
    · simp only [hsym]
      exact .inr ⟨fun locals hl => absurd hl (hdeclare locals), halt, rfl, hp⟩

/-! ## Numbers of labels -/

mutual

theorem size_number (bound n : Nat) : (s : Stmt) → (s.number bound n).size = s.size
  | .ifThen c body braces otherwise span => by
    rw [number, size, size, sizes_numberAll, elseSize_numberElse]
  | .whileDo c body braces span => by rw [number, size, size, sizes_numberAll]
  | .block body span => by rw [number, size, size, sizes_numberAll]
  | .var _ | .assign .. | .call .. | .breakLoop _ | .continueLoop _ | .label .. | .goto .. | .foreign _ => rfl

theorem elseSize_numberElse (bound n : Nat) : (o : Option Stmt) → elseSize (numberElse bound n o) = elseSize o
  | some (.ifThen c body braces otherwise span) => by
    rw [numberElse, elseSize, elseSize, sizes_numberAll, elseSize_numberElse]
  | some (.block body span) => by rw [numberElse, elseSize, elseSize, sizes_numberAll]
  | some (.var _) | some (.assign ..) | some (.call ..) | some (.whileDo ..) | some (.breakLoop _)
  | some (.continueLoop _) | some (.label ..) | some (.goto ..) | some (.foreign _) | none => rfl

theorem sizes_numberAll (bound n : Nat) : (ss : List Stmt) → sizes (numberAll bound n ss) = sizes ss
  | [] => rfl
  | s :: ss => by rw [numberAll, sizes, sizes, size_number bound n s, sizes_numberAll]

end

mutual

/-- Writing down the numbers of labels does not change whether statements are in order. -/
theorem isTyped_number (bound m n : Nat) (inLoop : Bool) : (s : Stmt) →
    ((s.number bound m).IsTyped Γ inLoop n ↔ s.IsTyped Γ inLoop n)
  | .ifThen c body braces otherwise span => by
    rw [number, IsTyped, IsTyped, sizes_numberAll, areTyped_numberAll bound _ _ inLoop body,
      elseTyped_numberElse bound _ _ inLoop otherwise]
  | .whileDo c body braces span => by rw [number, IsTyped, IsTyped, areTyped_numberAll bound _ _ true body]
  | .block body span => by rw [number, IsTyped, IsTyped, areTyped_numberAll bound _ _ inLoop body]
  | .var _ | .assign .. | .call .. | .breakLoop _ | .continueLoop _ | .label .. | .goto .. | .foreign _ => Iff.rfl

theorem elseTyped_numberElse (bound m n : Nat) (inLoop : Bool) : (o : Option Stmt) →
    (ElseTyped Γ inLoop n (numberElse bound m o) ↔ ElseTyped Γ inLoop n o)
  | some (.ifThen c body braces otherwise span) => by
    rw [numberElse, ElseTyped, ElseTyped, sizes_numberAll, areTyped_numberAll bound _ _ inLoop body,
      elseTyped_numberElse bound _ _ inLoop otherwise]
  | some (.block body span) => by rw [numberElse, ElseTyped, ElseTyped, areTyped_numberAll bound _ _ inLoop body]
  | some (.var _) | some (.assign ..) | some (.call ..) | some (.whileDo ..) | some (.breakLoop _)
  | some (.continueLoop _) | some (.label ..) | some (.goto ..) | some (.foreign _) | none => Iff.rfl

theorem areTyped_numberAll (bound m n : Nat) (inLoop : Bool) : (ss : List Stmt) →
    (AreTyped Γ inLoop n (numberAll bound m ss) ↔ AreTyped Γ inLoop n ss)
  | [] => Iff.rfl
  | s :: ss => by
    rw [numberAll, AreTyped, AreTyped, size_number, isTyped_number bound m n inLoop s,
      areTyped_numberAll bound _ _ inLoop ss]

end

end Stmt

/-! ## Bodies -/

namespace FuncDecl

variable {d : FuncDecl} {s : Signature}

/-- The symbols that a function has before its body, in rows: its result, unless it is `void`, and its parameters. -/
def headRows (d : FuncDecl) (s : Signature) : List (String × Symbol.Kind × Int) :=
  (if s.result = .void then [] else [(resultName, .result, -1)])
    ++ d.params.filterMap fun m => m.name.toOption.map fun name => (name, .param, -1)

/-- The names that a function declares before its body. -/
theorem map_fst_headRows (d : FuncDecl) (s : Signature) : (d.headRows s).map Prod.fst
    = (if s.result = .void then [] else [resultName]) ++ d.params.filterMap fun m => m.name.toOption := by
  have hparams : (d.params.filterMap fun m => m.name.toOption.map fun name => (name, Symbol.Kind.param, (-1 : Int))).map Prod.fst
      = d.params.filterMap fun m => m.name.toOption := by
    rw [List.map_filterMap]
    refine congrArg (fun g => d.params.filterMap g) (funext fun m => ?_)
    cases m.name.toOption <;> rfl
  rw [headRows, List.map_append, hparams]
  split <;> rfl

/-- The symbols of parameters have rows that depend on the names of the parameters only. -/
theorem exists_paramSymbols {g : String → Member → Ty → Symbol} (row : String → String × Symbol.Kind × Int)
    (hg : ∀ name m t, (g name m t).row = row name)
    (ms : List Member) (hms : ∀ m ∈ ms, ∃ param : Param, m = .param param ∧ param.IsWellFormed) (ts : List Ty) :
    ∃ symbols : List Symbol, List.zipWith (fun m t => m.name.map fun name => g name m t) ms ts = symbols.map .ok
      ∧ (ts.length = ms.length → symbols.map Symbol.row = ms.filterMap fun m => m.name.toOption.map row) := by
  induction ms generalizing ts with
  | nil => exact ⟨[], rfl, fun _ => rfl⟩
  | cons m ms ih =>
    cases ts with
    | nil => exact ⟨[], rfl, fun hl => nomatch hl⟩
    | cons t ts =>
      obtain ⟨⟨param, rfl, -⟩, hrest⟩ := List.forall_mem_cons.mp hms
      obtain ⟨symbols, hsymbols, hrows⟩ := ih hrest ts
      refine ⟨g param.name (.param param) t :: symbols, ?_, fun hl => ?_⟩
      · rw [List.zipWith_cons_cons, hsymbols]
        rfl
      · rw [List.map_cons, hg, hrows (Nat.succ.inj hl)]
        rfl

/-- What a well-formed function declares before its body are symbols. -/
theorem exists_headSymbols (h : d.IsWellFormed) (hs : s.params.length = d.params.length) :
    ∃ heads : List Symbol, d.headSymbols s = heads.map .ok ∧ heads.map Symbol.row = d.headRows s := by
  obtain ⟨symbols, hsymbols, hrows⟩ := exists_paramSymbols
    (g := fun name m t => { name, kind := .param, level := .local, ty := some t, span := m.span })
    (fun name => (name, .param, -1)) (fun _ _ _ => rfl) d.params h.2.2.1 s.params
  unfold headSymbols headRows
  dsimp only
  rw [hsymbols]
  by_cases hv : s.result = .void
  · rw [if_pos hv, if_pos hv]
    exact ⟨symbols, rfl, hrows hs⟩
  · rw [if_neg hv, if_neg hv]
    exact ⟨_ :: symbols, rfl, congrArg (List.cons (resultName, Symbol.Kind.result, -1)) (hrows hs)⟩

theorem headLocals_eq {heads : List Symbol} (h : d.headSymbols s = heads.map .ok) :
    d.headLocals s = (LocalScope.extend { function := d.name } heads).symbols := by
  have hheads : (heads.map (Except.ok : Symbol → Except Misplaced Symbol)).filterMap Except.toOption = heads := by
    rw [List.filterMap_map]
    exact List.filterMap_some
  rw [headLocals, h, hheads]
  rfl

/-- A function is typed if the rules declare symbols of distinct names among which its statements are in order. -/
theorem isTyped_iff {b : Builtins} {c : Catalog} {heads : List Symbol} (h : d.headSymbols s = heads.map .ok)
    (hnames : heads.map Symbol.name
      = (if s.result = .void then [] else [resultName]) ++ d.params.filterMap fun m => m.name.toOption) :
    d.IsTyped b c s ↔ ∃ locals, Stmt.Declare ⟨b, c.globals, c.structs, []⟩ d.name
        (LocalScope.extend { function := d.name } heads).symbols 0 (Stmt.flattenAll d.body) locals
      ∧ (locals.map Symbol.name).Nodup ∧ Stmt.AreTyped ⟨b, c.globals, c.structs, locals⟩ false 0 d.body := by
  have hlocals := headLocals_eq h
  have hscope : (LocalScope.extend { function := d.name } heads).symbols.map Symbol.name = heads.map Symbol.name :=
    LocalScope.names_extend { function := d.name } heads
  have hlocal : ∀ locals, Stmt.Declare ⟨b, c.globals, c.structs, []⟩ d.name
      (LocalScope.extend { function := d.name } heads).symbols 0 (Stmt.flattenAll d.body) locals →
      locals.map Symbol.name = d.localNames s := by
    intro locals hl
    rw [hl.names, hscope, hnames, localNames]
  constructor
  · rintro ⟨hd, locals, hl, ht⟩
    rw [hlocals] at hl
    exact ⟨locals, hl, hlocal locals hl ▸ hd, ht⟩
  · rintro ⟨locals, hl, hd, ht⟩
    refine ⟨hlocal locals hl ▸ hd, locals, ?_, ht⟩
    rw [hlocals]
    exact hl

/-- The work on a well-formed function ends without a problem exactly if the function is typed. -/
theorem resolveBody_iff (h : d.IsWellFormed) (hs : s.params.length = d.params.length) (b : Builtins) (c : Catalog) :
    ∃ d' entered, d.resolveBody b c s = .ok (d', entered) ∧ d'.name = d.name
      ∧ (entered.problem = none ↔ d.IsTyped b c s) := by
  obtain ⟨heads, hheads, hrows⟩ := exists_headSymbols h hs
  have hnames : heads.map Symbol.name
      = (if s.result = .void then [] else [resultName]) ++ d.params.filterMap fun m => m.name.toOption := by
    rw [← map_fst_headRows, ← hrows, List.map_map]
    rfl
  have hbraces : d.braces.misplaced? = none := h.2.2.2.2.misplaced?
  have hbody := Stmt.isWellFormed_of_mem_flattenAll d.body h.2.2.2.1
  rw [resolveBody, hheads, isTyped_iff hheads hnames]
  obtain ⟨hn, hadd⟩ | ⟨hn, scope, halt, hadd, hp⟩ :=
    LocalScope.addAll_cases heads { function := d.name } List.nodup_nil
  · rw [hadd, hbraces]
    obtain ⟨locals, hdeclare, hlocal, hcollect⟩ | ⟨hdeclare, halt, hhalt, hp⟩ :=
      Stmt.collect_cases (c := c) b _ hbody _ hn 0
    · -- The scope is that of the rules, and what is left is to check the statements in it.
      have hrules : (∃ locals', Stmt.Declare ⟨b, c.globals, c.structs, []⟩ d.name
            (LocalScope.extend { function := d.name } heads).symbols 0 (Stmt.flattenAll d.body) locals'
          ∧ (locals'.map Symbol.name).Nodup ∧ Stmt.AreTyped ⟨b, c.globals, c.structs, locals'⟩ false 0 d.body)
          ↔ Stmt.AreTyped ⟨b, c.globals, c.structs, locals⟩ false 0 d.body := by
        constructor
        · rintro ⟨locals', hl, -, ht⟩
          exact (hdeclare locals').mp hl ▸ ht
        · exact fun ht => ⟨locals, (hdeclare locals).mpr rfl, hlocal, ht⟩
      have hcheck : (∃ body, Stmt.checkAll ⟨b, c.within { function := d.name, symbols := locals }, d.name⟩ 0 0
            (Stmt.numberAll (0 + (Stmt.flattenAll d.body).length) 0 d.body) = .ok body)
          ↔ Stmt.AreTyped ⟨b, c.globals, c.structs, locals⟩ false 0 d.body := by
        have hdistinct : (c.within { function := d.name, symbols := locals }).IsDistinct := hlocal
        rw [Stmt.checkAll_iff hdistinct]
        exact Stmt.areTyped_numberAll _ 0 0 false d.body
      have hwf := Stmt.areWellFormed_numberAll (0 + (Stmt.flattenAll d.body).length) 0 d.body h.2.2.2.1
      rw [hrules, ← hcheck]
      simp only [hcollect]
      cases hc : Stmt.checkAll ⟨b, c.within { function := d.name, symbols := locals }, d.name⟩ 0 0
          (Stmt.numberAll (0 + (Stmt.flattenAll d.body).length) 0 d.body) with
      | ok body =>
        rw [LocalScope.extend, hc]
        exact ⟨_, _, rfl, rfl, iff_of_true rfl ⟨body, rfl⟩⟩
      | error e =>
        obtain ⟨problem, hproblem⟩ := (Stmt.isProblem_of_checkAll _ hwf hc).report
        rw [LocalScope.extend, hc]
        simp only [hproblem]
        exact ⟨_, _, rfl, rfl, iff_of_false nofun nofun⟩
    · obtain ⟨problem, hproblem⟩ := hp.report
      simp only [hhalt, hproblem]
      refine ⟨_, _, rfl, rfl, iff_of_false nofun ?_⟩
      rintro ⟨locals, hl, hd, -⟩
      exact hdeclare locals hl hd
  · obtain ⟨problem, hproblem⟩ := hp.report
    rw [hadd]
    simp only [hproblem]
    refine ⟨_, _, rfl, rfl, iff_of_false nofun ?_⟩
    rintro ⟨locals, hl, hd, -⟩
    rw [hl.names] at hd
    exact hn (List.nodup_append.mp hd).1

end FuncDecl

end FlatScope
