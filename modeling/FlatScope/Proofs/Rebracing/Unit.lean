/-
  Blocks carry no scope (`Program.resolve_rebraced`). A unit in which a block is opened is told the same about: each statement
  that is left is found under its new number with the same notes, and labels and jumps go along with the statements
  (`Stmt.AreLinked.remaining`). A unit in which the `if` behind an `else` gets braces of its own is the same apart from the
  nesting of its statements (`Resolution.flat_rebrace_wrapping`).
-/
import FlatScope.Proofs.Rebracing.Run

namespace FlatScope

variable {ρ : Rebracing} {n : Nat}

/-! ## Statements by themselves -/

namespace Stmt

/-- A statement without the statements inside it. -/
def surface : Stmt → Stmt
  | .ifThen c _ braces _ span => .ifThen c [] braces none span
  | .whileDo c _ braces span => .whileDo c [] braces span
  | .block _ span => .block [] span
  | s => s

/-- A statement whose own notes follow the numbers in other braces. -/
def renumber (ρ : Rebracing) : Stmt → Stmt
  | .assign t v span => .assign (t.renumber ρ) (v.renumber ρ) span
  | .call c span => .call (c.renumber ρ) span
  | .ifThen c body braces otherwise span => .ifThen (c.renumber ρ) body braces otherwise span
  | .whileDo c body braces span => .whileDo (c.renumber ρ) body braces span
  | .label name index span => .label name (index.map ρ.number) span
  | .goto name target span => .goto name (target.map ρ.number) span
  | s => s

def Outline.renumber (ρ : Rebracing) : Outline → Outline
  | label name index => label name (index.map ρ.number)
  | goto name target => goto name (target.map ρ.number)
  | o => o

theorem surface_rebraced (h : ρ.opens n = false) (s : Stmt) : (s.rebraced ρ n).surface = s.surface.renumber ρ := by
  cases s with
  | block body span =>
    rw [rebraced_block h]
    rfl
  | var _ | assign _ _ _ | call _ _ | ifThen _ _ _ _ _ | whileDo _ _ _ _ | breakLoop _ | continueLoop _ | label _ _ _
  | goto _ _ _ | foreign _ => rfl

theorem outline_rebraced (h : ρ.opens n = false) (s : Stmt) : (s.rebraced ρ n).outline = s.outline.renumber ρ := by
  cases s with
  | block body span =>
    rw [rebraced_block h]
    rfl
  | var _ | assign _ _ _ | call _ _ | ifThen _ _ _ _ _ | whileDo _ _ _ _ | breakLoop _ | continueLoop _ | label _ _ _
  | goto _ _ _ | foreign _ => rfl

end Stmt

theorem Rebracing.Fits.isBlock {ss : List Stmt} (h : ρ.Fits n ss) {j : Nat} {s : Stmt} (hs : ss[j]? = some s)
    (ho : ρ.opens (n + j) = true) : s.isBlock = true := by
  induction ss generalizing n j with
  | nil => cases hs
  | cons x xs ih =>
    cases j with
    | zero =>
      obtain rfl := Option.some.inj hs
      exact h.1 ho
    | succ j =>
      refine ih h.2 hs ?_
      rwa [Nat.add_assoc, Nat.add_comm 1]

theorem Rebracing.Fits.take {ss : List Stmt} (h : ρ.Fits n ss) (m : Nat) : ρ.Fits n (ss.take m) := by
  rw [← List.take_append_drop m ss] at h
  exact (fits_append.mp h).1

namespace Stmt

/-- What is left of statements comes from statements that are not opened. -/
theorem exists_of_getElem?_remaining {ss : List Stmt} {m : Nat} {t : Stmt} (h : (remaining ρ n ss)[m]? = some t) :
    ∃ j s, ss[j]? = some s ∧ ρ.opens (n + j) = false ∧ ρ.number (n + j) = ρ.number n + m ∧ t = s.rebraced ρ (n + j) := by
  induction ss generalizing n m with
  | nil => cases h
  | cons s ss ih =>
    have hbehind {m' : Nat} (h : (remaining ρ (n + 1) ss)[m']? = some t) : ∃ j s', (s :: ss)[j]? = some s' ∧ ρ.opens (n + j) = false
        ∧ ρ.number (n + j) = ρ.number (n + 1) + m' ∧ t = s'.rebraced ρ (n + j) := by
      obtain ⟨j, s', hs', hj⟩ := ih h
      rw [Nat.add_assoc, Nat.add_comm 1] at hj
      exact ⟨j + 1, s', hs', hj⟩
    cases ho : ρ.opens n with
    | true =>
      rw [remaining_cons_of_opens ho] at h
      rw [← Rebracing.number_succ_of_opens ho]
      exact hbehind h
    | false =>
      rw [remaining_cons ho] at h
      cases m with
      | zero => exact ⟨0, s, rfl, ho, rfl, (Option.some.inj h).symm⟩
      | succ m =>
        obtain ⟨j, s', hs', hj, hnumber, ht⟩ := hbehind h
        refine ⟨j, s', hs', hj, ?_, ht⟩
        rw [hnumber, Rebracing.number_succ ho, Nat.add_assoc, Nat.add_comm 1]

/-- Labels and jumps of statements go along with the statements. -/
theorem AreLinked.remaining {ss : List Stmt} (h : AreLinked ss) (hfits : ρ.Fits 0 ss) : AreLinked (remaining ρ 0 ss) := by
  have hback {m : Nat} {o : Outline} (ho : ((Stmt.remaining ρ 0 ss).map outline)[m]? = some o) :
      ∃ n o', (ss.map outline)[n]? = some o' ∧ ρ.number n = m ∧ o = o'.renumber ρ := by
    rw [List.getElem?_map, Option.map_eq_some_iff] at ho
    obtain ⟨t, ht, rfl⟩ := ho
    obtain ⟨n, s, hs, hopens, hnumber, rfl⟩ := exists_of_getElem?_remaining ht
    rw [Rebracing.number, Nat.zero_add, Nat.zero_add] at hnumber
    exact ⟨n, s.outline, by rw [List.getElem?_map, hs, Option.map_some], hnumber, outline_rebraced hopens s⟩
  refine ⟨fun m name index hm => ?_, fun m name target hm => ?_⟩
  · obtain ⟨n, o, ho, rfl, hrenumber⟩ := hback hm
    cases o with
    | label name' index' =>
      obtain ⟨rfl, rfl⟩ := Outline.label.inj hrenumber
      rw [h.label n name index' ho, Option.map_some]
    | block | goto _ _ | other => cases hrenumber
  · obtain ⟨n, o, ho, rfl, hrenumber⟩ := hback hm
    cases o with
    | goto name' target' =>
      obtain ⟨rfl, htarget⟩ := Outline.goto.inj hrenumber
      obtain ⟨t, rfl, rfl⟩ := Option.map_eq_some_iff.mp htarget.symm
      have hlabel := h.goto n name t ho
      rw [List.getElem?_map, Option.map_eq_some_iff] at hlabel
      obtain ⟨s, hs, hso⟩ := hlabel
      have hopens : ρ.opens t = false := by
        refine Bool.eq_false_iff.mpr fun hopens => ?_
        have hblock := hfits.isBlock hs (by rwa [Nat.zero_add])
        cases s with
        | block _ _ => cases hso
        | var _ | assign _ _ _ | call _ _ | ifThen _ _ _ _ _ | whileDo _ _ _ _ | breakLoop _ | continueLoop _ | label _ _ _
        | goto _ _ _ | foreign _ => cases hblock
      rw [List.getElem?_map, getElem?_remaining hopens, hs, Option.map_some, Option.map_some, outline_rebraced hopens, hso]
      rfl
    | block | label _ _ | other => cases hrenumber

end Stmt

/-! ## What comes of a body -/

/-- A function in other braces has come to what the function has come to. -/
structure Entered.Keeps (ρ : Rebracing) (e e' : Entered) : Prop where
  /-- The scope has the same symbols, with the numbers that the statements that declare them have in other braces. -/
  scope : e'.scope = e.scope.renumber ρ
  problem : e'.problem.map Problem.diagnostic = e.problem.map Problem.diagnostic
  /-- Only blocks are opened, and any other statement is there under its new number, with the same notes. -/
  opened : ∀ n s, e.statements[n]? = some s → ρ.opens n = true → s.isBlock = true
  statements : ∀ n, ρ.opens n = false →
    e'.statements[ρ.number n]?.map Stmt.surface = e.statements[n]?.map fun s => s.surface.renumber ρ
  /-- Each label has its own number, and each jump the number of the label that it names, before and after. -/
  linked : Stmt.AreLinked e.statements
  relinked : Stmt.AreLinked e'.statements

theorem Entered.keeps_rebrace {e : Entered} (hlinked : Stmt.AreLinked e.statements) (hfits : ρ.Fits 0 e.statements) :
    e.Keeps ρ (e.rebrace ρ) where
  scope := rfl
  problem := by
    rw [rebrace, Option.map_map]
    exact congrArg (e.problem.map ·) (funext (Problem.diagnostic_renumber ρ))
  opened n s hs ho := hfits.isBlock hs (by rwa [Nat.zero_add])
  statements n ho := by
    rw [rebrace, Stmt.getElem?_remaining ho, Option.map_map]
    exact congrArg (e.statements[n]?.map ·) (funext (Stmt.surface_rebraced ho))
  linked := hlinked
  relinked := hlinked.remaining hfits

/-- What has been read of a body has blocks where the body has them. -/
theorem FuncDecl.fits_work {d : FuncDecl} (h : ρ.Fits 0 (Stmt.flattenAll d.body)) (b : Builtins) (c : Catalog) (s : Signature) :
    ρ.Fits 0 (d.work b c s).statements := by
  unfold work
  split
  · trivial
  · split
    · trivial
    · rename_i scope _ _ _
      generalize Stmt.collect c scope 0 (Stmt.flattenAll d.body) = collected
      have hnumbered : ρ.Fits 0 (Stmt.flattenAll (Stmt.numberAll collected.count 0 d.body)) :=
        (Rebracing.fits_congr (Stmt.map_isBlock_numberAll collected.count 0 d.body)).mpr h
      unfold workStatements
      dsimp only
      split
      · exact hnumbered.take collected.count
      · have hchecked := (Rebracing.fits_congr (Stmt.map_isBlock_checkAll ⟨b, c.within collected.scope, d.name⟩ 0 0 _)).mpr hnumbered
        split
        all_goals
          rename_i hc
          rw [hc] at hchecked
          exact hchecked.take collected.count

/-- What is known of a function whose name a declaration has got has come of the body of the declaration. -/
theorem Program.Runs.entered {b : Builtins} {p : Program} {p₁ p₂ p₃ p₄ p₅ p₆ : Progress} {es₁ es₂ es₃ es₄ es₅ es₆ : List Entry}
    (h : p.Runs b p₁ p₂ p₃ p₄ p₅ p₆ es₁ es₂ es₃ es₄ es₅ es₆) {i : Nat} {d : FuncDecl} (hd : p.decls[i]? = some (.func d))
    (hheld : es₆[i]?.bind Entry.holds? = some d.name) :
    ∀ f ∈ p₆.functions, f.name = d.name → ∀ e, f.entered = some e → ∃ c s d', d.resolveBody b c s = .ok (d', e) := by
  obtain ⟨failure, he⟩ := h.func hd
  have hregistered : Entry.IsRegistered ⟨.func d, failure⟩ := by
    intro problem hproblem
    rw [Phase.heldBy?_run h.bodies he, Entry.holds?_of_registration hproblem] at hheld
    cases hheld
  obtain ⟨as, bs, rfl, rfl⟩ := Entry.exists_append he
  have hbodies : ∀ e ∈ as ++ ⟨.func d, failure⟩ :: bs, e.failure = none → e.decl = .func d ∨ e.decl.name? ≠ some d.name := by
    obtain ⟨has, hbs⟩ := List.forall_mem_append.mp (Entry.name?_ne_of_pairwise h.pairwise hregistered)
    exact List.forall_mem_append.mpr ⟨fun e he hf => .inr (has e he hf),
      List.forall_mem_cons.mpr ⟨fun _ => .inl rfl, fun e he hf => .inr (hbs e he hf)⟩⟩
  let Q (q : Progress) : Prop :=
    ∀ f ∈ q.functions, f.name = d.name → ∀ e, f.entered = some e → ∃ c s d', d.resolveBody b c s = .ok (d', e)
  have henter (q : Progress) (hq : Q q) (name : String) (e : Entered)
      (he : name = d.name → ∃ c s d', d.resolveBody b c s = .ok (d', e)) : Q (q.enter name e) := by
    refine List.forall_mem_map.mpr fun f hf => ?_
    split
    · rename_i hname
      intro hd e' he'
      obtain rfl := Option.some.inj he'
      exact he (hname.symm.trans hd)
    · exact hq f hf
  have hkept : Q p₆ ∧ ∀ e ∈ es₆, True := by
    refine Phase.keeps_run (fun _ _ _ => trivial) (fun q d₀ q' d' problem hq hd₀ hone => ⟨?_, trivial⟩) h.bodies ?_ hbodies
    · cases d₀ with
      | func g =>
        obtain ⟨-, rfl, -, -⟩ | ⟨s, g', e, -, hbody, rfl, -, -⟩ := Step.body_eq_ok.mp hone
        · exact hq
        · refine henter q hq g.name e fun hname => ?_
          obtain hg | hg := hd₀ rfl
          · obtain rfl := Decl.func.inj hg
            exact ⟨q.catalog, s, g', hbody⟩
          · exact absurd (congrArg some hname) hg
      | const _ | var _ | struct _ | foreign _ =>
        obtain ⟨rfl, -, -⟩ := Step.done_eq_ok hone
        exact hq
    · intro f hf _ e he
      rw [h.isFresh.waiting f hf] at he
      cases he
  exact hkept.1

/-! ## What users see -/

/-- A symbol whatever statement declares it. -/
def Symbol.unordered (s : Symbol) : Symbol := { s with order := -1 }

def LocalScope.unordered (s : LocalScope) : LocalScope := ⟨s.function, s.symbols.map Symbol.unordered⟩

theorem LocalScope.unordered_renumber (s : LocalScope) : (s.renumber ρ).unordered = s.unordered := by
  rw [renumber, unordered, List.map_map]
  rfl

/-- What does not tell an item from what becomes of it does not tell the lists apart. -/
theorem map_modify {α β : Type} {f : α → β} {g : α → α} (h : ∀ a, f (g a) = f a) (xs : List α) (i : Nat) :
    (xs.modify i g).map f = xs.map f := by
  induction xs generalizing i with
  | nil => rw [List.modify_nil]
  | cons x xs ih =>
    cases i with
    | zero => rw [List.modify_zero_cons, List.map_cons, List.map_cons, h]
    | succ i => rw [List.modify_succ_cons, List.map_cons, List.map_cons, ih]

theorem Entry.diagnostic_rebrace (phase : Phase) (e : Entry) :
    ((e.rebrace ρ).problemIn? phase).map Problem.diagnostic = (e.problemIn? phase).map Problem.diagnostic := by
  obtain ⟨d, failure⟩ := e
  cases failure with
  | none => rfl
  | some failure =>
    obtain ⟨found, q⟩ := failure
    have hsame (q' : Problem) (h : q'.diagnostic = q.diagnostic) :
        (problemIn? phase ⟨d, some (found, q')⟩).map Problem.diagnostic = (problemIn? phase ⟨d, some (found, q)⟩).map Problem.diagnostic := by
      rw [problemIn?, problemIn?, Option.filter_some, Option.filter_some]
      split
      · exact congrArg some h
      · rfl
    rw [rebrace, Option.map_some]
    split
    · exact hsame _ (q.diagnostic_renumber ρ)
    · exact hsame q rfl

namespace Resolution

/-- A resolved unit is the same as another one as far as users are told of it, and its scopes are the same but for the
numbers of statements. -/
structure LooksAs (r r' : Resolution) : Prop where
  diagnostics : r'.problems.map Problem.diagnostic = r.problems.map Problem.diagnostic
  globals : r'.catalog.globals = r.catalog.globals
  structs : r'.catalog.structs = r.catalog.structs
  scopes : r'.catalog.finished.map LocalScope.unordered = r.catalog.finished.map LocalScope.unordered
  functions : r'.functions.map (fun f => (f.name, f.signature, f.state)) = r.functions.map fun f => (f.name, f.signature, f.state)

variable {α : Type} {i : Nat} {r : Resolution}

theorem map_finished_rebrace {f : LocalScope → α} (h : ∀ s, f (s.renumber ρ) = f s) :
    (r.rebrace ρ i).catalog.finished.map f = r.catalog.finished.map f := by
  unfold rebrace
  dsimp only
  cases r.heldBy? i with
  | none => rfl
  | some name =>
    rw [Option.elim_some, List.map_map]
    refine List.map_congr_left fun s _ => ?_
    rw [Function.comp_apply, LocalScope.renumberOf]
    split
    · exact h s
    · rfl

theorem map_functions_rebrace {g : FunctionInfo → α} (h : ∀ f, g (f.rebrace ρ) = g f) :
    (r.rebrace ρ i).functions.map g = r.functions.map g := by
  unfold rebrace
  dsimp only
  cases r.heldBy? i with
  | none => rfl
  | some name =>
    rw [Option.elim_some, List.map_map]
    refine List.map_congr_left fun f _ => ?_
    rw [Function.comp_apply, FunctionInfo.rebraceOf]
    split
    · exact h f
    · rfl

end Resolution

theorem FunctionInfo.state_rebrace (f : FunctionInfo) : (f.rebrace ρ).state = f.state := by
  obtain ⟨name, signature, entered⟩ := f
  cases entered with
  | none => rfl
  | some e =>
    rw [state, state, rebrace, Option.map_some]
    dsimp only
    rw [Entered.rebrace, Option.isNone_map]

namespace Resolution

theorem looksAs_rebrace (ρ : Rebracing) (i : Nat) (r : Resolution) : r.LooksAs (r.rebrace ρ i) where
  diagnostics := by
    rw [problems, problems, List.map_flatMap, List.map_flatMap]
    refine congrArg (Phase.all.flatMap ·) (funext fun phase => ?_)
    have hmap (es : List Entry) : (es.filterMap (Entry.problemIn? phase)).map Problem.diagnostic
        = (es.map fun e => (e.problemIn? phase).map Problem.diagnostic).filterMap id := by
      rw [List.map_filterMap, List.filterMap_map]
      rfl
    rw [hmap, hmap]
    exact congrArg (List.filterMap id) (map_modify (Entry.diagnostic_rebrace phase) r.entries i)
  globals := rfl
  structs := rfl
  scopes := map_finished_rebrace LocalScope.unordered_renumber
  functions := map_functions_rebrace fun f => by
    rw [f.state_rebrace]
    rfl

end Resolution

/-! ## Braces around the statement behind an `else` -/

section Wrapping

variable (k : Nat) (span : Span)

theorem Rebracing.fits_wrapping (n : Nat) (ss : List Stmt) : (wrapping k span).Fits n ss := fits_of_forall fun _ _ _ ho => (nomatch ho)

theorem Symbol.renumber_wrapping (s : Symbol) : s.renumber (.wrapping k span) = s := by
  rw [renumber, Rebracing.order_wrapping]

theorem LocalScope.renumber_wrapping (s : LocalScope) : s.renumber (.wrapping k span) = s := by
  have hsame : Symbol.renumber (.wrapping k span) = id := funext (Symbol.renumber_wrapping k span)
  rw [renumber, hsame, List.map_id]

namespace Expr

mutual

theorem renumber_wrapping : (e : Expr) → e.renumber (.wrapping k span) = e
  | .ident name s i => by
    have hsame : Symbol.renumber (.wrapping k span) = id := funext (Symbol.renumber_wrapping k span)
    rw [renumber, hsame, Option.map_id, id]
  | .index b e i => by rw [renumber, renumber_wrapping b, renumber_wrapping e]
  | .field b name i => by rw [renumber, renumber_wrapping b]
  | .call c args i => by rw [renumber, renumber_wrapping c, renumberAll_wrapping args]
  | .composite es i => by rw [renumber, renumberAll_wrapping es]
  | .addrOf e i => by rw [renumber, renumber_wrapping e]
  | .int .. | .real .. | .byte .. | .typeArg .. | .foreign _ => rfl

theorem renumberAll_wrapping : (es : List Expr) → renumberAll (.wrapping k span) es = es
  | [] => rfl
  | e :: es => by rw [renumberAll, renumber_wrapping e, renumberAll_wrapping es]

end

end Expr

theorem Problem.renumber_wrapping (q : Problem) : q.renumber (.wrapping k span) = q := by
  obtain ⟨cause, at'⟩ := q
  cases cause with
  | duplicate d => rw [renumber, Cause.renumber, Duplicate.renumber, Symbol.renumber_wrapping]
  | _ => rfl

namespace Stmt

theorem renumber_wrapping (s : Stmt) : s.renumber (.wrapping k span) = s := by
  have hnumber : (Rebracing.wrapping k span).number = id := funext (Rebracing.number_wrapping k span)
  cases s with
  | assign t v _ => rw [renumber, Expr.renumber_wrapping, Expr.renumber_wrapping]
  | call c _ | ifThen c _ _ _ _ | whileDo c _ _ _ => rw [renumber, Expr.renumber_wrapping]
  | label _ _ _ | goto _ _ _ => rw [renumber, hnumber, Option.map_id, id]
  | var _ | breakLoop _ | continueLoop _ | block _ _ | foreign _ => rfl

/-- Statements are the same by themselves if braces are put around some of them. -/
theorem map_surface_remaining (n : Nat) (ss : List Stmt) :
    (remaining (.wrapping k span) n ss).map surface = ss.map surface := by
  induction ss generalizing n with
  | nil => rfl
  | cons s ss ih =>
    have ho : (Rebracing.wrapping k span).opens n = false := rfl
    rw [remaining_cons ho, List.map_cons, List.map_cons, ih, surface_rebraced ho, renumber_wrapping]

end Stmt

end Wrapping

/-! ## Units without nesting -/

/-- A declaration whose body is the list of its statements without nesting, if it is a function. -/
def Decl.flat : Decl → Decl
  | func d => func { d with body := (Stmt.flattenAll d.body).map Stmt.surface }
  | d => d

def FunctionInfo.flat (f : FunctionInfo) : FunctionInfo :=
  { f with entered := f.entered.map fun e => { e with statements := e.statements.map Stmt.surface } }

def Entry.flat (e : Entry) : Entry := { e with decl := e.decl.flat }

/-- A resolved unit without the nesting of its statements: each statement stands by itself under its number. -/
def Resolution.flat (r : Resolution) : Resolution :=
  { r with entries := r.entries.map Entry.flat, functions := r.functions.map FunctionInfo.flat }

section Wrapping

variable (k : Nat) (span : Span)

theorem Decl.flat_rebrace_wrapping (d : Decl) : (d.rebrace (.wrapping k span)).flat = d.flat := by
  cases d with
  | func d =>
    rw [rebrace, flat, flat, FuncDecl.rebrace, Stmt.flattenAll_rebraceAll 0 d.body (Rebracing.fits_wrapping k span 0 _),
      Stmt.map_surface_remaining]
  | const _ | var _ | struct _ | foreign _ => rfl

theorem FunctionInfo.flat_rebrace_wrapping (f : FunctionInfo) : (f.rebrace (.wrapping k span)).flat = f.flat := by
  obtain ⟨name, signature, entered⟩ := f
  cases entered with
  | none => rfl
  | some e =>
    have hproblem : Problem.renumber (.wrapping k span) = id := funext (Problem.renumber_wrapping k span)
    simp only [flat, rebrace, Entered.rebrace, Option.map_some, LocalScope.renumber_wrapping, hproblem, Option.map_id,
      Stmt.map_surface_remaining, id]

theorem Entry.flat_rebrace_wrapping (e : Entry) : (e.rebrace (.wrapping k span)).flat = e.flat := by
  have hsame : (fun f : Phase × Problem => if f.1 = .bodies then (f.1, f.2.renumber (.wrapping k span)) else f) = id := by
    funext f
    rw [Problem.renumber_wrapping]
    exact ite_self f
  rw [rebrace, flat, flat, Decl.flat_rebrace_wrapping, hsame, Option.map_id, id]

/-- In a unit in which the `if` behind an `else` gets braces of its own nothing changes but the nesting. -/
theorem Resolution.flat_rebrace_wrapping (i : Nat) (r : Resolution) : (r.rebrace (.wrapping k span) i).flat = r.flat := by
  have hentries : (r.rebrace (.wrapping k span) i).entries.map Entry.flat = r.entries.map Entry.flat :=
    map_modify (Entry.flat_rebrace_wrapping k span) r.entries i
  have hfinished : (r.rebrace (.wrapping k span) i).catalog.finished.map id = r.catalog.finished.map id :=
    map_finished_rebrace (LocalScope.renumber_wrapping k span)
  have hcatalog : (r.rebrace (.wrapping k span) i).catalog = r.catalog := by
    rw [List.map_id, List.map_id] at hfinished
    exact congrArg (fun finished => { r.catalog with finished }) hfinished
  rw [flat, flat, hentries, hcatalog, map_functions_rebrace (FunctionInfo.flat_rebrace_wrapping k span)]
  rfl

end Wrapping

theorem Resolution.problems_flat (r : Resolution) : r.flat.problems = r.problems := by
  refine congrArg (Phase.all.flatMap ·) (funext fun phase => ?_)
  rw [flat, List.filterMap_map]
  rfl

/-! ## Units -/

/-- A unit with a function in other braces has come to what the unit has come to. -/
structure Resolution.Keeps (ρ : Rebracing) (i : Nat) (r r' : Resolution) : Prop extends r.LooksAs r' where
  /-- The trees are the same in other braces, with the notes that go with the new numbers. -/
  rebraced : r' = r.rebrace ρ i
  /-- What came of the body stays what it was. -/
  body : ∀ f ∈ r.functions, r.heldBy? i = some f.name → ∀ e, f.entered = some e → e.Keeps ρ (e.rebrace ρ)

namespace Program

variable {b : Builtins} {p : Program} {r : Resolution} {i : Nat} {d : FuncDecl}

theorem keeps_rebrace (hr : p.resolve b = .ok r) (hd : p.decls[i]? = some (.func d)) (hunlinked : Stmt.AreUnlinked (Stmt.flattenAll d.body))
    (hfits : ρ.Fits 0 (Stmt.flattenAll d.body)) : r.Keeps ρ i (r.rebrace ρ i) where
  toLooksAs := r.looksAs_rebrace ρ i
  rebraced := rfl
  body := by
    obtain ⟨p₁, p₂, p₃, p₄, p₅, p₆, es₁, es₂, es₃, es₄, es₅, es₆, hruns, rfl⟩ := exists_runs hr
    intro f hf hheld e he
    have hname : d.name = f.name := by
      obtain ⟨failure, hentry⟩ := hruns.func hd
      have hholds : Entry.holds? ⟨.func d, failure⟩ = some f.name := (Phase.heldBy?_run hruns.bodies hentry).symm.trans hheld
      unfold Entry.holds? at hholds
      split at hholds
      · cases hholds
      · exact Option.some.inj hholds
    obtain ⟨c, s, d', hbody⟩ := hruns.entered hd (hname ▸ hheld) f hf hname.symm e he
    rw [FuncDecl.resolveBody_eq] at hbody
    obtain ⟨-, -, hstatements, -⟩ := Worked.report_eq_ok hbody
    refine Entered.keeps_rebrace ?_ ?_
    · rw [hstatements]
      exact FuncDecl.areLinked_work hunlinked
    · rw [hstatements]
      exact FuncDecl.fits_work hfits b c s

/-- Blocks carry no scope. If a block of a function is opened in a parsed unit, users are told the same, the scopes are the same but
for the numbers of statements, and each statement that is left has the same notes, where the numbers behind the block are one
less. If the `if` behind an `else` gets braces of its own, nothing changes at all but the nesting of statements. -/
theorem resolve_rebraced {source : String} {file : Option String} (h : ofSource source file = .ok p) (b : Builtins)
    (hd : p.decls[i]? = some (.func d)) :
    ∃ r, p.resolve b = .ok r
      ∧ (∀ k body span, (Stmt.flattenAll d.body)[k]? = some (.block body span) →
        (∀ n, (Rebracing.opening k).number n = if n ≤ k then n else n - 1)
          ∧ ∃ r', (p.rebrace (.opening k) i).resolve b = .ok r' ∧ r.Keeps (.opening k) i r')
      ∧ ∀ k span, ∃ r', (p.rebrace (.wrapping k span) i).resolve b = .ok r' ∧ r'.problems = r.problems ∧ r'.catalog = r.catalog
        ∧ r'.flat = r.flat ∧ r.Keeps (.wrapping k span) i r' := by
  obtain ⟨r, -, hr, -⟩ := exists_resolve (isWellFormed_of_ofSource h) b
  have hdecls : p.decls.map (Decl.strip true) = p.decls.map (Decl.strip false) := congrArg decls (strip_of_ofSource h)
  have hstrip := List.map_inj_left.mp hdecls _ (List.mem_of_getElem? hd)
  have hunlinked : Stmt.AreUnlinked (Stmt.flattenAll d.body) :=
    Stmt.areUnlinked_of_stripAll d.body (congrArg FuncDecl.body (Decl.func.inj hstrip))
  refine ⟨r, hr, fun k body span hk => ⟨Rebracing.number_opening k, r.rebrace (.opening k) i, ?_⟩,
    fun k span => ⟨r.rebrace (.wrapping k span) i, ?_⟩⟩
  · have hfits : (Rebracing.opening k).Fits 0 (Stmt.flattenAll d.body) := by
      refine Rebracing.fits_of_forall fun j s hs ho => ?_
      obtain rfl : j = k := by simpa [Rebracing.opening] using ho
      obtain rfl := Option.some.inj (hs.symm.trans hk)
      rfl
    exact ⟨resolve_rebrace hr hd hfits, keeps_rebrace hr hd hunlinked hfits⟩
  · have hfits : (Rebracing.wrapping k span).Fits 0 (Stmt.flattenAll d.body) := Rebracing.fits_wrapping k span 0 _
    have hflat := r.flat_rebrace_wrapping k span i
    have hcatalog : (r.rebrace (.wrapping k span) i).flat.catalog = r.flat.catalog := congrArg Resolution.catalog hflat
    refine ⟨resolve_rebrace hr hd hfits, ?_, hcatalog, hflat, keeps_rebrace hr hd hunlinked hfits⟩
    rw [← Resolution.problems_flat, hflat, Resolution.problems_flat]

/-- A function that jumps over an `else if` into a block, which declares a variable that is used behind it. -/
def jumpIntoBlock : String :=
  "fun f int(var n int) \x7b if n \x7b goto label done \x7d else if n \x7b n := result \x7d \x7b var x int label done \x7d result := x \x7d"

/-- The statements of the first function of a source by number. -/
def firstBody (source : String) : Option (List Stmt) :=
  (ofSource source).toOption.bind fun p => p.decls[0]?.bind fun
    | .func d => some (Stmt.flattenAll d.body)
    | _ => none

theorem resolve_rebraced_jump : ∃ p r, ofSource jumpIntoBlock = .ok p
      ∧ p.resolve = .ok r ∧ r.problems = []
      ∧ (∃ r', (p.rebrace (.opening 4) 0).resolve = .ok r' ∧ r.Keeps (.opening 4) 0 r')
      ∧ ∃ r', (p.rebrace (.wrapping 2 {}) 0).resolve = .ok r' ∧ r'.catalog = r.catalog ∧ r'.flat = r.flat := by
  have hkinds : problemKindsOf jumpIntoBlock = some [] := Program.bind_ofSource (by decide +kernel)
  have hblock : ((firstBody jumpIntoBlock).bind fun ss => ss[4]?.map Stmt.isBlock) = some true := by decide +kernel
  obtain ⟨p, r, hp, hr, hkinds⟩ := exists_of_problemKindsOf hkinds
  obtain ⟨ss, hss, hblock⟩ := Option.bind_eq_some_iff.mp hblock
  obtain ⟨s, hs, hblock⟩ := Option.map_eq_some_iff.mp hblock
  obtain ⟨q, hq, hss⟩ := Option.bind_eq_some_iff.mp hss
  obtain rfl := Except.ok.inj (hp.symm.trans (Except.toOption_eq_some_iff.mp hq))
  obtain ⟨decl, hdecl, hss⟩ := Option.bind_eq_some_iff.mp hss
  cases decl with
  | func d =>
    obtain rfl := Option.some.inj hss
    cases s with
    | block body span =>
      obtain ⟨r', hr', hopening, hwrapping⟩ := resolve_rebraced hp Builtins.standard hdecl
      obtain rfl := Except.ok.inj (hr.symm.trans hr')
      obtain ⟨r₂, hr₂, -, hcatalog, hflat, -⟩ := hwrapping 2 {}
      exact ⟨p, r, hp, hr, List.map_eq_nil_iff.mp hkinds, (hopening 4 body span hs).2, r₂, hr₂, hcatalog, hflat⟩
    | var _ | assign _ _ _ | call _ _ | ifThen _ _ _ _ _ | whileDo _ _ _ _ | breakLoop _ | continueLoop _ | label _ _ _
    | goto _ _ _ | foreign _ => cases hblock
  | const _ | var _ | struct _ | foreign _ => cases hss

end Program

end FlatScope
