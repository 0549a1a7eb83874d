/-
  A registry beside a catalog that keeps its symbols by value. Asked the same, they answer the same
  (`IsFaithful.answer_of_grants`, `IsFaithful.answer_of_rejects`), and the catalog keeps every symbol as it stood when it
  was declared (`IsFaithful.catalog_run`). So they differ only where a symbol has been declared under two functions, and
  there in nothing but who owns it in the scope of the first.
-/
import FlatScope.Proofs.Ledger.History

namespace FlatScope

/-! ## Requests and answers by value -/

def Request.map {σ τ : Type} (f : σ → τ) : Request σ → Request τ
  | .declareGlobal s => .declareGlobal (f s)
  | .declareLocal s => .declareLocal (f s)
  | .enter function => .enter function
  | .leave => .leave
  | .lookup name at? => .lookup name at?
  | .lookupGlobal name => .lookupGlobal name
  | .lookupLabel name => .lookupLabel name

def Answer.map {σ τ : Type} (f : σ → τ) : Answer σ → Answer τ
  | .symbol found => .symbol (found.map f)
  | .scope function symbols => .scope function (symbols.map f)

namespace Catalog

/-- What a catalog answers to a request, with the catalog as it is then. -/
def answer (c : Catalog) : Request Symbol → Except Refusal (Answer Symbol × Catalog)
  | .declareGlobal s => return (.symbol s, ← c.declareGlobal s)
  | .declareLocal s => do
    let scope ← c.openScope
    return (.symbol (s.ownedBy scope.function), ← c.declareLocal s)
  | .enter function => return (.scope function [], ← c.enter function)
  | .leave => do
    let (scope, c) ← c.leave
    return (.scope scope.function scope.symbols, c)
  | .lookup name at? => return (.symbol (c.lookup name at?), c)
  | .lookupGlobal name => return (.symbol (c.lookupGlobal name), c)
  | .lookupLabel name => return (.symbol (← c.lookupLabel name), c)

/-- A catalog after a request. One that is refused leaves it as it is. -/
def serve (c : Catalog) (q : Request Symbol) : Catalog :=
  match c.answer q with
  | .ok (_, c) => c
  | .error _ => c

/-- A new catalog after requests. -/
def after (qs : List (Request Symbol)) : Catalog := qs.foldl serve {}

variable {c : Catalog} {scope : LocalScope} {s previous : Symbol}

theorem openScope_of_some (hc : c.current = some scope) : c.openScope = .ok scope := by
  rw [openScope, hc]

theorem openScope_of_none (hc : c.current = none) : c.openScope = .error .noScope := by
  rw [openScope, hc]

theorem declareGlobal_of_free (hl : s.level = .global) (hf : c.lookupGlobal s.name = none) :
    c.declareGlobal s = .ok { c with globals := c.globals ++ [s] } := by
  rw [lookupGlobal] at hf
  rw [declareGlobal, if_neg (not_not.mpr hl), addGlobal, hf]
  rfl

theorem declareGlobal_of_taken (hl : s.level = .global) (hf : c.lookupGlobal s.name = some previous) :
    c.declareGlobal s = .error (.duplicate ⟨s.name, previous, none⟩) := by
  rw [lookupGlobal] at hf
  rw [declareGlobal, if_neg (not_not.mpr hl), addGlobal, hf]
  rfl

theorem declareLocal_of_some (hc : c.current = some scope) (s : Symbol) :
    c.declareLocal s = if s.level ≠ .local then throw (.notLocal s.name)
      else ((scope.declare s).mapError .duplicate).bind fun scope => pure (c.within scope) := by
  rw [declareLocal, openScope_of_some hc]
  rfl

theorem declareLocal_of_free (hc : c.current = some scope) (hl : s.level = .local) (hf : scope.get? s.name = none) :
    c.declareLocal s
      = .ok { c with current := some { scope with symbols := scope.symbols ++ [s.ownedBy scope.function] } } := by
  rw [declareLocal_of_some hc, if_neg (not_not.mpr hl), LocalScope.declare, hf]
  rfl

theorem declareLocal_of_taken (hc : c.current = some scope) (hl : s.level = .local)
    (hf : scope.get? s.name = some previous) :
    c.declareLocal s = .error (.duplicate ⟨s.name, previous, some scope.function⟩) := by
  rw [declareLocal_of_some hc, if_neg (not_not.mpr hl), LocalScope.declare, hf]
  rfl

end Catalog

/-- A scope with its symbols as they stood when they were declared. -/
def RefScope.asDeclared (symbols : Ref → Symbol) (scope : RefScope) : LocalScope :=
  ⟨scope.function, scope.refs.map fun x => (symbols x).ownedBy scope.function⟩

namespace Registry

/-- What is declared, with the symbols as they stood then. -/
def asDeclared (symbols : Ref → Symbol) (r : Registry) : Catalog where
  globals := r.globals.map symbols
  finished := r.finished.map (RefScope.asDeclared symbols)
  current := r.current.map (RefScope.asDeclared symbols)

/-- What a registry answers, with the symbols as they are then. -/
def say (r : Registry) (q : Request Ref) : Except Catalog.Refusal (Answer Symbol) :=
  match r.answer q with
  | .ok a r => .ok (a.map r.symbols)
  | .error e _ => .error e

variable {r : Registry} {symbols : Ref → Symbol}

theorem find?_map_symbols {refs : List Ref} (h : ∀ x ∈ refs, symbols x = r.symbols x) (name : String) :
    Symbol.find? (refs.map symbols) name = (r.find? refs name).map r.symbols := by
  rw [List.map_congr_left h]
  exact List.find?_map ..

theorem finish_asDeclared (symbols : Ref → Symbol) (finished : List RefScope) (scope : RefScope) :
    (finish finished scope).map (RefScope.asDeclared symbols)
      = Catalog.finish (finished.map (RefScope.asDeclared symbols)) (scope.asDeclared symbols) := by
  have hany : (finished.map (RefScope.asDeclared symbols)).any (fun s => s.function = scope.function)
      = finished.any fun s => s.function = scope.function := List.any_map ..
  rw [finish, Catalog.finish, RefScope.asDeclared, hany]
  split
  · rw [List.map_map, List.map_map]
    refine List.map_congr_left fun s _ => ?_
    exact apply_ite (RefScope.asDeclared symbols) ..
  · exact List.map_append

end Registry

namespace Session.IsFaithful

variable {symbols : Ref → Symbol} {s : Session} {q : Request Ref} {a : Answer Ref} {r : Registry} {e : Catalog.Refusal}
  {x : Ref} {scope : RefScope}

/-! ## The symbols as they are -/

theorem symbols_of_level (h : s.IsFaithful symbols) (hl : (symbols x).level = .global) :
    symbols x = s.registry.symbols x := by
  obtain ⟨_, hs⟩ | ⟨hlocal, _⟩ := h.held x
  · exact hs.symm
  · exact nomatch hl.symm.trans hlocal

theorem symbols_of_open (h : s.IsFaithful symbols) (hc : s.registry.current = some scope) (hx : x ∈ scope.refs) :
    (symbols x).ownedBy scope.function = s.registry.symbols x := by
  rw [← (h.held x).ownedBy, Symbol.ownedBy, ← h.owned scope hc x hx]

theorem globals_asDeclared (h : s.IsFaithful symbols) :
    (s.registry.asDeclared symbols).globals = s.registry.view.globals :=
  List.map_congr_left fun x hx => h.symbols_of_level (h.level x hx)

theorem map_symbols_of_open (h : s.IsFaithful symbols) (hc : s.registry.current = some scope) :
    (scope.asDeclared symbols).symbols = scope.refs.map s.registry.symbols :=
  List.map_congr_left fun _ => h.symbols_of_open hc

theorem viewScope_of_open (h : s.IsFaithful symbols) (hc : s.registry.current = some scope) :
    scope.asDeclared symbols = s.registry.viewScope scope :=
  congrArg (LocalScope.mk scope.function) (h.map_symbols_of_open hc)

theorem current_asDeclared (h : s.IsFaithful symbols) :
    (s.registry.asDeclared symbols).current = s.registry.view.current := by
  rw [Registry.asDeclared, Registry.view]
  cases hc : s.registry.current with
  | none => rfl
  | some scope => exact congrArg some (h.viewScope_of_open hc)

theorem lookupGlobal_asDeclared (h : s.IsFaithful symbols) (name : String) :
    (s.registry.asDeclared symbols).lookupGlobal name = (s.registry.global? name).map s.registry.symbols :=
  Registry.find?_map_symbols (fun x hx => h.symbols_of_level (h.level x hx)) name

theorem get?_asDeclared (h : s.IsFaithful symbols) (hc : s.registry.current = some scope) (name : String) :
    (scope.asDeclared symbols).get? name = (s.registry.local? name).map s.registry.symbols := by
  rw [Registry.local?_of_some hc]
  exact Registry.find?_map_symbols (fun x hx => h.symbols_of_open hc hx) name

/-- A declaration finds under its name what the registry has there: symbols keep their names. -/
theorem lookupGlobal_name (h : s.IsFaithful symbols) {found : Option Ref}
    (hf : s.registry.global? (s.registry.symbols x).name = found) :
    (s.registry.asDeclared symbols).lookupGlobal (symbols x).name = found.map s.registry.symbols := by
  rw [← hf, h.name_eq]
  exact h.lookupGlobal_asDeclared _

theorem get?_name (h : s.IsFaithful symbols) (hc : s.registry.current = some scope) {found : Option Ref}
    (hf : s.registry.local? (s.registry.symbols x).name = found) :
    (scope.asDeclared symbols).get? (symbols x).name = found.map s.registry.symbols := by
  rw [← hf, h.name_eq]
  exact h.get?_asDeclared hc _

theorem local?_asDeclared (h : s.IsFaithful symbols) (name : String) :
    ((s.registry.asDeclared symbols).current.bind fun scope => scope.get? name)
      = (s.registry.local? name).map s.registry.symbols := by
  cases hc : s.registry.current with
  | none => rw [Registry.asDeclared, Registry.local?, hc]; rfl
  | some scope =>
    rw [← h.get?_asDeclared hc, Registry.asDeclared, hc]
    rfl

/-! ## One request -/

theorem current_of_some (symbols : Ref → Symbol) (hc : s.registry.current = some scope) :
    (s.registry.asDeclared symbols).current = some (scope.asDeclared symbols) := by
  rw [Registry.asDeclared, hc, Option.map_some]

theorem current_of_none (symbols : Ref → Symbol) (hc : s.registry.current = none) :
    (s.registry.asDeclared symbols).current = none := by
  rw [Registry.asDeclared, hc, Option.map_none]

/-- A request that is granted is granted on the values as well. What is declared stands there as it was made, but in the
scope of a function, and what is found is what its symbol holds now. -/
theorem answer_of_grants (h : s.IsFaithful symbols) (hg : s.registry.Grants q a r) :
    (s.registry.asDeclared symbols).answer (q.map symbols) = .ok (a.map r.symbols, r.asDeclared symbols) := by
  cases hg with
  | @declareGlobal x hl hfree =>
    rw [h.level_eq] at hl
    rw [Request.map, Catalog.answer, Catalog.declareGlobal_of_free hl (h.lookupGlobal_name hfree), Answer.map,
      Option.map_some, ← h.symbols_of_level hl, Registry.asDeclared, Registry.asDeclared, List.map_append]
    rfl
  | @declareLocal x scope hc hl hfree =>
    rw [h.level_eq] at hl
    have hcur := current_of_some symbols hc
    rw [Request.map, Catalog.answer, Catalog.openScope_of_some hcur,
      Catalog.declareLocal_of_free hcur hl (h.get?_name hc hfree), Answer.map, Option.map_some, Registry.own_symbols,
      if_pos rfl, (h.held x).ownedBy, Registry.asDeclared, Registry.asDeclared, Option.map_some, RefScope.asDeclared,
      RefScope.asDeclared, List.map_append]
    rfl
  | enter hc =>
    rw [Request.map, Catalog.answer, Catalog.enter, current_of_none symbols hc]
    rfl
  | @leave scope hc =>
    have hcur := current_of_some symbols hc
    have hfinish := Registry.finish_asDeclared symbols s.registry.finished scope
    rw [Request.map, Catalog.answer, Catalog.leave, Catalog.openScope_of_some hcur, Answer.map,
      ← h.map_symbols_of_open hc, Registry.asDeclared, Registry.asDeclared, hfinish]
    rfl
  | shown hx hs =>
    rw [Request.map, Catalog.answer, Catalog.lookup, h.local?_asDeclared, hx, Option.map_some, Option.filter_some,
      if_pos (Symbol.isVisible_iff_shows.mpr hs)]
    rfl
  | @hidden name at? hno =>
    have hnone : ((s.registry.local? name).map s.registry.symbols).filter (fun s => s.isVisible at?) = none := by
      rw [Option.filter_eq_none_iff]
      intro y hy hv
      obtain ⟨x, hx, rfl⟩ := Option.map_eq_some_iff.mp hy
      exact hno x hx (Symbol.isVisible_iff_shows.mp hv)
    rw [Request.map, Catalog.answer, Catalog.lookup, h.local?_asDeclared, hnone, h.lookupGlobal_asDeclared]
    rfl
  | lookupGlobal => rw [Request.map, Catalog.answer, h.lookupGlobal_asDeclared]; rfl
  | @lookupLabel name hc =>
    obtain ⟨scope, hc⟩ := Option.ne_none_iff_exists'.mp hc
    rw [Request.map, Catalog.answer, Catalog.lookupLabel, Catalog.openScope_of_some (current_of_some symbols hc),
      Catalog.label?, h.local?_asDeclared, Option.filter_map]
    rfl

theorem answer_of_rejects (h : s.IsFaithful symbols) (hr : s.registry.Rejects q e) :
    (s.registry.asDeclared symbols).answer (q.map symbols) = .error e := by
  cases hr with
  | @notGlobal x hl =>
    rw [h.level_eq] at hl
    rw [Request.map, Catalog.answer, Catalog.declareGlobal, if_pos hl, h.name_eq]
    rfl
  | @duplicateGlobal x previous hl hf =>
    rw [h.level_eq] at hl
    rw [Request.map, Catalog.answer, Catalog.declareGlobal_of_taken hl (h.lookupGlobal_name hf), h.name_eq]
    rfl
  | noScope hq hc =>
    have hnone := Catalog.openScope_of_none (current_of_none symbols hc)
    cases q with
    | declareLocal x => rw [Request.map, Catalog.answer, hnone]; rfl
    | leave => rw [Request.map, Catalog.answer, Catalog.leave, hnone]; rfl
    | lookupLabel name => rw [Request.map, Catalog.answer, Catalog.lookupLabel, hnone]; rfl
    | declareGlobal _ | enter _ | lookup _ _ | lookupGlobal _ => exact nomatch hq
  | @notLocal x hc hl =>
    obtain ⟨scope, hc⟩ := Option.ne_none_iff_exists'.mp hc
    rw [h.level_eq] at hl
    have hcur := current_of_some symbols hc
    rw [Request.map, Catalog.answer, Catalog.openScope_of_some hcur, Catalog.declareLocal_of_some hcur, if_pos hl,
      h.name_eq]
    rfl
  | @duplicateLocal x previous scope hc hl hf =>
    rw [h.level_eq] at hl
    have hcur := current_of_some symbols hc
    rw [Request.map, Catalog.answer, Catalog.openScope_of_some hcur,
      Catalog.declareLocal_of_taken hcur hl (h.get?_name hc hf), h.name_eq]
    rfl
  | scopeOpen hc =>
    rw [Request.map, Catalog.answer, Catalog.enter, current_of_some symbols hc]
    rfl

theorem serve_asDeclared (h : s.IsFaithful symbols) (q : Request Ref) :
    (s.registry.asDeclared symbols).serve (q.map symbols) = (s.serve q).registry.asDeclared symbols := by
  obtain ⟨a, r, hg⟩ | ⟨e, hr⟩ := s.registry.grants_or_rejects q
  · rw [Catalog.serve, h.answer_of_grants hg, serve_of_grants hg]
  · rw [Catalog.serve, h.answer_of_rejects hr, serve_of_rejects hr]

/-- A catalog that is asked the same all along keeps every symbol as it stood when it was declared. -/
theorem catalog_run (h : s.IsFaithful symbols) (qs : List (Request Ref)) :
    (qs.map (Request.map symbols)).foldl Catalog.serve (s.registry.asDeclared symbols)
      = (qs.foldl Session.serve s).registry.asDeclared symbols := by
  induction qs generalizing s with
  | nil => rfl
  | cons q qs ih =>
    rw [List.map_cons, List.foldl_cons, List.foldl_cons, h.serve_asDeclared, ih (h.serve q)]

end Session.IsFaithful

end FlatScope
