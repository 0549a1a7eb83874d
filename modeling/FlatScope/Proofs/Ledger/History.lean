/-
  A registry that is asked one thing after another. The requests that are granted, with the answers they get, are its
  history, and the registry can be read off it (`Session.IsFaithful`): the globals are the symbols declared globally,
  the open scope holds what has been declared since it was opened, the finished scope of a function is the scope that
  was left last under its name, and a symbol is as its caller made it but for its owner, which is the function it was
  declared under last. A request that is granted keeps this (`IsFaithful.grant`), so any requests do (`IsFaithful.run`).
-/
import FlatScope.Proofs.Ledger.Request
import FlatScope.Proofs.Resolution.Steps

namespace FlatScope

/-- The scopes that are finished by name, after one more. -/
theorem Registry.find?_finish (finished : List RefScope) (scope : RefScope) (name : String) :
    (finish finished scope).find? (fun s => s.function = name)
      = if scope.function = name then some scope else finished.find? fun s => s.function = name :=
  find?_replace RefScope.function finished scope name

/-! ## Histories -/

/-- A request that has been granted, with its answer. -/
abbrev Event := Request Ref × Answer Ref

namespace Event

/-- The symbol that is declared globally. -/
def global? : Event → Option Ref
  | (.declareGlobal x, _) => some x
  | _ => none

/-- The symbol that is declared in the open scope. -/
def local? : Event → Option Ref
  | (.declareLocal x, _) => some x
  | _ => none

/-- The scope that is left. -/
def left? : Event → Option RefScope
  | (.leave, .scope function refs) => some ⟨function, refs⟩
  | _ => none

/-- A scope is opened or closed. -/
def turns : Event → Bool
  | (.enter _, _) | (.leave, _) => true
  | _ => false

end Event

/-- A function has been entered, and is open for the rest of the history. -/
def IsOpenFor (history : List Event) (function : String) (inside : List Event) : Prop :=
  (∃ before a, history = before ++ (.enter function, a) :: inside) ∧ ∀ e ∈ inside, e.turns = false

/-- A symbol has been declared while a function was open, with the rest of the history behind it. -/
def DeclaredBefore (history : List Event) (x : Ref) (function : String) (rest : List Event) : Prop :=
  ∃ past a inside, history = past ++ (.declareLocal x, a) :: rest ∧ IsOpenFor past function inside

/-- A symbol has been declared under a function. -/
def DeclaredUnder (history : List Event) (x : Ref) (function : String) : Prop :=
  ∃ rest, DeclaredBefore history x function rest

/-- A function is the one that a symbol has been declared under last. -/
def DeclaredLast (history : List Event) (x : Ref) (function : String) : Prop :=
  ∃ rest, DeclaredBefore history x function rest ∧ ∀ e ∈ rest, e.local? ≠ some x

/-- A symbol holds what it was made with until it is declared under a function; then it belongs to the function it was
declared under last, and nothing else about it changes. -/
def IsHeld (symbols : Ref → Symbol) (history : List Event) (x : Ref) (s : Symbol) : Prop :=
  x ∉ history.filterMap Event.local? ∧ s = symbols x
    ∨ (symbols x).level = .local ∧ ∃ function, DeclaredLast history x function ∧ s = (symbols x).ownedBy function

/-- A scope is open after a history if it holds, in their order, the symbols that have been declared since it was
opened, each under a name of its own. -/
structure RefScope.IsOpenAfter (symbols : Ref → Symbol) (history : List Event) (scope : RefScope) : Prop where
  since : ∃ inside, IsOpenFor history scope.function inside ∧ scope.refs = inside.filterMap Event.local?
  distinct : (scope.refs.map fun x => (symbols x).name).Nodup
  level : ∀ x ∈ scope.refs, (symbols x).level = .local

/-- A registry with its history. -/
structure Session where
  history : List Event := []
  registry : Registry

namespace Session

/-- A request makes history if it is granted. If it is refused, the registry is as the request has left it. -/
def serve (s : Session) (q : Request Ref) : Session :=
  match s.registry.answer q with
  | .ok a r => ⟨s.history ++ [(q, a)], r⟩
  | .error _ r => ⟨s.history, r⟩

/-- A new registry of the symbols that its callers have made, after requests. -/
def after (symbols : Ref → Symbol) (qs : List (Request Ref)) : Session := qs.foldl serve { registry := { symbols } }

/-- A registry can be read off its history. -/
structure IsFaithful (symbols : Ref → Symbol) (s : Session) : Prop where
  /-- The global symbols are those that have been declared globally, each under a name of its own. -/
  globals : s.registry.globals = s.history.filterMap Event.global?
  distinct : (s.registry.globals.map fun x => (symbols x).name).Nodup
  level : ∀ x ∈ s.registry.globals, (symbols x).level = .global
  /-- The open scope holds what has been declared since it was opened, and its symbols belong to its function. -/
  opened : ∀ scope, s.registry.current = some scope → scope.IsOpenAfter symbols s.history
  owned : ∀ scope, s.registry.current = some scope →
    ∀ x ∈ scope.refs, (s.registry.symbols x).owner = some scope.function
  /-- A scope that is left is the one that was open. -/
  left : ∀ past function refs, past ++ [(.leave, .scope function refs)] <+: s.history →
    RefScope.IsOpenAfter symbols past ⟨function, refs⟩
  /-- The finished scope of a function is the one that was left last under its name. -/
  finished : ∀ function, s.registry.scope? function
    = (s.history.filterMap Event.left?).reverse.find? fun scope => scope.function = function
  /-- A symbol is as its caller made it, but for its owner. -/
  held : ∀ x, IsHeld symbols s.history x (s.registry.symbols x)

end Session

/-! ## One more event -/

section

variable {symbols : Ref → Symbol} {history past rest inside : List Event} {e : Event} {a : Answer Ref} {x y : Ref}
  {function : String} {scope : RefScope} {s : Symbol}

/-- One more name among names that are all different, if it is none of them. -/
theorem nodup_map_snoc {refs : List Ref} {f : Ref → String} (h : (refs.map f).Nodup) (hfree : f x ∉ refs.map f) :
    ((refs ++ [x]).map f).Nodup := by
  rw [List.map_append, List.map_singleton, ← List.concat_eq_append]
  exact h.concat hfree

theorem IsOpenFor.snoc (h : IsOpenFor history function inside) (he : e.turns = false) :
    IsOpenFor (history ++ [e]) function (inside ++ [e]) := by
  obtain ⟨⟨before, a, rfl⟩, hturns⟩ := h
  refine ⟨⟨before, a, by rw [List.append_assoc, List.cons_append]⟩, ?_⟩
  exact List.forall_mem_append.mpr ⟨hturns, List.forall_mem_singleton.mpr he⟩

theorem DeclaredLast.snoc (h : DeclaredLast history x function) (he : e.local? ≠ some x) :
    DeclaredLast (history ++ [e]) x function := by
  obtain ⟨rest, ⟨past, a, inside, rfl, hopen⟩, hrest⟩ := h
  refine ⟨rest ++ [e], ⟨past, a, inside, by rw [List.append_assoc, List.cons_append], hopen⟩, ?_⟩
  exact List.forall_mem_append.mpr ⟨hrest, List.forall_mem_singleton.mpr he⟩

/-- What is declared right now has been declared last. -/
theorem IsOpenFor.declaredLast (h : IsOpenFor history function inside) (x : Ref) (a : Answer Ref) :
    DeclaredLast (history ++ [(.declareLocal x, a)]) x function :=
  ⟨[], ⟨history, a, inside, rfl, h⟩, List.forall_mem_nil _⟩

theorem DeclaredUnder.mono (h : DeclaredUnder past x function) (hp : past <+: history) :
    DeclaredUnder history x function := by
  obtain ⟨rest, before, a, inside, rfl, hopen⟩ := h
  obtain ⟨behind, rfl⟩ := hp
  exact ⟨rest ++ behind, before, a, inside, by rw [List.append_assoc, List.cons_append], hopen⟩

theorem DeclaredUnder.mem (h : DeclaredUnder history x function) : x ∈ history.filterMap Event.local? := by
  obtain ⟨rest, past, a, inside, rfl, _⟩ := h
  exact List.mem_filterMap.mpr ⟨_, List.mem_append_right _ List.mem_cons_self, rfl⟩

/-- A symbol keeps what it holds as long as it is not declared. -/
theorem IsHeld.snoc (h : IsHeld symbols history x s) (he : e.local? ≠ some x) :
    IsHeld symbols (history ++ [e]) x s := by
  obtain ⟨hnot, hs⟩ | ⟨hl, function, hlast, hs⟩ := h
  · refine .inl ⟨fun hmem => ?_, hs⟩
    rw [List.filterMap_append, List.mem_append] at hmem
    obtain hmem | hmem := hmem
    · exact hnot hmem
    · obtain ⟨e', he', hx⟩ := List.mem_filterMap.mp hmem
      exact he (List.mem_singleton.mp he' ▸ hx)
  · exact .inr ⟨hl, function, hlast.snoc he, hs⟩

theorem IsHeld.eq_with_owner (h : IsHeld symbols history x s) : ∃ owner, s = { symbols x with owner } := by
  obtain ⟨_, rfl⟩ | ⟨_, function, _, rfl⟩ := h
  · exact ⟨(symbols x).owner, rfl⟩
  · exact ⟨some function, rfl⟩

theorem IsHeld.ownedBy (h : IsHeld symbols history x s) (function : String) :
    s.ownedBy function = (symbols x).ownedBy function := by
  obtain ⟨owner, rfl⟩ := h.eq_with_owner
  rfl

namespace RefScope.IsOpenAfter

/-- What is no turn leaves a scope open as it is, unless it declares something in it. -/
theorem snoc (h : scope.IsOpenAfter symbols history) (hturn : e.turns = false) (hlocal : e.local? = none) :
    scope.IsOpenAfter symbols (history ++ [e]) := by
  obtain ⟨inside, hopen, hrefs⟩ := h.since
  refine ⟨⟨inside ++ [e], hopen.snoc hturn, ?_⟩, h.distinct, h.level⟩
  rw [List.filterMap_append, List.filterMap_cons_none hlocal, List.filterMap_nil, List.append_nil, hrefs]

/-- A symbol with a free name goes to the end of the open scope. -/
theorem declare (h : scope.IsOpenAfter symbols history) (hl : (symbols x).level = .local)
    (hfree : (symbols x).name ∉ scope.refs.map fun y => (symbols y).name) :
    IsOpenAfter symbols (history ++ [(.declareLocal x, a)]) { scope with refs := scope.refs ++ [x] } := by
  obtain ⟨inside, hopen, hrefs⟩ := h.since
  refine ⟨⟨inside ++ [(.declareLocal x, a)], hopen.snoc rfl, ?_⟩, ?_, ?_⟩
  · rw [List.filterMap_append, ← hrefs]
    rfl
  · exact nodup_map_snoc h.distinct hfree
  · exact List.forall_mem_append.mpr ⟨h.level, List.forall_mem_singleton.mpr hl⟩

/-- What a scope holds has been declared under its function. -/
theorem declaredUnder (h : scope.IsOpenAfter symbols history) (hx : x ∈ scope.refs) :
    DeclaredUnder history x scope.function := by
  obtain ⟨inside, ⟨⟨before, b, rfl⟩, hturns⟩, hrefs⟩ := h.since
  rw [hrefs] at hx
  obtain ⟨⟨q, a⟩, he, hlocal⟩ := List.mem_filterMap.mp hx
  obtain ⟨front, rest, rfl⟩ := List.append_of_mem he
  have hq : q = .declareLocal x := by
    unfold Event.local? at hlocal
    split at hlocal
    · rename_i heq
      rw [(Prod.mk.inj heq).1, Option.some.inj hlocal]
    · exact nomatch hlocal
  refine ⟨rest, before ++ (.enter scope.function, b) :: front, a, front, ?_, ⟨before, b, rfl⟩, ?_⟩
  · rw [hq, List.append_assoc, List.cons_append]
  · exact fun e he => hturns e (List.mem_append_left _ he)

end RefScope.IsOpenAfter

end

namespace Session

variable {symbols : Ref → Symbol} {s : Session} {q : Request Ref} {a : Answer Ref} {r : Registry} {e : Catalog.Refusal}
  {x : Ref} {scope : RefScope}

theorem serve_of_grants (h : s.registry.Grants q a r) : s.serve q = ⟨s.history ++ [(q, a)], r⟩ := by
  rw [serve, h.answer]

theorem serve_of_rejects (h : s.registry.Rejects q e) : s.serve q = s := by
  rw [serve, h.answer]

theorem isFaithful_new : IsFaithful symbols { registry := { symbols } } where
  globals := rfl
  distinct := List.nodup_nil
  level := List.forall_mem_nil _
  opened _ h := nomatch h
  owned _ h := nomatch h
  left past _ _ h := absurd (List.prefix_nil.mp h) (List.append_ne_nil_of_right_ne_nil past (List.cons_ne_nil _ _))
  finished _ := rfl
  held _ := .inl ⟨List.not_mem_nil, rfl⟩

namespace IsFaithful

theorem name_eq (h : s.IsFaithful symbols) (x : Ref) : (s.registry.symbols x).name = (symbols x).name := by
  obtain ⟨owner, hs⟩ := (h.held x).eq_with_owner
  rw [hs]

theorem level_eq (h : s.IsFaithful symbols) (x : Ref) : (s.registry.symbols x).level = (symbols x).level := by
  obtain ⟨owner, hs⟩ := (h.held x).eq_with_owner
  rw [hs]

/-- A name that nothing is found under is free. -/
theorem free_of_find? (h : s.IsFaithful symbols) {refs : List Ref}
    (hf : s.registry.find? refs (s.registry.symbols x).name = none) :
    (symbols x).name ∉ refs.map fun y => (symbols y).name := by
  intro hmem
  obtain ⟨y, hy, hname⟩ := List.mem_map.mp hmem
  refine List.find?_eq_none.mp hf y hy (decide_eq_true ?_)
  rw [h.name_eq, h.name_eq, hname]

/-- If no scope is left, the finished scopes stay. -/
theorem snoc (h : s.IsFaithful symbols) {e : Event} (hleft : e.left? = none)
    (hfinished : r.finished = s.registry.finished)
    (hglobals : r.globals = s.registry.globals ++ e.global?.toList)
    (hdistinct : (r.globals.map fun x => (symbols x).name).Nodup)
    (hlevel : ∀ x ∈ r.globals, (symbols x).level = .global)
    (hopened : ∀ scope, r.current = some scope → scope.IsOpenAfter symbols (s.history ++ [e])
      ∧ ∀ x ∈ scope.refs, (r.symbols x).owner = some scope.function)
    (hheld : ∀ x, IsHeld symbols (s.history ++ [e]) x (r.symbols x)) :
    IsFaithful symbols ⟨s.history ++ [e], r⟩ where
  globals := by
    rw [hglobals, List.filterMap_append, h.globals]
    cases he : e.global? with
    | none => rw [List.filterMap_cons_none he]; rfl
    | some x => rw [List.filterMap_cons_some he]; rfl
  distinct := hdistinct
  level := hlevel
  opened scope hs := (hopened scope hs).1
  owned scope hs := (hopened scope hs).2
  left past function refs hp := by
    obtain heq | hp := List.prefix_concat_iff.mp hp
    · obtain ⟨_, hlast⟩ := List.append_inj' heq rfl
      rw [← List.singleton_inj.mp hlast] at hleft
      exact nomatch hleft
    · exact h.left past function refs hp
  finished f := by
    rw [Registry.scope?, hfinished, List.filterMap_append, List.filterMap_cons_none hleft, List.filterMap_nil,
      List.append_nil]
    exact h.finished f
  held := hheld

theorem snoc_lookup (h : s.IsFaithful symbols) (hq : q.isLookup) :
    IsFaithful symbols ⟨s.history ++ [(q, a)], s.registry⟩ := by
  cases q with
  | declareGlobal _ | declareLocal _ | enter _ | leave => exact nomatch hq
  | lookup _ _ | lookupGlobal _ | lookupLabel _ =>
    exact h.snoc rfl rfl (List.append_nil _).symm h.distinct h.level
      (fun scope hs => ⟨(h.opened scope hs).snoc rfl rfl, h.owned scope hs⟩) fun x => (h.held x).snoc nofun

theorem declareGlobal (h : s.IsFaithful symbols) (hl : (s.registry.symbols x).level = .global)
    (hfree : s.registry.global? (s.registry.symbols x).name = none) :
    IsFaithful symbols
      ⟨s.history ++ [(.declareGlobal x, a)], { s.registry with globals := s.registry.globals ++ [x] }⟩ := by
  refine h.snoc rfl rfl rfl ?_ ?_ (fun scope hs => ⟨(h.opened scope hs).snoc rfl rfl, h.owned scope hs⟩)
    fun x => (h.held x).snoc nofun
  · exact nodup_map_snoc h.distinct (h.free_of_find? hfree)
  · exact List.forall_mem_append.mpr ⟨h.level, List.forall_mem_singleton.mpr (h.level_eq x ▸ hl)⟩

/-- A declaration in the open scope writes into the symbol that is declared, and into no other. -/
theorem declareLocal (h : s.IsFaithful symbols) (hc : s.registry.current = some scope)
    (hl : (s.registry.symbols x).level = .local) (hfree : s.registry.local? (s.registry.symbols x).name = none) :
    IsFaithful symbols ⟨s.history ++ [(.declareLocal x, a)],
      { s.registry.own x scope.function with current := some { scope with refs := scope.refs ++ [x] } }⟩ := by
  have hopen := h.opened scope hc
  rw [h.level_eq] at hl
  rw [Registry.local?_of_some hc] at hfree
  refine h.snoc rfl rfl (List.append_nil _).symm h.distinct h.level (fun scope' hs => ?_) fun y => ?_
  · obtain rfl := Option.some.inj hs
    refine ⟨hopen.declare hl (h.free_of_find? hfree), fun y hy => ?_⟩
    by_cases hyx : y = x
    · rw [Registry.own_symbols, if_pos hyx, Symbol.ownedBy]
    · rw [Registry.own_symbols, if_neg hyx]
      exact h.owned scope hc y ((List.mem_append.mp hy).resolve_right (mt List.mem_singleton.mp hyx))
  · by_cases hyx : y = x
    · obtain ⟨inside, hinside, _⟩ := hopen.since
      rw [Registry.own_symbols, if_pos hyx, hyx, (h.held x).ownedBy]
      exact .inr ⟨hl, scope.function, hinside.declaredLast x a, rfl⟩
    · rw [Registry.own_symbols, if_neg hyx]
      exact (h.held y).snoc fun heq => hyx (Option.some.inj heq).symm

theorem enter (h : s.IsFaithful symbols) (function : String) :
    IsFaithful symbols ⟨s.history ++ [(.enter function, a)], { s.registry with current := some { function } }⟩ := by
  refine h.snoc rfl rfl (List.append_nil _).symm h.distinct h.level (fun scope hs => ?_) fun x => (h.held x).snoc nofun
  obtain rfl : { function } = scope := Option.some.inj hs
  exact ⟨⟨⟨[], ⟨⟨s.history, a, rfl⟩, List.forall_mem_nil _⟩, rfl⟩, List.nodup_nil, List.forall_mem_nil _⟩,
    List.forall_mem_nil _⟩

theorem leave (h : s.IsFaithful symbols) (hc : s.registry.current = some scope) :
    IsFaithful symbols ⟨s.history ++ [(.leave, .scope scope.function scope.refs)],
      { s.registry with finished := Registry.finish s.registry.finished scope, current := none }⟩ where
  globals := by
    rw [List.filterMap_append]
    exact h.globals.trans (List.append_nil _).symm
  distinct := h.distinct
  level := h.level
  opened := nofun
  owned := nofun
  left past function refs hp := by
    obtain heq | hp := List.prefix_concat_iff.mp hp
    · obtain ⟨rfl, hlast⟩ := List.append_inj' heq rfl
      obtain ⟨_, ha⟩ := Prod.mk.inj (List.singleton_inj.mp hlast)
      obtain ⟨rfl, rfl⟩ := Answer.scope.inj ha
      exact h.opened scope hc
    · exact h.left past function refs hp
  finished f := by
    have hlast : [(Request.leave, Answer.scope scope.function scope.refs)].filterMap Event.left? = [scope] := rfl
    rw [List.filterMap_append, hlast, List.reverse_append, List.find?_append, Registry.scope?, Registry.find?_finish]
    by_cases hf : scope.function = f
    · rw [if_pos hf, List.reverse_singleton, List.find?_singleton, if_pos (decide_eq_true hf)]
      rfl
    · rw [if_neg hf, List.reverse_singleton, List.find?_singleton, if_neg (by simpa using hf)]
      exact h.finished f
  held x := (h.held x).snoc nofun

/-- A request that is granted keeps a session faithful. -/
theorem grant (h : s.IsFaithful symbols) (hg : s.registry.Grants q a r) :
    IsFaithful symbols ⟨s.history ++ [(q, a)], r⟩ := by
  cases hg with
  | declareGlobal hl hfree => exact h.declareGlobal hl hfree
  | declareLocal hc hl hfree => exact h.declareLocal hc hl hfree
  | enter _ => exact h.enter _
  | leave hc => exact h.leave hc
  | shown _ _ | hidden _ | lookupGlobal | lookupLabel _ => exact h.snoc_lookup rfl

theorem serve (h : s.IsFaithful symbols) (q : Request Ref) : (s.serve q).IsFaithful symbols := by
  obtain ⟨a, r, hg⟩ | ⟨e, hr⟩ := s.registry.grants_or_rejects q
  · exact serve_of_grants hg ▸ h.grant hg
  · exact (serve_of_rejects hr).symm ▸ h

theorem run (h : s.IsFaithful symbols) (qs : List (Request Ref)) : (qs.foldl Session.serve s).IsFaithful symbols := by
  induction qs generalizing s with
  | nil => exact h
  | cons q qs ih => exact ih (h.serve q)

end IsFaithful

end Session

end FlatScope
