/-
  What a registry does in the long run. After any requests it can be read off its history, it changes only as its
  requests say (`Session.IsSteady`), and a catalog of values that is asked the same is kept beside it
  (`Session.IsKeptBy`). A finished scope is what was left, but its symbols are still those that their callers hold: one
  that is declared again, under another function, belongs to that function in every scope (`Session.finished_of_shared`).
-/
import FlatScope.Proofs.Ledger.Values

namespace FlatScope

namespace Session

/-- A session changes only as its requests say. -/
structure IsSteady (symbols : Ref → Symbol) (s : Session) : Prop where
  /-- A request is refused exactly for one of the reasons, and then nothing changes. -/
  refused : ∀ q e r, s.registry.answer q = .error e r ↔ s.registry.Rejects q e ∧ r = s.registry
  /-- A request is granted exactly if it can be, with the answer and the effect that it has then. -/
  granted : ∀ q a r, s.registry.answer q = .ok a r ↔ s.registry.Grants q a r
  /-- Looking up changes nothing. -/
  looked : ∀ q, q.isLookup → (s.serve q).registry = s.registry
  /-- The global symbol of a name is the first that has been declared under it, and is as its caller made it. -/
  found : ∀ name, s.registry.global? name
    = (s.history.filterMap Event.global?).find? fun x => (symbols x).name = name
  made : ∀ x ∈ s.registry.globals, s.registry.symbols x = symbols x
  /-- A scope, open or finished, lists what was declared in it, in order and without repetition. -/
  listed : ∀ scope, (s.registry.current = some scope ∨ ∃ function, s.registry.scope? function = some scope) →
    ∃ past, past <+: s.history ∧ scope.IsOpenAfter symbols past
  /-- A symbol of a finished scope belongs to the function it has been declared under last. That is the function of the
  scope, unless the very same symbol has been declared under another one. -/
  owner : ∀ function scope, s.registry.scope? function = some scope → ∀ x ∈ scope.refs,
    ∃ last, DeclaredLast s.history x last ∧ (s.registry.symbols x).owner = some last
  unshared : ∀ function scope, s.registry.scope? function = some scope → ∀ x ∈ scope.refs,
    (∀ other, DeclaredUnder s.history x other → other = scope.function) →
    (s.registry.symbols x).owner = some scope.function
  /-- The open scope, with its symbols as they are, is what is kept when it is left. -/
  left : ∀ scope, s.registry.current = some scope →
    (s.serve .leave).registry.view.scope? scope.function = some (s.registry.viewScope scope)
  /-- A finished scope has other symbols only when a scope of its function is left. -/
  kept : ∀ q function, (∀ scope, q = .leave → s.registry.current = some scope → scope.function ≠ function) →
    (s.serve q).registry.scope? function = s.registry.scope? function
  /-- Its symbols change only when one of them is declared under a function that it does not belong to. -/
  untouched : ∀ q function, (∀ scope, q = .leave → s.registry.current = some scope → scope.function ≠ function) →
    (∀ x scope opened, q = .declareLocal x → s.registry.scope? function = some scope → x ∈ scope.refs →
      s.registry.current = some opened → (s.registry.symbols x).owner = some opened.function) →
    (s.serve q).registry.view.scope? function = s.registry.view.scope? function
  /-- Only a declaration in the open scope writes into a symbol, and only whom it belongs to. -/
  written : ∀ q x, (s.serve q).registry.symbols x = s.registry.symbols x ∨ ∃ scope, q = .declareLocal x
    ∧ s.registry.current = some scope
    ∧ (s.serve q).registry.symbols x = (s.registry.symbols x).ownedBy scope.function
  /-- A local symbol that is seen at a statement is seen from then on. -/
  seen : ∀ name x m n, s.registry.local? name = some x →
    s.registry.answer (.lookup name (some m)) = .ok (.symbol x) s.registry → m ≤ n →
    s.registry.answer (.lookup name (some n)) = .ok (.symbol x) s.registry

/-- A catalog of values is kept beside a session. -/
structure IsKeptBy (symbols : Ref → Symbol) (s : Session) (c : Catalog) : Prop where
  /-- The catalog has every symbol as it stood when it was declared. -/
  catalog : c = s.registry.asDeclared symbols
  /-- It answers every request as the registry does. -/
  answers : ∀ q, (c.answer (q.map symbols)).map Prod.fst = s.registry.say q
  /-- Its global symbols and those of the open scope are as they are now. -/
  globals : c.globals = s.registry.view.globals
  current : c.current = s.registry.view.current
  /-- So are those of a finished scope, if none of them has been declared under another function. -/
  finished : ∀ function scope, s.registry.scope? function = some scope →
    (∀ x ∈ scope.refs, ∀ other, DeclaredUnder s.history x other → other = scope.function) →
    c.scope? function = some (s.registry.viewScope scope)

variable {symbols : Ref → Symbol} {s : Session} {q : Request Ref} {a : Answer Ref} {r : Registry} {x : Ref}
  {scope : RefScope} {function : String}

/-! ## What one request changes -/

theorem registry_serve_of_isLookup (hq : q.isLookup) : (s.serve q).registry = s.registry := by
  obtain ⟨a, r, hg⟩ | ⟨e, hr⟩ := s.registry.grants_or_rejects q
  · rw [serve_of_grants hg]
    cases hg with
    | shown _ _ | hidden _ | lookupGlobal | lookupLabel _ => rfl
    | declareGlobal _ _ | declareLocal _ _ _ | enter _ | leave _ => exact nomatch hq
  · rw [serve_of_rejects hr]

/-- Only leaving a scope touches the finished ones. -/
theorem scope?_serve (s : Session) (q : Request Ref) (function : String)
    (h : ∀ scope, q = .leave → s.registry.current = some scope → scope.function ≠ function) :
    (s.serve q).registry.scope? function = s.registry.scope? function := by
  obtain ⟨a, r, hg⟩ | ⟨e, hr⟩ := s.registry.grants_or_rejects q
  · rw [serve_of_grants hg]
    cases hg with
    | leave hc => exact (Registry.find?_finish _ _ _).trans (if_neg (h _ rfl hc))
    | declareGlobal _ _ | declareLocal _ _ _ | enter _ | shown _ _ | hidden _ | lookupGlobal | lookupLabel _ => rfl
  · rw [serve_of_rejects hr]

/-- Only a declaration in the open scope writes into a symbol. -/
theorem symbols_serve (s : Session) (q : Request Ref) (x : Ref) :
    (s.serve q).registry.symbols x = s.registry.symbols x ∨ ∃ scope, q = .declareLocal x
      ∧ s.registry.current = some scope
      ∧ (s.serve q).registry.symbols x = (s.registry.symbols x).ownedBy scope.function := by
  obtain ⟨a, r, hg⟩ | ⟨e, hr⟩ := s.registry.grants_or_rejects q
  · rw [serve_of_grants hg]
    cases hg with
    | @declareLocal y scope hc _ _ =>
      by_cases hxy : x = y
      · exact .inr ⟨scope, hxy ▸ rfl, hc, if_pos hxy⟩
      · exact .inl (if_neg hxy)
    | declareGlobal _ _ | leave _ | enter _ | shown _ _ | hidden _ | lookupGlobal | lookupLabel _ => exact .inl rfl
  · rw [serve_of_rejects hr]
    exact .inl rfl

theorem scope?_view (r : Registry) (function : String) :
    r.view.scope? function = (r.scope? function).map r.viewScope :=
  List.find?_map ..

theorem view_serve_leave (hc : s.registry.current = some scope) :
    (s.serve .leave).registry.view.scope? scope.function = some (s.registry.viewScope scope) := by
  rw [serve_of_grants (.leave hc), scope?_view, Registry.scope?, Registry.find?_finish, if_pos rfl]
  rfl

theorem view_serve (s : Session) (q : Request Ref) (function : String)
    (hleave : ∀ scope, q = .leave → s.registry.current = some scope → scope.function ≠ function)
    (hdeclare : ∀ x scope opened, q = .declareLocal x → s.registry.scope? function = some scope → x ∈ scope.refs →
      s.registry.current = some opened → (s.registry.symbols x).owner = some opened.function) :
    (s.serve q).registry.view.scope? function = s.registry.view.scope? function := by
  rw [scope?_view, scope?_view, scope?_serve s q function hleave]
  cases hs : s.registry.scope? function with
  | none => rfl
  | some scope =>
    refine congrArg (fun symbols => some (LocalScope.mk scope.function symbols)) (List.map_congr_left fun x hx => ?_)
    obtain hsame | ⟨opened, hq, hc, howned⟩ := symbols_serve s q x
    · exact hsame
    · rw [howned, Symbol.ownedBy, ← hdeclare x scope opened hq hs hx hc]

namespace IsFaithful

/-! ## Scopes -/

/-- A finished scope was open when it was left. -/
theorem isOpenAfter_of_finished (h : s.IsFaithful symbols) (hs : s.registry.scope? function = some scope) :
    ∃ past, past <+: s.history ∧ scope.IsOpenAfter symbols past := by
  have hmem := List.mem_reverse.mp (List.mem_of_find?_eq_some ((h.finished function).symm.trans hs))
  obtain ⟨⟨q, a⟩, he, hleft⟩ := List.mem_filterMap.mp hmem
  obtain ⟨past, rest, hsplit⟩ := List.append_of_mem he
  have hevent : (q, a) = (.leave, .scope scope.function scope.refs) := by
    unfold Event.left? at hleft
    split at hleft
    · rename_i heq
      rw [heq, ← Option.some.inj hleft]
    · exact nomatch hleft
  refine ⟨past, ⟨_, hsplit.symm⟩, h.left past scope.function scope.refs ⟨rest, ?_⟩⟩
  rw [hsplit, hevent, List.append_assoc, List.singleton_append]

theorem listed (h : s.IsFaithful symbols)
    (hs : s.registry.current = some scope ∨ ∃ function, s.registry.scope? function = some scope) :
    ∃ past, past <+: s.history ∧ scope.IsOpenAfter symbols past := by
  obtain hc | ⟨function, hs⟩ := hs
  · exact ⟨s.history, List.prefix_refl _, h.opened scope hc⟩
  · exact h.isOpenAfter_of_finished hs

/-- What a finished scope holds has been declared, so it belongs to the function it was declared under last. -/
theorem exists_last (h : s.IsFaithful symbols) (hs : s.registry.scope? function = some scope) (hx : x ∈ scope.refs) :
    ∃ last, DeclaredLast s.history x last ∧ s.registry.symbols x = (symbols x).ownedBy last := by
  obtain ⟨past, hp, hopen⟩ := h.isOpenAfter_of_finished hs
  obtain ⟨hnot, _⟩ | ⟨_, last, hlast, heq⟩ := h.held x
  · exact absurd ((hopen.declaredUnder hx).mono hp).mem hnot
  · exact ⟨last, hlast, heq⟩

theorem symbols_of_unshared (h : s.IsFaithful symbols) (hs : s.registry.scope? function = some scope)
    (hx : x ∈ scope.refs) (hunder : ∀ other, DeclaredUnder s.history x other → other = scope.function) :
    s.registry.symbols x = (symbols x).ownedBy scope.function := by
  obtain ⟨last, ⟨rest, hlast, _⟩, heq⟩ := h.exists_last hs hx
  rw [heq, hunder last ⟨rest, hlast⟩]

/-- A local symbol is no global one, so it is found only where it shows. -/
theorem shows_of_answer (h : s.IsFaithful symbols) {name : String} {at? : Option Int}
    (hx : s.registry.local? name = some x) (ha : s.registry.answer (.lookup name at?) = .ok (.symbol x) s.registry) :
    (s.registry.symbols x).Shows at? := by
  by_contra hno
  have hhidden : s.registry.answer (.lookup name at?) = .ok (.symbol (s.registry.global? name)) s.registry :=
    (Registry.Grants.hidden fun y hy => Option.some.inj (hx.symm.trans hy) ▸ hno).answer
  have hg : s.registry.global? name = some x :=
    Answer.symbol.inj (EStateM.Result.ok.inj (hhidden.symm.trans ha)).1
  obtain ⟨scope, hc, hget⟩ := Option.bind_eq_some_iff.mp hx
  have hlocal := (h.opened scope hc).level x (List.mem_of_find?_eq_some hget)
  have hglobal := h.level x (List.mem_of_find?_eq_some hg)
  exact nomatch hlocal.symm.trans hglobal

theorem isSteady (h : s.IsFaithful symbols) : s.IsSteady symbols where
  refused _ _ _ := Registry.answer_eq_error
  granted _ _ _ := Registry.answer_eq_ok
  looked _ := registry_serve_of_isLookup
  found name := by
    rw [Registry.global?, Registry.find?, ← h.globals]
    exact congrArg (s.registry.globals.find? ·) (funext fun x => by rw [h.name_eq])
  made x hx := (h.symbols_of_level (h.level x hx)).symm
  listed _ := h.listed
  owner _ _ hs x hx := by
    obtain ⟨last, hlast, heq⟩ := h.exists_last hs hx
    exact ⟨last, hlast, congrArg Symbol.owner heq⟩
  unshared _ _ hs _ hx hunder := congrArg Symbol.owner (h.symbols_of_unshared hs hx hunder)
  left _ := view_serve_leave
  kept := scope?_serve s
  untouched := view_serve s
  written := symbols_serve s
  seen _ _ _ _ hx ha hmn := (Registry.Grants.shown hx ((h.shows_of_answer hx ha).mono hmn)).answer

/-! ## The catalog of values -/

theorem say_eq (h : s.IsFaithful symbols) (q : Request Ref) :
    ((s.registry.asDeclared symbols).answer (q.map symbols)).map Prod.fst = s.registry.say q := by
  obtain ⟨a, r, hg⟩ | ⟨e, hr⟩ := s.registry.grants_or_rejects q
  · rw [h.answer_of_grants hg, Registry.say, hg.answer]
    rfl
  · rw [h.answer_of_rejects hr, Registry.say, hr.answer]
    rfl

theorem isKeptBy (h : s.IsFaithful symbols) : s.IsKeptBy symbols (s.registry.asDeclared symbols) where
  catalog := rfl
  answers := h.say_eq
  globals := h.globals_asDeclared
  current := h.current_asDeclared
  finished function scope hs hunder := by
    have hview : scope.asDeclared symbols = s.registry.viewScope scope :=
      congrArg (LocalScope.mk scope.function)
        (List.map_congr_left fun x hx => (h.symbols_of_unshared hs hx (hunder x hx)).symm)
    rw [← hview]
    exact (List.find?_map ..).trans (congrArg (Option.map _) hs)

end IsFaithful

/-- After any requests, a registry can be read off its history, it changes only as its requests say, and a catalog of
values that is asked the same is kept beside it. -/
theorem after_isFaithful (symbols : Ref → Symbol) (qs : List (Request Ref)) :
    (after symbols qs).IsFaithful symbols ∧ (after symbols qs).IsSteady symbols
      ∧ (after symbols qs).IsKeptBy symbols (Catalog.after (qs.map (Request.map symbols))) := by
  have h : (after symbols qs).IsFaithful symbols := isFaithful_new.run qs
  have hcatalog : Catalog.after (qs.map (Request.map symbols)) = (after symbols qs).registry.asDeclared symbols :=
    isFaithful_new.catalog_run qs
  exact ⟨h, h.isSteady, hcatalog ▸ h.isKeptBy⟩

/-- A symbol that is declared under two functions belongs to the second one in the scopes of both: the finished scope of
the first is written to while the second is open. -/
theorem finished_of_shared :
    let x : Symbol := { name := "x", kind := .var, level := .local }
    let s := after (fun _ => x) [.enter "f", .declareLocal 0, .leave, .enter "g"]
    s.registry.view.scope? "f" = some ⟨"f", [x.ownedBy "f"]⟩
      ∧ (s.serve (.declareLocal 0)).registry.view.scope? "f" = some ⟨"f", [x.ownedBy "g"]⟩ := by decide

example :
    let made : Ref → Symbol
      | 0 => { name := "x", kind := .var, level := .global }
      | _ => { name := "x", kind := .var, level := .local, order := 2 }
    let r := (after made [.declareGlobal 0, .declareLocal 1, .enter "f", .declareLocal 1, .declareLocal 1]).registry
    (r.say (.lookup "x" (some 1)), r.say (.lookup "x" (some 5)))
      = (.ok (.symbol (made 0)), .ok (.symbol ((made 1).ownedBy "f"))) := by decide

end Session

end FlatScope
