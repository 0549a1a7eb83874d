/-
  What a registry answers to a request. What it takes to grant a request and what comes of it, and for which reasons a
  request is refused, is said once (`Registry.Grants`, `Registry.Rejects`). Every request is one or the other
  (`Registry.grants_or_rejects`), and the operations do just that (`Registry.answer_eq_ok`, `Registry.answer_eq_error`):
  in particular one that raises has changed nothing by then.
-/
import FlatScope.Registry

namespace FlatScope

/-! ## Requests -/

/-- What a catalog can be asked, with the symbols that are declared in it. -/
inductive Request (σ : Type)
  | declareGlobal (s : σ)
  | declareLocal (s : σ)
  | enter (function : String)
  | leave
  | lookup (name : String) (at? : Option Int)
  | lookupGlobal (name : String)
  | lookupLabel (name : String)
deriving DecidableEq, Repr

/-- What a request gets if it is granted: a symbol, or a scope with its symbols. -/
inductive Answer (σ : Type)
  | symbol (found : Option σ)
  | scope (function : String) (symbols : List σ)
deriving DecidableEq, Repr

namespace Request

variable {σ : Type}

/-- A request that only asks what there is. -/
def isLookup : Request σ → Bool
  | lookup _ _ | lookupGlobal _ | lookupLabel _ => true
  | _ => false

/-- A request about the open scope, so that there must be one. -/
def isScoped : Request σ → Bool
  | declareLocal _ | leave | lookupLabel _ => true
  | _ => false

end Request

namespace Symbol

/-- A symbol as it stands in the scope of a function. -/
def ownedBy (function : String) (s : Symbol) : Symbol := { s with owner := some function }

/-- A local symbol is there for a statement. Everything is, but a variable only from its declaration on. -/
def Shows (s : Symbol) (at? : Option Int) : Prop := s.kind ≠ .var ∨ ∀ n, at? = some n → s.order ≤ n

variable {s : Symbol}

theorem isVisible_iff_shows {at? : Option Int} : s.isVisible at? = true ↔ s.Shows at? := by
  cases at? with
  | none => exact iff_of_true rfl (.inr nofun)
  | some n =>
    rw [isVisible, Shows, Bool.or_eq_true, decide_eq_true_eq, decide_eq_true_eq]
    exact or_congr_right ⟨fun h m hm => Option.some.inj hm ▸ h, fun h => h n rfl⟩

theorem Shows.mono {m n : Int} (h : s.Shows (some m)) (hmn : m ≤ n) : s.Shows (some n) :=
  h.imp_right fun h _ hk => Option.some.inj hk ▸ Int.le_trans (h m rfl) hmn

end Symbol

namespace Registry

/-- What a registry answers to a request, with the registry as it is then; or why it raises, with the registry as it is
then. -/
def answer (r : Registry) (q : Request Ref) : EStateM.Result Catalog.Refusal Registry (Answer Ref) :=
  EStateM.run (s := r) <| match q with
    | .declareGlobal x => return .symbol (← declareGlobal x)
    | .declareLocal x => return .symbol (← declareLocal x)
    | .enter function => do
      let scope ← enter function
      return .scope scope.function scope.refs
    | .leave => do
      let scope ← leave
      return .scope scope.function scope.refs
    | .lookup name at? => return .symbol (← lookup name at?)
    | .lookupGlobal name => return .symbol (← lookupGlobal name)
    | .lookupLabel name => return .symbol (← lookupLabel name)

/-- The global symbol of a name. -/
def global? (r : Registry) (name : String) : Option Ref := r.find? r.globals name

/-- What the open scope has under a name. -/
def local? (r : Registry) (name : String) : Option Ref := r.current.bind fun scope => r.find? scope.refs name

/-- What it takes to grant a request, and what comes of it. -/
inductive Grants (r : Registry) : Request Ref → Answer Ref → Registry → Prop
  | declareGlobal {x : Ref} : (r.symbols x).level = .global → r.global? (r.symbols x).name = none →
    r.Grants (.declareGlobal x) (.symbol x) { r with globals := r.globals ++ [x] }
  | declareLocal {x : Ref} {scope : RefScope} : r.current = some scope → (r.symbols x).level = .local →
    r.local? (r.symbols x).name = none →
    r.Grants (.declareLocal x) (.symbol x)
      { r.own x scope.function with current := some { scope with refs := scope.refs ++ [x] } }
  | enter {function : String} : r.current = none →
    r.Grants (.enter function) (.scope function []) { r with current := some { function } }
  | leave {scope : RefScope} : r.current = some scope →
    r.Grants .leave (.scope scope.function scope.refs) { r with finished := finish r.finished scope, current := none }
  /-- A local symbol hides the global one where it shows, and nowhere else. -/
  | shown {name : String} {at? : Option Int} {x : Ref} : r.local? name = some x → (r.symbols x).Shows at? →
    r.Grants (.lookup name at?) (.symbol x) r
  | hidden {name : String} {at? : Option Int} : (∀ x, r.local? name = some x → ¬ (r.symbols x).Shows at?) →
    r.Grants (.lookup name at?) (.symbol (r.global? name)) r
  | lookupGlobal {name : String} : r.Grants (.lookupGlobal name) (.symbol (r.global? name)) r
  | lookupLabel {name : String} : r.current ≠ none →
    r.Grants (.lookupLabel name) (.symbol ((r.local? name).filter fun x => (r.symbols x).kind = .label)) r

/-- The reasons for which a request is refused. -/
inductive Rejects (r : Registry) : Request Ref → Catalog.Refusal → Prop
  | notGlobal {x : Ref} : (r.symbols x).level ≠ .global → r.Rejects (.declareGlobal x) (.notGlobal (r.symbols x).name)
  | duplicateGlobal {x previous : Ref} : (r.symbols x).level = .global →
    r.global? (r.symbols x).name = some previous →
    r.Rejects (.declareGlobal x) (.duplicate ⟨(r.symbols x).name, r.symbols previous, none⟩)
  | noScope {q : Request Ref} : q.isScoped → r.current = none → r.Rejects q .noScope
  | notLocal {x : Ref} : r.current ≠ none → (r.symbols x).level ≠ .local →
    r.Rejects (.declareLocal x) (.notLocal (r.symbols x).name)
  | duplicateLocal {x previous : Ref} {scope : RefScope} : r.current = some scope → (r.symbols x).level = .local →
    r.local? (r.symbols x).name = some previous →
    r.Rejects (.declareLocal x) (.duplicate ⟨(r.symbols x).name, r.symbols previous, some scope.function⟩)
  | scopeOpen {function : String} {scope : RefScope} : r.current = some scope →
    r.Rejects (.enter function) (.scopeOpen function scope.function)

/-! ## The operations -/

variable {r r' : Registry} {q : Request Ref} {a : Answer Ref} {e : Catalog.Refusal} {scope : RefScope}

section

variable {α β : Type}

@[simp] theorem run_map (f : α → β) (op : Op α) (r : Registry) : (f <$> op).run r
    = match op.run r with
      | .ok a r => .ok (f a) r
      | .error e r => .error e r := by
  rw [map_eq_pure_bind, EStateM.run_bind]
  cases op.run r <;> rfl

@[simp] theorem run_throw (e : Catalog.Refusal) (r : Registry) : (throw e : Op α).run r = .error e r := rfl

end

theorem requireLocal_of_some (h : r.current = some scope) : requireLocal.run r = .ok scope r := by
  simp [requireLocal, h]

theorem requireLocal_of_none (h : r.current = none) : requireLocal.run r = .error .noScope r := by
  simp [requireLocal, h]

theorem own_symbols (r : Registry) (x : Ref) (function : String) (y : Ref) : (r.own x function).symbols y
    = if y = x then (r.symbols y).ownedBy function else r.symbols y :=
  rfl

theorem local?_of_some (h : r.current = some scope) (name : String) : r.local? name = r.find? scope.refs name := by
  rw [local?, h, Option.bind_some]

theorem Grants.answer (h : r.Grants q a r') : r.answer q = .ok a r' := by
  cases h with
  | declareGlobal hl hf =>
    rw [global?] at hf
    simp [Registry.answer, Registry.declareGlobal, hl, hf]
  | declareLocal hc hl hf =>
    rw [local?_of_some hc] at hf
    simp [Registry.answer, Registry.declareLocal, requireLocal_of_some hc, hl, hf]
  | enter hc => simp [Registry.answer, Registry.enter, hc]
  | leave hc => simp [Registry.answer, Registry.leave, requireLocal_of_some hc]
  | shown hx hs =>
    obtain ⟨scope, hc, hx⟩ := Option.bind_eq_some_iff.mp hx
    simp [Registry.answer, Registry.lookup, hc, hx, Symbol.isVisible_iff_shows.mpr hs]
  | @hidden name at? h =>
    cases hc : r.current with
    | none => simp [Registry.answer, Registry.lookup, hc, global?]
    | some scope =>
      rw [local?_of_some hc] at h
      cases hx : r.find? scope.refs name with
      | none => simp [Registry.answer, Registry.lookup, hc, hx, global?]
      | some x =>
        have hv := mt Symbol.isVisible_iff_shows.mp (h x hx)
        simp [Registry.answer, Registry.lookup, hc, hx, hv, global?]
  | lookupGlobal => simp [Registry.answer, Registry.lookupGlobal, global?]
  | lookupLabel hc =>
    obtain ⟨scope, hc⟩ := Option.ne_none_iff_exists'.mp hc
    simp [Registry.answer, Registry.lookupLabel, requireLocal_of_some hc, local?_of_some hc]

theorem Rejects.answer (h : r.Rejects q e) : r.answer q = .error e r := by
  cases h with
  | notGlobal hl => simp [Registry.answer, declareGlobal, hl]
  | duplicateGlobal hl hf => rw [global?] at hf; simp [Registry.answer, declareGlobal, hl, hf]
  | noScope hq hc =>
    cases q with
    | declareLocal x => simp [Registry.answer, declareLocal, requireLocal_of_none hc]
    | leave => simp [Registry.answer, leave, requireLocal_of_none hc]
    | lookupLabel name => simp [Registry.answer, lookupLabel, requireLocal_of_none hc]
    | declareGlobal _ | enter _ | lookup _ _ | lookupGlobal _ => exact nomatch hq
  | notLocal hc hl =>
    obtain ⟨scope, hc⟩ := Option.ne_none_iff_exists'.mp hc
    simp [Registry.answer, declareLocal, requireLocal_of_some hc, hl]
  | duplicateLocal hc hl hf =>
    rw [local?_of_some hc] at hf
    simp [Registry.answer, declareLocal, requireLocal_of_some hc, hl, hf]
  | scopeOpen hc => simp [Registry.answer, enter, hc]

/-- Every request is granted, or there is a reason to refuse it. -/
theorem grants_or_rejects (r : Registry) (q : Request Ref) : (∃ a r', r.Grants q a r') ∨ ∃ e, r.Rejects q e := by
  cases q with
  | declareGlobal x =>
    by_cases hl : (r.symbols x).level = .global
    · cases hf : r.global? (r.symbols x).name with
      | none => exact .inl ⟨_, _, .declareGlobal hl hf⟩
      | some previous => exact .inr ⟨_, .duplicateGlobal hl hf⟩
    · exact .inr ⟨_, .notGlobal hl⟩
  | declareLocal x =>
    cases hc : r.current with
    | none => exact .inr ⟨_, .noScope rfl hc⟩
    | some scope =>
      by_cases hl : (r.symbols x).level = .local
      · cases hf : r.local? (r.symbols x).name with
        | none => exact .inl ⟨_, _, .declareLocal hc hl hf⟩
        | some previous => exact .inr ⟨_, .duplicateLocal hc hl hf⟩
      · exact .inr ⟨_, .notLocal (hc ▸ Option.some_ne_none scope) hl⟩
  | enter function =>
    cases hc : r.current with
    | none => exact .inl ⟨_, _, .enter hc⟩
    | some scope => exact .inr ⟨_, .scopeOpen hc⟩
  | leave =>
    cases hc : r.current with
    | none => exact .inr ⟨_, .noScope rfl hc⟩
    | some scope => exact .inl ⟨_, _, .leave hc⟩
  | lookup name at? =>
    by_cases hs : ∃ x, r.local? name = some x ∧ (r.symbols x).Shows at?
    · obtain ⟨x, hx, hs⟩ := hs
      exact .inl ⟨_, _, .shown hx hs⟩
    · exact .inl ⟨_, _, .hidden fun x hx hs' => hs ⟨x, hx, hs'⟩⟩
  | lookupGlobal name => exact .inl ⟨_, _, .lookupGlobal⟩
  | lookupLabel name =>
    by_cases hc : r.current = none
    · exact .inr ⟨_, .noScope rfl hc⟩
    · exact .inl ⟨_, _, .lookupLabel hc⟩

theorem answer_eq_ok : r.answer q = .ok a r' ↔ r.Grants q a r' := by
  refine ⟨fun h => ?_, Grants.answer⟩
  obtain ⟨b, r'', hg⟩ | ⟨e, hr⟩ := r.grants_or_rejects q
  · obtain ⟨rfl, rfl⟩ := EStateM.Result.ok.inj (hg.answer.symm.trans h)
    exact hg
  · exact nomatch hr.answer.symm.trans h

/-- A request that is refused changes nothing. -/
theorem answer_eq_error : r.answer q = .error e r' ↔ r.Rejects q e ∧ r' = r := by
  refine ⟨fun h => ?_, fun ⟨hr, heq⟩ => heq ▸ hr.answer⟩
  obtain ⟨a, r'', hg⟩ | ⟨e', hr⟩ := r.grants_or_rejects q
  · exact nomatch hg.answer.symm.trans h
  · obtain ⟨rfl, rfl⟩ := EStateM.Result.error.inj (hr.answer.symm.trans h)
    exact ⟨hr, rfl⟩

end Registry

end FlatScope
