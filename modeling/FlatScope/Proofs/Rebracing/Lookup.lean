/-
  Names and written types in other braces. A statement that is left keeps its place among the declarations, so it sees the
  same symbols, which have other orders (`Catalog.lookup_renumber`); a written type stands for the same type there
  (`TypeExpr.resolve_renumber`), and the body declares the same (`Stmt.collect_remaining`). Global symbols are declared by no
  statement and have no order that could change.
-/
import FlatScope.Proofs.Rebracing.Basic

namespace FlatScope

variable (ρ : Rebracing)

/-- A catalog whose open scope is that of a body in other braces. -/
def Catalog.renumber (c : Catalog) : Catalog := { c with current := c.current.map (LocalScope.renumber ρ) }

/-- No global symbol is declared by a statement. -/
def Catalog.IsUnordered (c : Catalog) : Prop := ∀ s ∈ c.globals, s.order = -1

variable {ρ} {n : Nat}

/-! ## Symbols by name -/

theorem Symbol.renumber_of_unordered {s : Symbol} (h : s.order = -1) : s.renumber ρ = s := by
  obtain ⟨name, kind, level, ty, span, owner, value, order⟩ := s
  obtain rfl : order = -1 := h
  rfl

theorem Symbol.find?_renumber (symbols : List Symbol) (name : String) :
    find? (symbols.map (renumber ρ)) name = (find? symbols name).map (renumber ρ) := List.find?_map

theorem LocalScope.get?_renumber (scope : LocalScope) (name : String) :
    (scope.renumber ρ).get? name = (scope.get? name).map (Symbol.renumber ρ) :=
  Symbol.find?_renumber scope.symbols name

/-- A statement that is left sees a symbol if it sees it before. -/
theorem Symbol.isVisible_renumber (h : ρ.opens n = false) (s : Symbol) :
    (s.renumber ρ).isVisible (some (ρ.number n)) = s.isVisible (some n) := by
  show (decide (s.kind ≠ .var) || decide (ρ.order s.order ≤ ρ.number n)) = (decide (s.kind ≠ .var) || decide (s.order ≤ n))
  rw [decide_eq_decide.mpr (Rebracing.order_le_iff h s.order)]

namespace Catalog

variable {c : Catalog}

theorem get?_renumber (c : Catalog) (name : String) : ((c.renumber ρ).current.bind fun scope => scope.get? name)
    = (c.current.bind fun scope => scope.get? name).map (Symbol.renumber ρ) := by
  rw [renumber]
  cases c.current with
  | none => rfl
  | some scope => exact scope.get?_renumber name

theorem IsUnordered.lookupGlobal (h : c.IsUnordered) (name : String) :
    (c.lookupGlobal name).map (Symbol.renumber ρ) = c.lookupGlobal name := by
  cases hs : c.lookupGlobal name with
  | none => rfl
  | some s => exact congrArg some (Symbol.renumber_of_unordered (h s (List.mem_of_find?_eq_some hs)))

/-- A name stands for the same symbol in other braces. -/
theorem lookup_renumber (hc : c.IsUnordered) (h : ρ.opens n = false) (name : String) :
    (c.renumber ρ).lookup name (some (ρ.number n)) = (c.lookup name (some n)).map (Symbol.renumber ρ) := by
  have hglobal : (c.renumber ρ).lookupGlobal name = (c.lookupGlobal name).map (Symbol.renumber ρ) :=
    (hc.lookupGlobal name).symm
  unfold lookup
  rw [c.get?_renumber name, hglobal]
  cases c.current.bind fun scope => scope.get? name with
  | none => rfl
  | some s =>
    rw [Option.map_some, Option.filter_some, Option.filter_some, s.isVisible_renumber h]
    cases s.isVisible (some n) <;> rfl

theorem label?_renumber (c : Catalog) (name : String) :
    (c.renumber ρ).label? name = (c.label? name).map (Symbol.renumber ρ) := by
  unfold label?
  rw [c.get?_renumber name]
  cases c.current.bind fun scope => scope.get? name with
  | none => rfl
  | some s =>
    have hkind : (s.renumber ρ).kind = s.kind := rfl
    rw [Option.map_some, Option.filter_some, Option.filter_some, hkind]
    split <;> rfl

theorem intConstant?_renumber (hc : c.IsUnordered) (h : ρ.opens n = false) (name : String) :
    (c.renumber ρ).intConstant? name (some (ρ.number n)) = c.intConstant? name (some n) := by
  unfold intConstant?
  rw [lookup_renumber hc h name]
  cases c.lookup name (some n) with
  | none => rfl
  | some s =>
    obtain ⟨name, kind, level, ty, span, owner, value, order⟩ := s
    cases kind
    case const =>
      obtain _ | t := ty
      · rfl
      · cases t with
        | primitive p => obtain _ | _ | _ := value <;> cases p <;> rfl
        | void | pointer _ | array _ _ | struct _ | func _ _ => rfl
    all_goals rfl

end Catalog

/-! ## Written types -/

/-- A result or a cause in other braces. -/
def Rebracing.caused {α : Type} (ρ : Rebracing) (f : α → α) : Except Problem.Cause α → Except Problem.Cause α
  | .error cause => .error (cause.renumber ρ)
  | .ok a => .ok (f a)

/-- A result or a halt in other braces. -/
def Rebracing.halted {α : Type} (ρ : Rebracing) (f : α → α) : Except Halt α → Except Halt α
  | .error halt => .error (halt.renumber ρ)
  | .ok a => .ok (f a)

theorem Rebracing.mapError_caused {α : Type} {f : α → α} (x : Except Problem.Cause α) (span : Span) :
    (ρ.caused f x).mapError (Halt.at span) = ρ.halted f (x.mapError (Halt.at span)) := by
  cases x <;> rfl

namespace Catalog

variable {c : Catalog}

theorem namedType_renumber (c : Catalog) (allowVoid : Bool) (name : String) :
    (c.renumber ρ).namedType allowVoid name = ρ.caused id (c.namedType allowVoid name) := by
  have hglobal : (c.renumber ρ).lookupGlobal name = c.lookupGlobal name := rfl
  unfold namedType
  rw [hglobal]
  split
  · split <;> rfl
  · split
    · rfl
    · split
      · rfl
      · split <;> rfl

theorem arraySize_renumber (hc : c.IsUnordered) (h : ρ.opens n = false) (size : ArraySize) :
    (c.renumber ρ).arraySize (some (ρ.number n)) size = ρ.caused id (c.arraySize (some n) size) := by
  have hpositive (k : Int) : (if 0 < k then Except.ok k else .error (.sizeNotPositive k))
      = ρ.caused id (if 0 < k then Except.ok k else .error (.sizeNotPositive k)) := by
    split <;> rfl
  cases size with
  | int k => exact hpositive k
  | name name =>
    unfold arraySize
    dsimp only
    rw [intConstant?_renumber hc h name]
    cases c.intConstant? name (some n) with
    | none => rfl
    | some k => exact hpositive k

end Catalog

namespace TypeExpr

variable {c : Catalog}

mutual

/-- A written type stands for the same type in other braces. -/
theorem resolve_renumber (hc : c.IsUnordered) (h : ρ.opens n = false) (allowVoid : Bool) : (w : TypeExpr) →
    w.resolve (c.renumber ρ) (some (ρ.number n)) allowVoid = ρ.halted id (w.resolve c (some n) allowVoid)
  | .named name span => by rw [resolve, resolve, c.namedType_renumber, Rebracing.mapError_caused]
  | .pointer e _ => by
    rw [resolve, resolve, e.resolve_renumber hc h]
    cases e.resolve c (some n) false <;> rfl
  | .array e size span => by
    rw [resolve, resolve, e.resolve_renumber hc h, Catalog.arraySize_renumber hc h, Rebracing.mapError_caused]
    cases e.resolve c (some n) false with
    | error halt => rfl
    | ok t => cases (c.arraySize (some n) size).mapError (Halt.at span) <;> rfl
  | .func r ps _ => by
    rw [resolve, resolve, resolveAll_renumber hc h ps, r.resolve_renumber hc h]
    cases resolveAll c (some n) ps with
    | error halt => rfl
    | ok ts => cases r.resolve c (some n) true <;> rfl
  | .foreign _ => rfl

theorem resolveAll_renumber (hc : c.IsUnordered) (h : ρ.opens n = false) : (ws : List TypeExpr) →
    resolveAll (c.renumber ρ) (some (ρ.number n)) ws = ρ.halted id (resolveAll c (some n) ws)
  | [] => rfl
  | w :: ws => by
    rw [resolveAll, resolveAll, w.resolve_renumber hc h, resolveAll_renumber hc h ws]
    cases w.resolve c (some n) false with
    | error halt => rfl
    | ok t => cases resolveAll c (some n) ws <;> rfl

end

end TypeExpr

/-! ## Declarations of a body -/

def Collected.renumber (ρ : Rebracing) (c : Collected) : Collected :=
  ⟨c.scope.renumber ρ, ρ.number c.count, c.halt.map (Halt.renumber ρ)⟩

namespace LocalScope

theorem add_renumber (scope : LocalScope) (s : Symbol) :
    (scope.renumber ρ).add (s.renumber ρ) = ρ.halted (renumber ρ) (scope.add s) := by
  have hget : (scope.renumber ρ).get? (s.renumber ρ).name = (scope.get? s.name).map (Symbol.renumber ρ) :=
    scope.get?_renumber s.name
  unfold add declare
  rw [hget]
  cases scope.get? s.name with
  | some previous => rfl
  | none => simp [Except.mapError, Rebracing.halted, renumber, Symbol.renumber]

/-- What is declared in front of a body is declared there in other braces. -/
theorem addAll_renumber (scope : LocalScope) {ss : List (Except Misplaced Symbol)}
    (h : ∀ s, Except.ok s ∈ ss → s.order = -1) : (scope.renumber ρ).addAll ss
      = ((scope.addAll ss).1.renumber ρ, (scope.addAll ss).2.map (Halt.renumber ρ)) := by
  induction ss generalizing scope with
  | nil => rfl
  | cons s ss ih =>
    cases s with
    | error m => rfl
    | ok s =>
      have hs : s.renumber ρ = s := Symbol.renumber_of_unordered (h s List.mem_cons_self)
      have hstep (scope : LocalScope) : (Except.ok s).mapError Halt.misplaced >>= scope.add = scope.add s := rfl
      have hadd := scope.add_renumber (ρ := ρ) s
      rw [hs] at hadd
      simp only [addAll, hstep, hadd]
      cases scope.add s with
      | error halt => rfl
      | ok scope' => exact ih scope' fun s hs => h s (List.mem_cons_of_mem _ hs)

end LocalScope

namespace Stmt

variable {c : Catalog}

/-- A statement that is left declares what it declares. -/
theorem symbol?_rebraced (hc : c.IsUnordered) (h : ρ.opens n = false) (s : Stmt) :
    (s.rebraced ρ n).symbol? (c.renumber ρ) (ρ.number n) = ρ.halted (Option.map (Symbol.renumber ρ)) (s.symbol? c n) := by
  cases s with
  | var d =>
    show (var d).symbol? _ _ = _
    simp only [symbol?, d.type.resolve_renumber hc h]
    cases d.type.resolve c (some n) false <;> rfl
  | block body span =>
    rw [rebraced_block h]
    rfl
  | ifThen _ _ braces _ _ | whileDo _ _ braces _ => cases braces <;> rfl
  | assign _ _ _ | call _ _ | breakLoop _ | continueLoop _ | label _ _ _ | goto _ _ _ | foreign _ => rfl

/-- A block declares nothing. -/
theorem symbol?_of_isBlock {s : Stmt} (h : s.isBlock = true) : s.symbol? c n = .ok none := by
  cases s with
  | block _ _ => rfl
  | var _ | assign _ _ _ | call _ _ | ifThen _ _ _ _ _ | whileDo _ _ _ _ | breakLoop _ | continueLoop _ | label _ _ _
  | goto _ _ _ | foreign _ => cases h

/-- What is left of statements declares what they declare. -/
theorem collect_remaining (hc : c.IsUnordered) (scope : LocalScope) (n : Nat) (ss : List Stmt) (h : ρ.Fits n ss) :
    collect c (scope.renumber ρ) (ρ.number n) (remaining ρ n ss) = (collect c scope n ss).renumber ρ := by
  induction ss generalizing scope n with
  | nil => rfl
  | cons s ss ih =>
    cases ho : ρ.opens n with
    | true =>
      rw [remaining_cons_of_opens ho, collect, symbol?_of_isBlock (h.1 ho), ← ih scope (n + 1) h.2,
        Rebracing.number_succ_of_opens ho]
    | false =>
      have hsymbol : (s.rebraced ρ n).symbol? (c.within (scope.renumber ρ)) (ρ.number n)
          = ρ.halted (Option.map (Symbol.renumber ρ)) (s.symbol? (c.within scope) n) :=
        symbol?_rebraced (c := c.within scope) hc ho s
      rw [remaining_cons ho, collect, collect, hsymbol]
      cases s.symbol? (c.within scope) n with
      | error halt =>
        simp only [Rebracing.halted, Collected.renumber, Rebracing.number_succ ho, Option.map_some]
      | ok symbol =>
        cases symbol with
        | none =>
          simp only [Rebracing.halted, Option.map_none]
          rw [← ih scope (n + 1) h.2, Rebracing.number_succ ho]
        | some symbol =>
          simp only [Rebracing.halted, Option.map_some, LocalScope.add_renumber]
          cases scope.add symbol with
          | error halt => simp only [Collected.renumber, Rebracing.number_succ ho, Option.map_some]
          | ok scope' =>
            simp only
            rw [← ih scope' (n + 1) h.2, Rebracing.number_succ ho]

end Stmt

end FlatScope
