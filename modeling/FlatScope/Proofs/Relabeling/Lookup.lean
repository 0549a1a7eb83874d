/-
  Names and written types in other labels. A catalog mirrors another if it answers to every name in its own labels what
  the other answers in the old ones (`Catalog.Mirrors`); neither the order of its symbols nor its finished scopes matter
  for that. Then a written type stands for the same type in the new labels, or has the same problem in them
  (`TypeExpr.resolve_relabel`).
-/
import FlatScope.Proofs.Relabeling.Basic

namespace FlatScope

variable {φ : Relabeling}

/-! ## Looking up by name -/

theorem Relabeling.find?_map {α : Type} (key : α → String) {f : α → α} (hf : ∀ a, key (f a) = φ.name (key a))
    (xs : List α) (name : String) :
    (xs.map f).find? (fun x => key x = φ.name name) = (xs.find? fun x => key x = name).map f := by
  rw [List.find?_map]
  congr 2
  funext x
  simp [hf, name_inj]

theorem Relabeling.lookup_map {α : Type} (f : α → α) (xs : List (String × α)) (name : String) :
    (xs.map fun x => (φ.name x.1, f x.2)).lookup (φ.name name) = (xs.lookup name).map f := by
  induction xs with
  | nil => rfl
  | cons x xs ih =>
    obtain ⟨key, a⟩ := x
    by_cases h : name = key
    · simp [h]
    · have h' : φ.name name ≠ φ.name key := fun he => h (φ.injective he)
      simp [List.lookup_cons, beq_eq_false_iff_ne.mpr h, beq_eq_false_iff_ne.mpr h', ih]

@[simp] theorem Symbol.isVisible_relabel (s : Symbol) (at? : Option Int) :
    (s.relabel φ).isVisible at? = s.isVisible at? := by
  cases at? <;> rfl

theorem Symbol.find?_relabel (symbols : List Symbol) (name : String) :
    find? (symbols.map (relabel φ)) (φ.name name) = (find? symbols name).map (relabel φ) :=
  Relabeling.find?_map Symbol.name (fun _ => rfl) symbols name

theorem LocalScope.get?_relabel (scope : LocalScope) (name : String) :
    (scope.relabel φ).get? (φ.name name) = (scope.get? name).map (Symbol.relabel φ) :=
  Symbol.find?_relabel scope.symbols name

namespace Catalog

/-- A catalog answers in other labels what another one answers. -/
structure Mirrors (φ : Relabeling) (c c' : Catalog) : Prop where
  globals : ∀ name, c'.lookupGlobal (φ.name name) = (c.lookupGlobal name).map (Symbol.relabel φ)
  structs : ∀ name, c'.struct? (φ.name name) = (c.struct? name).map (StructInfo.relabel φ)
  current : c'.current = c.current.map (LocalScope.relabel φ)

theorem mirrors_relabel (c : Catalog) : c.Mirrors φ (c.relabel φ) where
  globals name := Symbol.find?_relabel c.globals name
  structs name := Relabeling.find?_map StructInfo.name (fun _ => rfl) c.structs name
  current := rfl

variable {c c' : Catalog} {at? : Option Int}

theorem Mirrors.within (h : c.Mirrors φ c') (scope : LocalScope) :
    (c.within scope).Mirrors φ (c'.within (scope.relabel φ)) where
  globals := h.globals
  structs := h.structs
  current := rfl

theorem Mirrors.get? (h : c.Mirrors φ c') (name : String) :
    (c'.current.bind fun scope => scope.get? (φ.name name))
      = (c.current.bind fun scope => scope.get? name).map (Symbol.relabel φ) := by
  rw [h.current]
  cases c.current with
  | none => rfl
  | some scope => exact scope.get?_relabel name

theorem Mirrors.lookup (h : c.Mirrors φ c') (name : String) :
    c'.lookup (φ.name name) at? = (c.lookup name at?).map (Symbol.relabel φ) := by
  unfold Catalog.lookup
  rw [h.get? name, h.globals name]
  cases hl : c.current.bind fun scope => scope.get? name with
  | none => rfl
  | some s =>
    by_cases hv : s.isVisible at? = true
    · simp [Option.filter, hv]
    · simp [Option.filter, hv]

theorem Mirrors.label? (h : c.Mirrors φ c') (name : String) :
    c'.label? (φ.name name) = (c.label? name).map (Symbol.relabel φ) := by
  unfold Catalog.label?
  rw [h.get? name]
  cases c.current.bind fun scope => scope.get? name with
  | none => rfl
  | some s =>
    by_cases hk : s.kind = .label
    · simp [Option.filter, hk, Symbol.relabel]
    · simp [Option.filter, hk, Symbol.relabel]

theorem Mirrors.intConstant? (h : c.Mirrors φ c') (name : String) :
    c'.intConstant? (φ.name name) at? = c.intConstant? name at? := by
  unfold Catalog.intConstant?
  rw [h.lookup name]
  cases c.lookup name at? with
  | none => rfl
  | some s =>
    obtain ⟨name, kind, level, ty, span, owner, value, order⟩ := s
    cases ty with
    | none => simp [Symbol.relabel]
    | some t =>
      cases t with
      | primitive p =>
        obtain _ | _ | _ := value <;> cases kind <;> cases p <;> rfl
      | void | pointer _ | array _ _ | struct _ | func _ _ => simp [Symbol.relabel, Ty.relabel]

/-- The complete struct of a name. -/
theorem Mirrors.complete? (h : c.Mirrors φ c') (name : String) :
    (c'.struct? (φ.name name)).filter StructInfo.isComplete
      = ((c.struct? name).filter StructInfo.isComplete).map (StructInfo.relabel φ) := by
  rw [h.structs name]
  cases c.struct? name with
  | none => rfl
  | some s =>
    by_cases hc : s.isComplete = true
    · simp [Option.filter, hc, StructInfo.relabel]
    · simp [Option.filter, hc, StructInfo.relabel]

end Catalog

/-! ## Written types -/

/-- A result or a cause in other labels. -/
def Relabeling.caused {α : Type} (φ : Relabeling) (f : α → α) : Except Problem.Cause α → Except Problem.Cause α
  | .error cause => .error (cause.relabel φ)
  | .ok a => .ok (f a)

/-- A result or a halt in other labels. -/
def Relabeling.halted {α : Type} (φ : Relabeling) (f : α → α) : Except Halt α → Except Halt α
  | .error halt => .error (halt.relabel φ)
  | .ok a => .ok (f a)

theorem Relabeling.mapError_caused {α : Type} {f : α → α} (x : Except Problem.Cause α) (span : Span) :
    (φ.caused f x).mapError (Halt.at (φ.place span)) = φ.halted f (x.mapError (Halt.at span)) := by
  cases x <;> rfl

namespace Catalog

variable {c c' : Catalog} {at? : Option Int}

theorem Mirrors.namedType (h : c.Mirrors φ c') (allowVoid : Bool) (name : String) :
    c'.namedType allowVoid (φ.name name) = φ.caused (Ty.relabel φ) (c.namedType allowVoid name) := by
  unfold Catalog.namedType
  by_cases hv : name = "void"
  · simp only [hv, Relabeling.name_eq_void.mpr rfl, if_true]
    cases allowVoid <;> rfl
  · rw [if_neg hv, if_neg (mt Relabeling.name_eq_void.mp hv), Relabeling.primitive?_name, h.globals name]
    cases Primitive.ofName? name with
    | some p => rfl
    | none =>
      cases c.lookupGlobal name with
      | none => rfl
      | some s =>
        by_cases hk : s.kind = .struct
        · simp [hk, Symbol.relabel, Relabeling.caused, Ty.relabel]
        · simp [hk, Symbol.relabel, Relabeling.caused, Problem.Cause.relabel]

theorem Mirrors.arraySize (h : c.Mirrors φ c') (size : ArraySize) :
    c'.arraySize at? (size.relabel φ) = φ.caused id (c.arraySize at? size) := by
  cases size with
  | int n =>
    by_cases hn : 0 < n
    · simp [Catalog.arraySize, ArraySize.relabel, hn, Relabeling.caused]
      rfl
    · simp [Catalog.arraySize, ArraySize.relabel, hn, Relabeling.caused]
      rfl
  | name name =>
    simp only [Catalog.arraySize, ArraySize.relabel, h.intConstant? name]
    cases c.intConstant? name at? with
    | none => rfl
    | some n =>
      by_cases hn : 0 < n
      · simp [hn, Relabeling.caused]
        rfl
      · simp [hn, Relabeling.caused]
        rfl

end Catalog

namespace TypeExpr

variable {c c' : Catalog} {at? : Option Int}

mutual

/-- A written type stands in other labels for what it stands for. -/
theorem resolve_relabel (h : c.Mirrors φ c') (allowVoid : Bool) : (w : TypeExpr) →
    (w.relabel φ).resolve c' at? allowVoid = φ.halted (Ty.relabel φ) (w.resolve c at? allowVoid)
  | .named name span => by
    rw [relabel, resolve, resolve, h.namedType, Relabeling.mapError_caused]
  | .pointer e _ => by
    rw [relabel, resolve, resolve, e.resolve_relabel h]
    cases e.resolve c at? false <;> rfl
  | .array e size span => by
    rw [relabel, resolve, resolve, e.resolve_relabel h, h.arraySize, Relabeling.mapError_caused]
    cases e.resolve c at? false with
    | error halt => rfl
    | ok t => cases (c.arraySize at? size).mapError (Halt.at span) <;> rfl
  | .func r ps _ => by
    rw [relabel, resolve, resolve, resolveAll_relabelAll h ps, r.resolve_relabel h]
    cases resolveAll c at? ps with
    | error halt => rfl
    | ok ts =>
      cases r.resolve c at? true with
      | error halt => rfl
      | ok t =>
        show Except.ok (Ty.func (ts.map (Ty.relabel φ)) (t.relabel φ)) = .ok ((Ty.func ts t).relabel φ)
        rw [Ty.relabel, Ty.relabelAll_eq_map]
  | .foreign node => rfl

theorem resolveAll_relabelAll (h : c.Mirrors φ c') : (ws : List TypeExpr) →
    resolveAll c' at? (relabelAll φ ws) = φ.halted (List.map (Ty.relabel φ)) (resolveAll c at? ws)
  | [] => rfl
  | w :: ws => by
    rw [relabelAll, resolveAll, resolveAll, w.resolve_relabel h, resolveAll_relabelAll h ws]
    cases w.resolve c at? false with
    | error halt => rfl
    | ok t => cases resolveAll c at? ws <;> rfl

end

end TypeExpr

end FlatScope
