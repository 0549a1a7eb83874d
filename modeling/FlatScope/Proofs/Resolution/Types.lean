/-
  What a written type depends on. Of a catalog only the kinds of the global symbols, the constants, and the open scope
  matter (`Catalog.AgreesOnTypes.of_globals`), so the fields of a struct and the headers of variables and functions are
  resolved without a look at what other headers have been resolved to.
-/
import FlatScope.Proofs.Resolution.Results
import FlatScope.Resolution.Global

namespace FlatScope

namespace TypeExpr

mutual

/-- The names that give lengths of arrays in a written type. -/
def sizeNames : TypeExpr → List String
  | .array e (.name name) _ => name :: e.sizeNames
  | .array e (.int _) _ | .pointer e _ => e.sizeNames
  | .func r ps _ => sizeNamesAll ps ++ r.sizeNames
  | .named .. | .foreign _ => []

def sizeNamesAll : List TypeExpr → List String
  | [] => []
  | w :: ws => w.sizeNames ++ sizeNamesAll ws

end

variable {c c' : Catalog} {at? at?' : Option Int}

theorem arraySize_congr {name : String} (h : c'.intConstant? name at?' = c.intConstant? name at?) :
    c'.arraySize at?' (.name name) = c.arraySize at? (.name name) := by
  simp only [Catalog.arraySize, h]

mutual

/-- A written type stands for the same type wherever its names, and the names of its lengths, stand for the same. -/
theorem resolve_congr (hnamed : ∀ allowVoid name, c'.namedType allowVoid name = c.namedType allowVoid name) :
    (w : TypeExpr) → (∀ name ∈ w.sizeNames, c'.intConstant? name at?' = c.intConstant? name at?) →
    (allowVoid : Bool) → w.resolve c' at?' allowVoid = w.resolve c at? allowVoid
  | .named name span, _, allowVoid => by rw [resolve, resolve, hnamed]
  | .pointer e _, h, _ => by rw [resolve, resolve, resolve_congr hnamed e h false]
  | .array e (.name name) _, h, _ => by
    obtain ⟨hname, he⟩ := List.forall_mem_cons.mp h
    rw [resolve, resolve, resolve_congr hnamed e he false, arraySize_congr hname]
  | .array e (.int n) _, h, _ => by
    rw [resolve, resolve, resolve_congr hnamed e h false]
    rfl
  | .func r ps _, h, _ => by
    obtain ⟨hps, hr⟩ := List.forall_mem_append.mp h
    rw [resolve, resolve, resolveAll_congr hnamed ps hps, resolve_congr hnamed r hr true]
  | .foreign _, _, _ => rfl

theorem resolveAll_congr (hnamed : ∀ allowVoid name, c'.namedType allowVoid name = c.namedType allowVoid name) :
    (ws : List TypeExpr) →
    (∀ name ∈ sizeNamesAll ws, c'.intConstant? name at?' = c.intConstant? name at?) →
    resolveAll c' at?' ws = resolveAll c at? ws
  | [], _ => rfl
  | w :: ws, h => by
    obtain ⟨hw, hws⟩ := List.forall_mem_append.mp h
    rw [resolveAll, resolveAll, resolve_congr hnamed w hw false, resolveAll_congr hnamed ws hws]

end

theorem intConstant?_of_arraySize {name : String} {k : Int} (h : c.arraySize at? (.name name) = .ok k) :
    c.intConstant? name at? = some k ∧ 0 < k := by
  cases hc : c.intConstant? name at? with
  | none =>
    simp only [Catalog.arraySize, hc] at h
    exact nomatch h
  | some n =>
    simp only [Catalog.arraySize, hc] at h
    have h : (if 0 < n then pure n else throw (Problem.Cause.sizeNotPositive n) : Except Problem.Cause Int) = .ok k := h
    split at h
    · obtain rfl := Except.ok.inj h
      exact ⟨rfl, ‹0 < n›⟩
    · cases h

mutual

/-- The lengths in a written type that stands for a type are positive constants. -/
theorem exists_intConstant? : (w : TypeExpr) → {allowVoid : Bool} → {t : Ty} → w.resolve c at? allowVoid = .ok t →
    ∀ name ∈ w.sizeNames, ∃ k, c.intConstant? name at? = some k ∧ 0 < k
  | .pointer e _, _, _, h => by
    obtain ⟨t, he, -⟩ := Except.bind_eq_ok.mp h
    exact exists_intConstant? e he
  | .array e (.name name) _, _, _, h => by
    obtain ⟨t, he, h⟩ := Except.bind_eq_ok.mp h
    obtain ⟨k, hk, -⟩ := Except.bind_eq_ok.mp h
    exact List.forall_mem_cons.mpr ⟨⟨k, intConstant?_of_arraySize (Except.mapError_eq_ok.mp hk)⟩, exists_intConstant? e he⟩
  | .array e (.int n) _, _, _, h => by
    obtain ⟨t, he, -⟩ := Except.bind_eq_ok.mp h
    exact exists_intConstant? e he
  | .func r ps _, _, _, h => by
    obtain ⟨ts, hps, h⟩ := Except.bind_eq_ok.mp h
    obtain ⟨t, hr, -⟩ := Except.bind_eq_ok.mp h
    exact List.forall_mem_append.mpr ⟨exists_intConstant?_all ps hps, exists_intConstant? r hr⟩
  | .named .., _, _, _ | .foreign _, _, _, _ => List.forall_mem_nil _

theorem exists_intConstant?_all : (ws : List TypeExpr) → {ts : List Ty} → resolveAll c at? ws = .ok ts →
    ∀ name ∈ sizeNamesAll ws, ∃ k, c.intConstant? name at? = some k ∧ 0 < k
  | [], _, _ => List.forall_mem_nil _
  | w :: ws, _, h => by
    obtain ⟨t, hw, h⟩ := Except.bind_eq_ok.mp h
    obtain ⟨ts, hws, -⟩ := Except.bind_eq_ok.mp h
    exact List.forall_mem_append.mpr ⟨exists_intConstant? w hw, exists_intConstant?_all ws hws⟩

end

end TypeExpr

namespace Catalog

/-- A catalog gives written types what another one gives them. -/
structure AgreesOnTypes (c c' : Catalog) : Prop where
  named : ∀ allowVoid name, c'.namedType allowVoid name = c.namedType allowVoid name
  constant : ∀ name at?, c'.intConstant? name at? = c.intConstant? name at?

variable {c c' : Catalog} {name : String} {at? at?' : Option Int}

theorem intConstant?_eq_none (h : ∀ s, c.lookup name at? = some s → s.kind ≠ .const) : c.intConstant? name at? = none := by
  unfold intConstant?
  split
  · rename_i hs
    exact (h _ hs rfl).elim
  · rfl

/-- What a name must stand for to be the length of an array. -/
theorem intConstant?_eq_some {k : Int} (h : c.intConstant? name at? = some k) :
    ∃ s, c.lookup name at? = some s ∧ s.kind = .const ∧ s.ty = some .int ∧ s.value = some (.int k) := by
  unfold intConstant? at h
  split at h
  · rename_i s hs
    obtain rfl := Option.some.inj h
    exact ⟨_, hs, rfl, rfl, rfl⟩
  · cases h

theorem intConstant?_eq_of_lookup (h : c'.lookup name at?' = c.lookup name at?) :
    c'.intConstant? name at?' = c.intConstant? name at? := by
  unfold intConstant?
  rw [h]

/-- A name stands for a symbol of the open scope wherever one can be seen, or for the global one. -/
theorem lookup_cases (hcurrent : c'.current = c.current) (name : String) (at? : Option Int) :
    c'.lookup name at? = c.lookup name at?
      ∨ c.lookup name at? = c.lookupGlobal name ∧ c'.lookup name at? = c'.lookupGlobal name := by
  unfold lookup
  rw [hcurrent]
  cases (c.current.bind fun scope => scope.get? name).filter fun s => s.isVisible at? with
  | some s => exact .inl rfl
  | none => exact .inr ⟨rfl, rfl⟩

theorem AgreesOnTypes.of_globals (hcurrent : c'.current = c.current)
    (hkind : ∀ name, (c'.lookupGlobal name).map Symbol.kind = (c.lookupGlobal name).map Symbol.kind)
    (hconst : ∀ name s, c.lookupGlobal name = some s → s.kind = .const → c'.lookupGlobal name = some s) :
    c.AgreesOnTypes c' where
  named allowVoid name := by
    have hkind := hkind name
    unfold namedType
    cases hs : c.lookupGlobal name with
    | none =>
      rw [hs, Option.map_none, Option.map_eq_none_iff] at hkind
      rw [hkind]
    | some s =>
      rw [hs, Option.map_some, Option.map_eq_some_iff] at hkind
      obtain ⟨s', hs', hk⟩ := hkind
      simp only [hs', hk]
  constant name at? := by
    obtain hsame | ⟨hglobal, hglobal'⟩ := lookup_cases hcurrent name at?
    · exact intConstant?_eq_of_lookup hsame
    · by_cases hc : ∃ s, c.lookupGlobal name = some s ∧ s.kind = .const
      · obtain ⟨s, hs, hk⟩ := hc
        exact intConstant?_eq_of_lookup (by rw [hglobal, hglobal', hs, hconst name s hs hk])
      · rw [intConstant?_eq_none, intConstant?_eq_none]
        · intro s hs hk
          exact hc ⟨s, hglobal ▸ hs, hk⟩
        · intro s hs hk
          have hkind := hkind name
          rw [← hglobal', hs, Option.map_some, eq_comm, Option.map_eq_some_iff] at hkind
          obtain ⟨t, ht, htk⟩ := hkind
          exact hc ⟨t, ht, htk.trans hk⟩

namespace AgreesOnTypes

variable (h : c.AgreesOnTypes c')
include h

theorem resolve (at? : Option Int) (allowVoid : Bool) (t : TypeExpr) : t.resolve c' at? allowVoid = t.resolve c at? allowVoid :=
  t.resolve_congr h.named (fun name _ => h.constant name at?) allowVoid

theorem member (m : Member) : m.resolve c' = m.resolve c := by
  rw [Member.resolve, Member.resolve]
  congr 1
  funext t
  exact h.resolve none false t

theorem resolveFields (struct : String) (known : List (String × Ty)) (ms : List Member) :
    StructDecl.resolveFields c' struct known ms = StructDecl.resolveFields c struct known ms := by
  induction ms generalizing known with
  | nil => rfl
  | cons m ms ih => simp only [StructDecl.resolveFields, StructDecl.field, h.member, ih]

theorem signature (d : FuncDecl) : d.signature c' = d.signature c := by
  have hmember : Member.resolve c' = Member.resolve c := funext h.member
  rw [FuncDecl.signature, FuncDecl.signature, hmember, h.resolve none true]

end AgreesOnTypes

end Catalog

end FlatScope
