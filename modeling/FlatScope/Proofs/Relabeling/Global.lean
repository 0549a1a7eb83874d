/-
  Global declarations in other labels: the fields of structs, signatures, and ways from a struct back to itself come out
  in the new labels as in the old ones.
-/
import FlatScope.Proofs.Relabeling.Body

namespace FlatScope

variable {φ : Relabeling} {c c' : Catalog}

/-! ## Members -/

theorem Member.type_relabel (m : Member) : (m.relabel φ).type = m.type.map (TypeExpr.relabel φ) := by
  cases m with
  | var _ | param _ => rfl
  | foreign node type? => cases type? <;> rfl

theorem Member.resolve_relabel (h : c.Mirrors φ c') (m : Member) :
    (m.relabel φ).resolve c' = φ.halted (Ty.relabel φ) (m.resolve c) := by
  unfold Member.resolve
  rw [Member.type_relabel]
  cases m.type with
  | error misplaced => rfl
  | ok w => exact w.resolve_relabel h false

namespace StructDecl

/-- A field in other labels. -/
def relabelField (φ : Relabeling) (f : String × Ty) : String × Ty := (φ.name f.1, f.2.relabel φ)

theorem any_field_relabel (known : List (String × Ty)) (name : String) :
    (known.map (relabelField φ)).any (fun f => f.1 = φ.name name) = known.any fun f => f.1 = name := by
  rw [List.any_map]
  congr 1
  funext f
  simp [relabelField, Relabeling.name_inj]

theorem field_relabel (h : c.Mirrors φ c') (struct : String) (known : List (String × Ty)) (m : Member) :
    field c' (φ.name struct) (known.map (relabelField φ)) (m.relabel φ)
      = φ.halted (relabelField φ) (field c struct known m) := by
  unfold field
  rw [Member.name_relabel, m.resolve_relabel h, Member.span_relabel]
  cases m.name with
  | error misplaced => rfl
  | ok name =>
    simp only [Except.map, Except.mapError, bind, Except.bind, any_field_relabel]
    split
    · rfl
    · cases m.resolve c <;> rfl

theorem resolveFields_relabel (h : c.Mirrors φ c') (struct : String) (known : List (String × Ty)) (ms : List Member) :
    resolveFields c' (φ.name struct) (known.map (relabelField φ)) (ms.map (Member.relabel φ))
      = ((resolveFields c struct known ms).1.map (relabelField φ),
        (resolveFields c struct known ms).2.map (Halt.relabel φ)) := by
  induction ms generalizing known with
  | nil => rfl
  | cons m ms ih =>
    rw [List.map_cons, resolveFields, resolveFields, field_relabel h]
    cases field c struct known m with
    | error halt => rfl
    | ok f =>
      have hknown := ih (known ++ [f])
      rw [List.map_append, List.map_singleton] at hknown
      exact hknown

end StructDecl

theorem mapM_relabel {α β : Type} {relabelA : α → α} {relabelB : β → β} {f f' : α → Except Halt β}
    (h : ∀ a, f' (relabelA a) = φ.halted relabelB (f a)) (as : List α) :
    (as.map relabelA).mapM f' = φ.halted (List.map relabelB) (as.mapM f) := by
  induction as with
  | nil => rfl
  | cons a as ih =>
    rw [List.map_cons, List.mapM_cons, List.mapM_cons, h, ih]
    cases f a with
    | error halt => rfl
    | ok b => cases as.mapM f <;> rfl

theorem FuncDecl.signature_relabel (h : c.Mirrors φ c') (d : FuncDecl) :
    (d.relabel φ).signature c' = φ.halted (Signature.relabel φ) (d.signature c) := by
  unfold FuncDecl.signature
  dsimp only [FuncDecl.relabel]
  rw [mapM_relabel (Member.resolve_relabel h), d.result.resolve_relabel h]
  cases d.params.mapM (Member.resolve c) with
  | error halt => rfl
  | ok params => cases d.result.resolve c none true <;> rfl

/-! ## Containment -/

theorem Ty.heldStruct?_relabel (t : Ty) : (t.relabel φ).heldStruct? = t.heldStruct?.map φ.name := by
  unfold heldStruct?
  rw [innermost_relabel]
  cases t.innermost <;> rfl

theorem StructInfo.held_relabel (s : StructInfo) : (s.relabel φ).held = s.held.map φ.name := by
  simp only [held, relabel, List.filterMap_map, List.map_filterMap]
  congr 1
  funext f
  exact Ty.heldStruct?_relabel f.2

namespace Catalog

theorem Mirrors.held (h : c.Mirrors φ c') (name : String) : c'.held (φ.name name) = (c.held name).map φ.name := by
  unfold Catalog.held
  rw [h.structs name]
  cases c.struct? name with
  | none => rfl
  | some s => exact s.held_relabel

/-- A way from struct to struct in other labels. -/
def relabelWay (φ : Relabeling) (way : String × List String) : String × List String := (φ.name way.1, way.2.map φ.name)

theorem Mirrors.follow (h : c.Mirrors φ c') (start : String) (seen : List String) (ways : List (String × List String)) :
    c'.follow (φ.name start) (seen.map φ.name) (ways.map (relabelWay φ))
      = (c.follow start seen ways).map (List.map φ.name) := by
  induction seen, ways using Catalog.follow.induct c start with
  | case1 seen => rw [List.map_nil, Catalog.follow, Catalog.follow, Option.map_none]
  | case2 seen before ways =>
    rw [List.map_cons, relabelWay, Catalog.follow, Catalog.follow, if_pos rfl, if_pos rfl, Option.map_some,
      List.map_reverse, List.map_cons]
  | case3 seen name before ways hn hs ih =>
    have hn' : φ.name name ≠ φ.name start := fun he => hn (φ.injective he)
    have hs' : φ.name name ∈ seen.map φ.name := List.mem_map_of_mem hs
    rw [List.map_cons, relabelWay, Catalog.follow, Catalog.follow, if_neg hn, if_neg hn', dif_pos hs, dif_pos hs', ih]
  | case4 seen name before ways hn hs ih =>
    have hn' : φ.name name ≠ φ.name start := fun he => hn (φ.injective he)
    have hs' : φ.name name ∉ seen.map φ.name := fun hm => hs (by simpa [Relabeling.name_inj] using hm)
    rw [List.map_cons, relabelWay, Catalog.follow, Catalog.follow, if_neg hn, if_neg hn', dif_neg hs, dif_neg hs', ← ih,
      h.held, List.map_append, List.map_map, List.map_map]
    rfl

theorem Mirrors.cycle? (h : c.Mirrors φ c') (name : String) :
    c'.cycle? (φ.name name) = (c.cycle? name).map (List.map φ.name) := by
  have hways : ((c.held name).map φ.name).map (·, [φ.name name])
      = ((c.held name).map (·, [name])).map (relabelWay φ) := by
    rw [List.map_map, List.map_map]
    rfl
  rw [Catalog.cycle?, Catalog.cycle?, h.held, hways]
  exact h.follow name [] _

end Catalog

end FlatScope
