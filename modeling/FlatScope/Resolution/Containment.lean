/-
  Structs inside structs. A struct contains another by value if a field, all array layers aside, has its type. A
  struct on a cycle of containment would be infinitely large. `cycle?` looks for a way from a struct back to
  itself, depth first, and looks behind every struct once.
-/
import FlatScope.Catalog

namespace FlatScope

/-- The struct that a value of a type holds directly, if any. -/
def Ty.heldStruct? (t : Ty) : Option String :=
  match t.innermost with
  | .struct name => some name
  | _ => none

/-- The structs that a struct contains by value, field by field. -/
def StructInfo.held (s : StructInfo) : List String := s.fields.filterMap fun f => f.2.heldStruct?

namespace Catalog

/-- The structs that the struct of a name contains by value. -/
def held (c : Catalog) (name : String) : List String := ((c.struct? name).map StructInfo.held).getD []

/-- The structs that are not seen yet. -/
def unseen (c : Catalog) (seen : List String) : List StructInfo := c.structs.filter fun s => s.name ∉ seen

theorem unseen_cons (c : Catalog) (name : String) (seen : List String) :
    c.unseen (name :: seen) = (c.unseen seen).filter fun s => s.name ≠ name := by
  simp [unseen, List.filter_filter]

theorem unseen_cons_le (c : Catalog) (name : String) (seen : List String) :
    (c.unseen (name :: seen)).length ≤ (c.unseen seen).length := by
  rw [unseen_cons]; exact List.length_filter_le ..

theorem unseen_cons_lt {c : Catalog} {name : String} {seen : List String} {s : StructInfo}
    (hs : c.struct? name = some s) (hn : name ∉ seen) :
    (c.unseen (name :: seen)).length < (c.unseen seen).length := by
  have eq : s.name = name := by simpa using List.find?_some hs
  rw [unseen_cons, List.length_filter_lt_length_iff_exists]
  exact ⟨s, by simp [unseen, List.mem_of_find?_eq_some hs, eq, hn], by simp [eq]⟩

/-- Follows ways from `start` until one leads back to it. A way is given by its struct reached last and those before
it, the last one first; the ways behind a struct are followed before the ways beside it. -/
def follow (c : Catalog) (start : String) (seen : List String) (ways : List (String × List String)) :
    Option (List String) :=
  match ways with
  | [] => none
  | (name, before) :: ways =>
    if name = start then some (name :: before).reverse
    else if _h : name ∈ seen then follow c start seen ways
    else follow c start (name :: seen) ((c.held name).map (·, name :: before) ++ ways)
termination_by ((c.unseen seen).length, ways.length)
decreasing_by
  · exact Prod.Lex.right _ (by simp)
  · cases hs : c.struct? name with
    | some s => exact Prod.Lex.left _ _ (unseen_cons_lt hs _h)
    | none =>
      simp only [held, hs, Option.map_none, Option.getD_none, List.map_nil, List.nil_append]
      rcases Nat.lt_or_eq_of_le (unseen_cons_le c name seen) with lt | eq
      · exact Prod.Lex.left _ _ lt
      · rw [eq]; exact Prod.Lex.right _ (by simp)

/-- A way by value from a struct back to itself. -/
def cycle? (c : Catalog) (name : String) : Option (List String) :=
  c.follow name [] ((c.held name).map (·, [name]))

end Catalog

end FlatScope
