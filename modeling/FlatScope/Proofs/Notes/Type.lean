/-
  Written types are resolved to well-formed ones. A written type stands for a type that a value can have, and the result of a
  function perhaps for `void` (`TypeExpr.meets_resolve`); so do the fields of structs and the headers of functions. Where
  that fails the problem is one of a name, a size or a misused `void`: only the search for structs inside themselves
  complains of containment, and only the checks of values tell types apart (`Halt.IsPlain`).
-/
import FlatScope.Proofs.Notes.Basic
import FlatScope.Proofs.Resolution.Results
import FlatScope.Resolution.Global

namespace FlatScope

/-! ## Outcomes -/

/-- What comes of a computation has one property if it fails and another one if it does not. -/
def Meets {ε α : Type} (failed : ε → Prop) (done : α → Prop) : Except ε α → Prop
  | .error e => failed e
  | .ok a => done a

namespace Meets

variable {ε ε' α β : Type} {failed : ε → Prop} {done : α → Prop} {x : Except ε α}

theorem bind {done' : β → Prop} {f : α → Except ε β} (h : Meets failed done x) (hf : ∀ a, done a → Meets failed done' (f a)) :
    Meets failed done' (x >>= f) := by
  cases x with
  | error e => exact h
  | ok a => exact hf a h

theorem mapError {failed' : ε' → Prop} {f : ε → ε'} (h : Meets failed done x) (hf : ∀ e, failed e → failed' (f e)) :
    Meets failed' done (x.mapError f) := by
  cases x with
  | error e => exact hf e h
  | ok a => exact h

theorem of_ok {a : α} (h : Meets failed done x) (hx : x = .ok a) : done a := by
  subst hx
  exact h

theorem of_error {e : ε} (h : Meets failed done x) (hx : x = .error e) : failed e := by
  subst hx
  exact h

theorem imp {failed' : ε → Prop} {done' : α → Prop} (h : Meets failed done x) (hf : ∀ e, failed e → failed' e)
    (hd : ∀ a, done a → done' a) : Meets failed' done' x := by
  cases x with
  | error e => exact hf e h
  | ok a => exact hd a h

end Meets

/-- The types that a cause tells apart: the one that is wanted, and the one that is there. -/
def Problem.Cause.mismatch? : Problem.Cause → Option (Ty × Ty)
  | .indexNotInt t | .conditionType t => some (.int, t)
  | .argumentType _ _ expected actual | .elementType _ _ expected actual => some (expected, actual)
  | .assignedType value target => some (target, value)
  | _ => none

/-- A cause of problems is one other than containment, and the types that it tells apart are different, each of them
from a class or `void`. -/
structure Problem.Cause.IsPlain (V : Ty → Prop) (cause : Problem.Cause) : Prop where
  kind : cause.kind ≠ .selfContainingStruct
  differ : ∀ t u, cause.mismatch? = some (t, u) → t ≠ u ∧ (V t ∨ t = .void) ∧ (V u ∨ u = .void)

namespace Problem.Cause.IsPlain

variable {V V' : Ty → Prop} {cause : Problem.Cause}

/-- A cause of a known kind that tells no types apart is seen to be plain by `rfl`. -/
theorem of_kind (h : decide (cause.kind = .selfContainingStruct) = false) (hnone : cause.mismatch? = none) : cause.IsPlain V where
  kind := of_decide_eq_false h
  differ t u hmismatch := by
    rw [hnone] at hmismatch
    cases hmismatch

/-- A cause that tells two types apart. -/
theorem of_types {t u : Ty} (hkind : cause.kind ≠ .selfContainingStruct) (h : cause.mismatch? = some (t, u)) (hne : t ≠ u)
    (ht : V t ∨ t = .void) (hu : V u ∨ u = .void) : cause.IsPlain V where
  kind := hkind
  differ t' u' hmismatch := by
    obtain ⟨rfl, rfl⟩ := Prod.mk.inj (Option.some.inj (h.symm.trans hmismatch))
    exact ⟨hne, ht, hu⟩

theorem mono (h : cause.IsPlain V) (hV : ∀ t, V t → V' t) : cause.IsPlain V' where
  kind := h.kind
  differ t u hmismatch :=
    (h.differ t u hmismatch).imp_right fun hvalues => hvalues.imp (Or.imp_left (hV t)) (Or.imp_left (hV u))

end Problem.Cause.IsPlain

variable {V : Ty → Prop}

/-- A halt at a problem is one at a plain cause. -/
def Halt.IsPlain (V : Ty → Prop) : Halt → Prop
  | .problem p => p.cause.IsPlain V
  | .misplaced _ => True

theorem Halt.isPlain_at {span : Span} (cause : Problem.Cause) (h : cause.IsPlain V) : (Halt.at span cause).IsPlain V := h

theorem Halt.isPlain_atExpr (cause : Problem.Cause) (h : cause.IsPlain V) (e : Expr) : (Halt.atExpr e cause).IsPlain V := by
  unfold atExpr
  split
  · split
    · exact h
    · trivial
  · exact h

/-! ## Types -/

/-- The names of the structs that are registered. -/
abbrev Catalog.structNames (c : Catalog) : List String := c.structs.map StructInfo.name

/-- The names of structs are those of registered ones. -/
def Catalog.KnowsStructs (c : Catalog) : Prop := ∀ name s, c.lookupGlobal name = some s → s.kind = .struct → name ∈ c.structNames

namespace Catalog

variable {c : Catalog}

theorem meets_namedType (h : c.KnowsStructs) (allowVoid : Bool) (name : String) :
    Meets (Problem.Cause.IsPlain V) (fun t => t.IsWellFormed c.structNames ∨ allowVoid = true ∧ t = .void)
      (c.namedType allowVoid name) := by
  unfold namedType
  split
  · split
    · exact .inr ⟨by assumption, rfl⟩
    · exact Problem.Cause.IsPlain.of_kind rfl rfl
  · split
    · exact .inl trivial
    · split
      · exact Problem.Cause.IsPlain.of_kind rfl rfl
      · rename_i s hs
        split
        · exact .inl (h name s hs (by assumption))
        · exact Problem.Cause.IsPlain.of_kind rfl rfl

theorem meets_arraySize (c : Catalog) (at? : Option Int) (size : ArraySize) :
    Meets (Problem.Cause.IsPlain V) (fun n => 0 < n) (c.arraySize at? size) := by
  have hpositive (n : Int) : Meets (Problem.Cause.IsPlain V) (fun n => 0 < n)
      (if 0 < n then pure n else throw (.sizeNotPositive n) : Except Problem.Cause Int) := by
    split
    · assumption
    · exact Problem.Cause.IsPlain.of_kind rfl rfl
  cases size with
  | int n => exact hpositive n
  | name name =>
    rw [arraySize]
    cases c.intConstant? name at? with
    | some n => exact hpositive n
    | none => exact Problem.Cause.IsPlain.of_kind rfl rfl

end Catalog

namespace TypeExpr

variable {c : Catalog}

mutual

/-- A written type stands for a type that a value can have, or for `void` where that is allowed. -/
theorem meets_resolve (h : c.KnowsStructs) (at? : Option Int) : (w : TypeExpr) → (allowVoid : Bool) →
    Meets (Halt.IsPlain V) (fun t => t.IsWellFormed c.structNames ∨ allowVoid = true ∧ t = .void) (w.resolve c at? allowVoid)
  | .named name span, allowVoid => by
    rw [resolve]
    exact (c.meets_namedType h allowVoid name).mapError fun cause hc => Halt.isPlain_at cause hc
  | .pointer e _, _ => by
    rw [resolve]
    refine (meets_resolve h at? e false).bind fun t ht => ?_
    exact .inl (ht.resolve_right nofun)
  | .array e size span, _ => by
    rw [resolve]
    refine (meets_resolve h at? e false).bind fun t ht => ?_
    refine ((c.meets_arraySize at? size).mapError fun cause hc => Halt.isPlain_at cause hc).bind fun n hn => ?_
    exact .inl ⟨hn, ht.resolve_right nofun⟩
  | .func r ps _, _ => by
    rw [resolve]
    refine (meets_resolveAll h at? ps).bind fun ts hts => ?_
    refine (meets_resolve h at? r true).bind fun t ht => ?_
    exact .inl ⟨hts, ht.symm.imp_left And.right⟩
  | .foreign _, _ => trivial

theorem meets_resolveAll (h : c.KnowsStructs) (at? : Option Int) : (ws : List TypeExpr) →
    Meets (Halt.IsPlain V) (Ty.AreWellFormed c.structNames) (resolveAll c at? ws)
  | [] => trivial
  | w :: ws => by
    rw [resolveAll]
    refine (meets_resolve h at? w false).bind fun t ht => ?_
    refine (meets_resolveAll h at? ws).bind fun ts hts => ?_
    exact ⟨ht.resolve_right nofun, hts⟩

end

/-- A written type stands for a type that a value can have. -/
theorem meets_resolve_value (h : c.KnowsStructs) (at? : Option Int) (w : TypeExpr) :
    Meets (Halt.IsPlain V) (Ty.IsWellFormed c.structNames) (w.resolve c at? false) :=
  (meets_resolve h at? w false).imp (fun _ hhalt => hhalt) fun _ ht => ht.resolve_right nofun

end TypeExpr

/-! ## Declarations -/

theorem Foreign.meets_part {α : Type} (node : Foreign) (part : String) (value? : Option α) :
    Meets (Halt.IsPlain V) (fun _ => True) ((node.part part value?).mapError Halt.misplaced) := by
  cases value? <;> trivial

namespace Member

theorem meets_name (m : Member) : Meets (Halt.IsPlain V) (fun _ => True) (m.name.mapError Halt.misplaced) := by
  cases m with
  | var _ | param _ => trivial
  | foreign node type? => exact node.meets_part "name" node.name

theorem meets_type (m : Member) : Meets (Halt.IsPlain V) (fun _ => True) (m.type.mapError Halt.misplaced) := by
  cases m with
  | var _ | param _ => trivial
  | foreign node type? => exact node.meets_part "type_expr" type?

theorem meets_resolve {c : Catalog} (h : c.KnowsStructs) (m : Member) :
    Meets (Halt.IsPlain V) (Ty.IsWellFormed c.structNames) (m.resolve c) :=
  m.meets_type.bind fun w _ => w.meets_resolve_value h none

end Member

variable {c : Catalog} (h : c.KnowsStructs)
include h

theorem StructDecl.meets_field (struct : String) (known : List (String × Ty)) (m : Member) :
    Meets (Halt.IsPlain V) (fun f => f.2.IsWellFormed c.structNames) (field c struct known m) := by
  rw [field]
  apply Meets.bind m.meets_name
  intro name _
  dsimp only
  split
  · exact Halt.isPlain_at (.duplicateField name struct) (.of_kind rfl rfl)
  · exact (m.meets_resolve h).bind fun t ht => ht

/-- The fields of a struct that are known have types that values can have. -/
theorem StructDecl.isWellFormed_of_resolveFields (struct : String) (ms : List Member) (known : List (String × Ty))
    (hknown : ∀ f ∈ known, f.2.IsWellFormed c.structNames) :
    (∀ f ∈ (resolveFields c struct known ms).1, f.2.IsWellFormed c.structNames)
      ∧ ∀ halt, (resolveFields c struct known ms).2 = some halt → halt.IsPlain V := by
  induction ms generalizing known with
  | nil => exact ⟨hknown, fun halt hhalt => (nomatch hhalt)⟩
  | cons m ms ih =>
    have hfield := meets_field (V := V) h struct known m
    rw [resolveFields]
    cases hf : field c struct known m with
    | error halt =>
      refine ⟨hknown, fun halt' hhalt => ?_⟩
      obtain rfl := Option.some.inj hhalt
      exact hfield.of_error hf
    | ok f => exact ih _ (List.forall_mem_append.mpr ⟨hknown, List.forall_mem_singleton.mpr (hfield.of_ok hf)⟩)

/-- The parameters of a function have types that values can have, and the result has one, too, or is `void`. -/
theorem FuncDecl.meets_signature (d : FuncDecl) : Meets (Halt.IsPlain V) (fun s => s.ty.IsWellFormed c.structNames) (d.signature c) := by
  have hparams (ms : List Member) : Meets (Halt.IsPlain V) (Ty.AreWellFormed c.structNames) (ms.mapM (Member.resolve c)) := by
    induction ms with
    | nil => trivial
    | cons m ms ih =>
      rw [List.mapM_cons]
      exact (m.meets_resolve h).bind fun t ht => ih.bind fun ts hts => ⟨ht, hts⟩
  refine (hparams d.params).bind fun ts hts => ?_
  exact (d.result.meets_resolve h none true).bind fun t ht => ⟨hts, ht.symm.imp_left And.right⟩

omit h in
/-- A constant has a type that values can have, and its notes are sound, if those of the constants before are. Its notes say
nothing of structs. -/
theorem ConstDecl.meets_initializer {V : Ty → Prop} (hV : Ty.IsClosed V)
    (hs : ∀ name s, c.lookupGlobal name = some s → s.IsSound V) (d : ConstDecl) :
    Meets (Halt.IsPlain V) (fun i => V i.ty ∧ ∀ structs, ∀ x ∈ i.value.parts, x.IsSound V structs) (d.initializer c) := by
  have hnoted {t : Ty} (ht : V t) (u : Ty) (hu : some t = some u) : V u := by
    obtain rfl := Option.some.inj hu
    exact ht
  unfold initializer
  split
  · exact ⟨hV.primitive _, fun structs => List.forall_mem_singleton.mpr (hnoted (hV.primitive _))⟩
  · exact ⟨hV.primitive _, fun structs => List.forall_mem_singleton.mpr (hnoted (hV.primitive _))⟩
  · exact ⟨hV.primitive _, fun structs => List.forall_mem_singleton.mpr (hnoted (hV.primitive _))⟩
  · split
    · exact Problem.Cause.IsPlain.of_kind rfl rfl
    · rename_i name _ _ _ _ source hsource
      split
      · exact Problem.Cause.IsPlain.of_kind rfl rfl
      · split
        · exact Problem.Cause.IsPlain.of_kind rfl rfl
        · rename_i t ht
          have hsound := hs name source hsource
          refine ⟨hsound t ht, fun structs => List.forall_mem_singleton.mpr ⟨fun s hs => ?_, hnoted (hsound t ht)⟩⟩
          obtain rfl := Option.some.inj hs
          exact hsound
  · trivial

end FlatScope
