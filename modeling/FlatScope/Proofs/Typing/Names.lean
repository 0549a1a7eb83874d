/-
  Names and written types as the checks see them. If the symbols of a scope have distinct names, looking up a name
  gives the symbol that it means (`Catalog.lookup_eq_some_iff`), and resolving a written type gives the type that it
  denotes (`TypeExpr.resolve_eq_ok_iff`).
-/
import FlatScope.Proofs.Resolution.Results
import FlatScope.Proofs.Typing.Rules

namespace FlatScope

/-- The symbols of the open scope. -/
def Catalog.locals (c : Catalog) : List Symbol := (c.current.map LocalScope.symbols).getD []

/-- A catalog as a context. -/
def Catalog.context (c : Catalog) (builtins : Builtins) : Context := ⟨builtins, c.globals, c.structs, c.locals⟩

/-- The symbols of the open scope have names of their own. -/
def Catalog.IsDistinct (c : Catalog) : Prop := (c.locals.map Symbol.name).Nodup

theorem Symbol.find?_eq_some_iff {symbols : List Symbol} (h : (symbols.map Symbol.name).Nodup) {name : String}
    {s : Symbol} : find? symbols name = some s ↔ s ∈ symbols ∧ s.name = name := find?_key_eq_some_iff h

namespace Catalog

variable {c : Catalog} {n : Nat} {name : String} {s : Symbol}

theorem isVisible_iff : s.isVisible (some (n : Int)) = true ↔ s.IsSeen n := by
  rw [Symbol.isVisible, Symbol.IsSeen, Bool.or_eq_true, decide_eq_true_eq, decide_eq_true_eq]

theorem get?_locals (c : Catalog) (name : String) :
    (c.current.bind fun scope => scope.get? name) = Symbol.find? c.locals name := by
  unfold locals
  cases c.current with
  | none => rfl
  | some scope => rfl

/-- Looking up a name gives the symbol that it means. -/
theorem lookup_eq_some_iff (h : c.IsDistinct) (b : Builtins) :
    c.lookup name (some (n : Int)) = some s ↔ (c.context b).Means n name s := by
  have hfind : ∀ s, Symbol.find? c.locals name = some s ↔ s ∈ c.locals ∧ s.name = name :=
    fun _ => Symbol.find?_eq_some_iff h
  rw [lookup, get?_locals]
  constructor
  · intro hl
    split at hl
    · rename_i s' hs'
      obtain rfl := Option.some.inj hl
      obtain ⟨hm, hv⟩ := Option.filter_eq_some_iff.mp hs'
      obtain ⟨hm, hn⟩ := (hfind s').mp hm
      exact .ofLocal hm hn (isVisible_iff.mp hv)
    · rename_i hnone
      refine .ofGlobal (fun s' hm hn hv => ?_) hl
      rw [Option.filter_eq_none_iff] at hnone
      exact hnone s' ((hfind s').mpr ⟨hm, hn⟩) (isVisible_iff.mpr hv)
  · intro hm
    cases hm with
    | ofLocal hm hn hs =>
      rw [(hfind s).mpr ⟨hm, hn⟩, Option.filter_some, if_pos (isVisible_iff.mpr hs)]
    | ofGlobal hl hg =>
      have hnone : (Symbol.find? c.locals name).filter (fun s => s.isVisible (some (n : Int))) = none := by
        refine Option.filter_eq_none_iff.mpr fun s' hs' hv => ?_
        obtain ⟨hm, hn⟩ := (hfind s').mp hs'
        exact hl s' hm hn (isVisible_iff.mp hv)
      rw [hnone]
      exact hg

end Catalog

/-! ## Written types -/

theorem Primitive.ofName?_eq_some_iff {name : String} {p : Primitive} : ofName? name = some p ↔ name = p.text := by
  constructor
  · intro h
    unfold ofName? at h
    split at h <;> cases h <;> rfl
  · rintro rfl
    cases p <;> rfl

theorem isTypeWord_iff {name : String} : IsTypeWord name ↔ name = "void" ∨ ∃ p, Primitive.ofName? name = some p := by
  simp only [Primitive.ofName?_eq_some_iff]
  constructor
  · rintro (rfl | rfl | rfl | rfl)
    · exact .inr ⟨.int, rfl⟩
    · exact .inr ⟨.float, rfl⟩
    · exact .inr ⟨.byte, rfl⟩
    · exact .inl rfl
  · rintro (rfl | ⟨p, rfl⟩)
    · exact .inr (.inr (.inr rfl))
    · cases p
      · exact .inl rfl
      · exact .inr (.inl rfl)
      · exact .inr (.inr (.inl rfl))

namespace Catalog

variable {c : Catalog} {n : Nat}

/-- A name stands for the type that it denotes. -/
theorem namedType_eq_ok_iff (b : Builtins) {allowVoid : Bool} {name : String} {t : Ty} (span : Span) :
    c.namedType allowVoid name = .ok t ↔ (c.context b).Denotes n allowVoid (.named name span) t := by
  unfold namedType
  by_cases hv : name = "void"
  · rw [if_pos hv]
    have hvoid : (c.context b).Denotes n allowVoid (.named name span) t ↔ allowVoid = true ∧ t = .void := by
      constructor
      · intro h
        cases h with
        | void => exact ⟨rfl, rfl⟩
        | @primitive _ _ p _ hw =>
          have hne : p.text ≠ "void" := by cases p <;> decide
          exact absurd (hw.symm.trans hv) hne
        | struct hw => exact absurd (isTypeWord_iff.mpr (.inl hv)) hw
      · rintro ⟨rfl, rfl⟩
        exact .void hv
    rw [hvoid]
    cases allowVoid with
    | true => exact ⟨fun h => ⟨rfl, (Except.ok.inj h).symm⟩, fun h => congrArg Except.ok h.2.symm⟩
    | false => exact iff_of_false nofun fun h => Bool.false_ne_true h.1
  rw [if_neg hv]
  cases hp : Primitive.ofName? name with
  | some p =>
    have hword := Primitive.ofName?_eq_some_iff.mp hp
    constructor
    · intro h
      obtain rfl := Except.ok.inj h
      exact .primitive hword
    · intro h
      cases h with
      | void hw => exact absurd hw hv
      | @primitive _ _ q _ hw =>
        rw [Primitive.ofName?_eq_some_iff.mpr hw] at hp
        exact congrArg (fun p => Except.ok (Ty.primitive p)) (Option.some.inj hp).symm
      | struct hw => exact absurd (isTypeWord_iff.mpr (.inr ⟨p, hp⟩)) hw
  | none =>
    have hword : ¬IsTypeWord name := by
      intro hw
      obtain hw | ⟨p, hw⟩ := isTypeWord_iff.mp hw
      · exact hv hw
      · rw [hp] at hw
        cases hw
    constructor
    · intro h
      cases hg : c.lookupGlobal name with
      | none =>
        rw [hg] at h
        cases h
      | some s =>
        rw [hg] at h
        by_cases hk : s.kind = .struct
        · have h : (if s.kind = .struct then .ok (.struct name) else .error _ : Except Problem.Cause Ty) = .ok t := h
          rw [if_pos hk] at h
          obtain rfl := Except.ok.inj h
          exact .struct hword hg hk
        · have h : (if s.kind = .struct then .ok (.struct name) else .error _ : Except Problem.Cause Ty) = .ok t := h
          rw [if_neg hk] at h
          cases h
    · intro h
      cases h with
      | void hw => exact absurd hw hv
      | @primitive _ _ q _ hw =>
        rw [Primitive.ofName?_eq_some_iff.mpr hw] at hp
        cases hp
      | struct _ hg hk =>
        have hg : c.lookupGlobal name = some _ := hg
        rw [hg]
        exact if_pos hk

theorem intConstant?_eq_some_iff (h : c.IsDistinct) (b : Builtins) {name : String} {k : Int} :
    c.intConstant? name (some (n : Int)) = some k ↔ (c.context b).IsLength n (.name name) k := by
  have hmeans : ∀ s, c.lookup name (some (n : Int)) = some s ↔ (c.context b).Means n name s :=
    fun _ => lookup_eq_some_iff h b
  unfold intConstant?
  constructor
  · intro hk
    split at hk
    · rename_i _ s hl
      obtain rfl := Option.some.inj hk
      exact ⟨_, (hmeans _).mp hl, rfl, rfl, rfl⟩
    · cases hk
  · rintro ⟨⟨name', kind, level, ty, span, owner, value, order⟩, hs, rfl, rfl, rfl⟩
    rw [(hmeans _).mpr hs]

/-- The length of an array is what is written, if that is positive. -/
theorem arraySize_eq_ok_iff (h : c.IsDistinct) (b : Builtins) {size : ArraySize} {k : Int} :
    c.arraySize (some (n : Int)) size = .ok k ↔ (c.context b).IsLength n size k ∧ 0 < k := by
  have hpositive : ∀ j : Int, (if 0 < j then pure j else throw (.sizeNotPositive j) : Except Problem.Cause Int) = .ok k
      ↔ j = k ∧ 0 < k := by
    intro j
    split
    · rename_i hj
      exact Except.pure_eq_ok.trans ⟨fun he => ⟨he, he ▸ hj⟩, fun he => he.1⟩
    · rename_i hj
      exact iff_of_false nofun fun he => hj (he.1 ▸ he.2)
  unfold arraySize
  cases size with
  | int j => exact hpositive j
  | name name =>
    rw [← intConstant?_eq_some_iff h b]
    cases hc : c.intConstant? name (some (n : Int)) with
    | none =>
      simp only [hc]
      exact iff_of_false nofun fun he => nomatch he.1
    | some j =>
      simp only [hc, Option.some.injEq]
      exact hpositive j

end Catalog

namespace TypeExpr

variable {c : Catalog} {n : Nat}

mutual

/-- A written type is resolved to what it denotes. -/
theorem resolve_eq_ok_iff (h : c.IsDistinct) (b : Builtins) : (w : TypeExpr) → (allowVoid : Bool) → (t : Ty) →
    (w.resolve c (some (n : Int)) allowVoid = .ok t ↔ (c.context b).Denotes n allowVoid w t)
  | .named name span, allowVoid, t => by
    rw [resolve, Except.mapError_eq_ok]
    exact c.namedType_eq_ok_iff b span
  | .pointer e span, allowVoid, t => by
    rw [resolve, Except.bind_eq_ok]
    constructor
    · rintro ⟨u, hu, ht⟩
      obtain rfl := Except.ok.inj ht
      exact .pointer ((resolve_eq_ok_iff h b e false u).mp hu)
    · intro hd
      cases hd with
      | pointer he => exact ⟨_, (resolve_eq_ok_iff h b e false _).mpr he, rfl⟩
  | .array e size span, allowVoid, t => by
    rw [resolve, Except.bind_eq_ok]
    constructor
    · rintro ⟨u, hu, ht⟩
      obtain ⟨k, hk, ht⟩ := Except.bind_eq_ok.mp ht
      obtain rfl := Except.ok.inj ht
      obtain ⟨hl, hpos⟩ := (Catalog.arraySize_eq_ok_iff h b).mp (Except.mapError_eq_ok.mp hk)
      exact .array ((resolve_eq_ok_iff h b e false u).mp hu) hl hpos
    · intro hd
      cases hd with
      | array he hl hk =>
        have hsize : (c.arraySize (some (n : Int)) size).mapError (Halt.at span) = .ok _ :=
          Except.mapError_eq_ok.mpr ((Catalog.arraySize_eq_ok_iff h b).mpr ⟨hl, hk⟩)
        exact ⟨_, (resolve_eq_ok_iff h b e false _).mpr he, Except.bind_eq_ok.mpr ⟨_, hsize, rfl⟩⟩
  | .func r ps span, allowVoid, t => by
    rw [resolve, Except.bind_eq_ok]
    constructor
    · rintro ⟨ts, hts, ht⟩
      obtain ⟨u, hu, ht⟩ := Except.bind_eq_ok.mp ht
      obtain rfl := Except.ok.inj ht
      exact .func ((resolveAll_eq_ok_iff h b ps ts).mp hts) ((resolve_eq_ok_iff h b r true u).mp hu)
    · intro hd
      cases hd with
      | func hp hr =>
        have hresult := (resolve_eq_ok_iff h b r true _).mpr hr
        exact ⟨_, (resolveAll_eq_ok_iff h b ps _).mpr hp, Except.bind_eq_ok.mpr ⟨_, hresult, rfl⟩⟩
  | .foreign node, allowVoid, t => by
    rw [resolve]
    exact iff_of_false nofun nofun

theorem resolveAll_eq_ok_iff (h : c.IsDistinct) (b : Builtins) : (ws : List TypeExpr) → (ts : List Ty) →
    (resolveAll c (some (n : Int)) ws = .ok ts ↔ (c.context b).DenoteAll n ws ts)
  | [], ts => by
    rw [resolveAll, Except.pure_eq_ok]
    constructor
    · rintro rfl
      exact .nil
    · intro hd
      cases hd with
      | nil => rfl
  | w :: ws, ts => by
    rw [resolveAll, Except.bind_eq_ok]
    constructor
    · rintro ⟨t, ht, hts⟩
      obtain ⟨us, hus, hts⟩ := Except.bind_eq_ok.mp hts
      obtain rfl := Except.ok.inj hts
      exact .cons ((resolve_eq_ok_iff h b w false t).mp ht) ((resolveAll_eq_ok_iff h b ws us).mp hus)
    · intro hd
      cases hd with
      | cons he hes =>
        have hrest := (resolveAll_eq_ok_iff h b ws _).mpr hes
        exact ⟨_, (resolve_eq_ok_iff h b w false _).mpr he, Except.bind_eq_ok.mpr ⟨_, hrest, rfl⟩⟩

end

end TypeExpr

end FlatScope
