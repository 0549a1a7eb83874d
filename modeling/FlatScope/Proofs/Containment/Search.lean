/-
  The search for a struct inside itself. It finds a way back exactly if there is one (`Catalog.cycle?_eq_none_iff`), and what it
  finds is a simple cycle (`Catalog.isCycle_of_cycle?`). It looks at no more ways than there are containments
  (`Catalog.cycleWithin?_eq`), whatever the containments are: names that are no structs and structs that are there
  twice do no harm.

  The search goes by a stack of ways and a set of structs it has looked behind. Two things hold all along: every way is a
  chain of containments through different structs that starts where the search started (`Catalog.IsWay`), and whatever
  a struct that was looked behind holds was looked behind too or is at the end of some way (`Catalog.IsFollowed`).

  Where no struct is inside itself, containment is well founded (`Catalog.wellFounded_holds`), and so every value has a finite
  expansion: its scalars in a row, with arrays and structs replaced by what they contain (`Catalog.exists_expands`). Pointers
  are scalars; what they point to is not gone into.
-/
import FlatScope.Proofs.Notes.Basic
import FlatScope.Resolution.Containment
import Mathlib.Data.Fintype.Defs
import Mathlib.Data.Fintype.Order
import Mathlib.Data.List.Chain
import Mathlib.Data.List.Nodup
import Mathlib.Order.WellFounded

namespace FlatScope

namespace Catalog

/-- A struct contains another one by value. -/
def Holds (c : Catalog) (outer inner : String) : Prop := inner ∈ c.held outer

/-- A list of structs is a way by value from a struct back to itself, on which it meets no struct twice. -/
structure IsCycle (c : Catalog) (name : String) (cycle : List String) : Prop where
  ends : ∃ between, cycle = name :: between ++ [name]
  chain : cycle.IsChain c.Holds
  simple : cycle.dropLast.Nodup

variable {c : Catalog} {start name : String} {seen : List String} {ways : List (String × List String)}

/-- A cycle leads from its struct back to it. -/
theorem IsCycle.transGen {cycle : List String} (h : c.IsCycle name cycle) : Relation.TransGen c.Holds name name := by
  obtain ⟨⟨between, rfl⟩, hchain, -⟩ := h
  cases between with
  | nil =>
    have hheld : c.Holds name name := by simpa using hchain
    exact .single hheld
  | cons first rest =>
    obtain ⟨hfirst, hrest⟩ := List.isChain_cons_cons.mp hchain
    exact .head' hfirst (List.relationReflTransGen_of_exists_isChain_cons (rest ++ [name]) hrest (by simp))

/-! ## What is found -/

/-- A way is one from the start of the search, through different structs that were looked behind. Its struct reached
last comes first. -/
structure IsWay (c : Catalog) (start : String) (seen : List String) (way : String × List String) : Prop where
  chain : (way.1 :: way.2).IsChain fun inner outer => c.Holds outer inner
  ends : ∃ between, way.2 = between ++ [start]
  simple : way.2.Nodup
  within : ∀ x ∈ way.2, x = start ∨ x ∈ seen

/-- A way back to the start is a cycle. -/
theorem IsWay.isCycle {before : List String} (h : c.IsWay start seen (start, before)) :
    c.IsCycle start (start :: before).reverse := by
  obtain ⟨hchain, ⟨between, rfl⟩, hsimple, -⟩ := h
  have hreverse : (start :: (between ++ [start])).reverse = start :: between.reverse ++ [start] := by simp
  refine ⟨⟨between.reverse, hreverse⟩, List.isChain_reverse.mpr hchain, ?_⟩
  rw [hreverse, List.dropLast_concat]
  have hnodup : (between ++ [start]).reverse.Nodup := List.nodup_reverse.mpr hsimple
  rwa [List.reverse_append] at hnodup

/-- A way goes on behind its last struct, if that is a new one. -/
theorem IsWay.go {before : List String} {inner : String} (h : c.IsWay start seen (name, before)) (hne : name ≠ start)
    (hnew : name ∉ seen) (hinner : inner ∈ c.held name) : c.IsWay start (name :: seen) (inner, name :: before) := by
  obtain ⟨hchain, ⟨between, rfl⟩, hsimple, hseen⟩ := h
  have hnot : name ∉ between ++ [start] := fun hmem => (hseen name hmem).elim hne hnew
  refine ⟨List.isChain_cons_cons.mpr ⟨hinner, hchain⟩, ⟨name :: between, rfl⟩, List.nodup_cons.mpr ⟨hnot, hsimple⟩, ?_⟩
  intro x hx
  rcases List.mem_cons.mp hx with rfl | hx
  · exact .inr List.mem_cons_self
  · exact (hseen x hx).imp_right (List.mem_cons_of_mem name)

theorem IsWay.mono {way : String × List String} (h : c.IsWay start seen way) (name : String) :
    c.IsWay start (name :: seen) way :=
  ⟨h.chain, h.ends, h.simple, fun x hx => (h.within x hx).imp_right (List.mem_cons_of_mem name)⟩

theorem isCycle_of_follow {cycle : List String} (h : c.follow start seen ways = some cycle)
    (hways : ∀ way ∈ ways, c.IsWay start seen way) : c.IsCycle start cycle := by
  fun_induction follow c start seen ways with
  | case1 => cases h
  | case2 seen before ways =>
    obtain rfl := Option.some.inj h
    exact (hways _ List.mem_cons_self).isCycle
  | case3 seen name before ways hne hseen ih => exact ih h fun way hway => hways way (List.mem_cons_of_mem _ hway)
  | case4 seen name before ways hne hseen ih =>
    refine ih h fun way hway => ?_
    rcases List.mem_append.mp hway with hway | hway
    · obtain ⟨inner, hinner, rfl⟩ := List.mem_map.mp hway
      exact (hways _ List.mem_cons_self).go hne hseen hinner
    · exact (hways way (List.mem_cons_of_mem _ hway)).mono name

/-- What the search finds is a simple cycle. -/
theorem isCycle_of_cycle? {cycle : List String} (h : c.cycle? name = some cycle) : c.IsCycle name cycle := by
  refine isCycle_of_follow h fun way hway => ?_
  obtain ⟨inner, hinner, rfl⟩ := List.mem_map.mp hway
  exact ⟨List.isChain_cons_cons.mpr ⟨hinner, List.isChain_singleton name⟩, ⟨[], rfl⟩, List.nodup_singleton name,
    fun x hx => .inl (List.mem_singleton.mp hx)⟩

/-! ## What is not found -/

/-- Everything that is held by a struct that was looked behind was looked behind too, unless some way still leads
there. -/
def IsFollowed (c : Catalog) (seen : List String) (ways : List (String × List String)) : Prop :=
  ∀ outer ∈ seen, ∀ inner, c.Holds outer inner → inner ∈ seen ∨ inner ∈ ways.map Prod.fst

/-- If no way leads back, the structs that the ways lead to are among some that hold only each other, and not the start. -/
theorem exists_closed_of_follow (h : c.follow start seen ways = none) (hstart : start ∉ seen)
    (hfollowed : c.IsFollowed seen ways) :
    ∃ closed : List String, start ∉ closed ∧ (∀ x ∈ seen, x ∈ closed) ∧ (∀ way ∈ ways, way.1 ∈ closed)
      ∧ ∀ outer ∈ closed, ∀ inner, c.Holds outer inner → inner ∈ closed := by
  fun_induction follow c start seen ways with
  | case1 seen =>
    refine ⟨seen, hstart, fun _ hx => hx, List.forall_mem_nil _, fun outer houter inner hinner => ?_⟩
    exact (hfollowed outer houter inner hinner).resolve_right List.not_mem_nil
  | case2 => cases h
  | case3 seen name before ways hne hseen ih =>
    obtain ⟨closed, hnot, hclosed, hends, hholds⟩ := ih h hstart fun outer houter inner hinner => by
      rcases hfollowed outer houter inner hinner with hmem | hmem
      · exact .inl hmem
      · rcases List.mem_cons.mp hmem with rfl | hmem
        · exact .inl hseen
        · exact .inr hmem
    exact ⟨closed, hnot, hclosed, List.forall_mem_cons.mpr ⟨hclosed name hseen, hends⟩, hholds⟩
  | case4 seen name before ways hne hseen ih =>
    have hnew : start ∉ name :: seen := fun hmem => (List.mem_cons.mp hmem).elim (fun heq => hne heq.symm) hstart
    obtain ⟨closed, hnot, hclosed, hends, hholds⟩ := ih h hnew fun outer houter inner hinner => by
      rw [List.map_append, List.mem_append]
      rcases List.mem_cons.mp houter with rfl | houter
      · exact .inr (.inl (by simpa [Holds] using hinner))
      · rcases hfollowed outer houter inner hinner with hmem | hmem
        · exact .inl (List.mem_cons_of_mem _ hmem)
        · rcases List.mem_cons.mp hmem with rfl | hmem
          · exact .inl List.mem_cons_self
          · exact .inr (.inr hmem)
    refine ⟨closed, hnot, fun x hx => hclosed x (List.mem_cons_of_mem _ hx), ?_, hholds⟩
    exact List.forall_mem_cons.mpr ⟨hclosed name List.mem_cons_self, fun way hway => hends way (List.mem_append_right _ hway)⟩

/-- Nothing is found exactly if nothing leads back. -/
theorem cycle?_eq_none_iff (c : Catalog) (name : String) : c.cycle? name = none ↔ ¬Relation.TransGen c.Holds name name := by
  constructor
  · intro h hback
    obtain ⟨closed, hnot, -, hends, hholds⟩ := exists_closed_of_follow h List.not_mem_nil (List.forall_mem_nil _)
    have hreached : ∀ x, Relation.TransGen c.Holds name x → x ∈ closed := by
      intro x hx
      induction hx with
      | single hheld => exact hends _ (List.mem_map_of_mem hheld)
      | tail _ hheld ih => exact hholds _ ih _ hheld
    exact hnot (hreached name hback)
  · intro hback
    cases hcycle : c.cycle? name with
    | none => rfl
    | some cycle => exact absurd (isCycle_of_cycle? hcycle).transGen hback

/-! ## How long the search takes -/

/-- The search with a bound on the ways that it looks at. There is no answer if that is not enough. -/
def followWithin (c : Catalog) (start : String) : Nat → List String → List (String × List String) → Option (Option (List String))
  | _, _, [] => some none
  | 0, _, _ :: _ => none
  | bound + 1, seen, (name, before) :: ways =>
    if name = start then some (some (name :: before).reverse)
    else if name ∈ seen then c.followWithin start bound seen ways
    else c.followWithin start bound (name :: seen) ((c.held name).map (·, name :: before) ++ ways)

/-- How many containments there are behind structs that are not seen yet. -/
def heldUnseen (c : Catalog) (seen : List String) : Nat := ((c.unseen seen).flatMap StructInfo.held).length

/-- How many containments there are. -/
def heldCount (c : Catalog) : Nat := (c.structs.flatMap StructInfo.held).length

/-- The search for a struct inside itself that looks at no more ways than there are containments. -/
def cycleWithin? (c : Catalog) (name : String) : Option (Option (List String)) :=
  c.followWithin name ((c.held name).length + c.heldCount) [] ((c.held name).map (·, [name]))

/-- Looking behind a new struct uses up its containments. -/
theorem heldUnseen_cons (hnew : name ∉ seen) : (c.held name).length + c.heldUnseen (name :: seen) ≤ c.heldUnseen seen := by
  have hsplit (structs : List StructInfo) :
      (((structs.find? fun s => s.name = name).map StructInfo.held).getD []).length
          + (((structs.filter fun s => s.name ∉ seen).filter fun s => s.name ≠ name).flatMap StructInfo.held).length
        ≤ ((structs.filter fun s => s.name ∉ seen).flatMap StructInfo.held).length := by
    induction structs with
    | nil => simp
    | cons s structs ih =>
      by_cases hs : s.name = name
      · have hrest : (((structs.filter fun s => s.name ∉ seen).filter fun s => s.name ≠ name).flatMap StructInfo.held).length
            ≤ ((structs.filter fun s => s.name ∉ seen).flatMap StructInfo.held).length := by omega
        simpa [hs, hnew] using hrest
      · by_cases hmem : s.name ∈ seen
        · simpa [hs, hmem] using ih
        · simp only [hs, hmem, List.find?_cons, List.filter_cons, decide_false, not_false_eq_true, decide_true, ne_eq, if_true,
            List.flatMap_cons, List.length_append]
          simp only [ne_eq] at ih
          omega
  rw [heldUnseen, unseen_cons]
  exact hsplit c.structs

theorem followWithin_eq (bound : Nat) (hbound : ways.length + c.heldUnseen seen ≤ bound) :
    c.followWithin start bound seen ways = some (c.follow start seen ways) := by
  fun_induction follow c start seen ways generalizing bound with
  | case1 => simp [followWithin]
  | case2 seen before ways =>
    obtain ⟨bound, rfl⟩ := Nat.exists_eq_add_of_le' (show 1 ≤ bound by rw [List.length_cons] at hbound; omega)
    rw [followWithin, if_pos rfl]
  | case3 seen name before ways hne hseen ih =>
    obtain ⟨bound, rfl⟩ := Nat.exists_eq_add_of_le' (show 1 ≤ bound by rw [List.length_cons] at hbound; omega)
    rw [followWithin, if_neg hne, if_pos hseen]
    exact ih bound (by rw [List.length_cons] at hbound; omega)
  | case4 seen name before ways hne hseen ih =>
    obtain ⟨bound, rfl⟩ := Nat.exists_eq_add_of_le' (show 1 ≤ bound by rw [List.length_cons] at hbound; omega)
    rw [followWithin, if_neg hne, if_neg hseen]
    have hunseen := heldUnseen_cons (c := c) hseen
    refine ih bound ?_
    rw [List.length_append, List.length_map]
    rw [List.length_cons] at hbound
    omega

/-- The search ends after at most as many looks as there are containments. -/
theorem cycleWithin?_eq (c : Catalog) (name : String) : c.cycleWithin? name = some (c.cycle? name) := by
  refine followWithin_eq _ ?_
  have hunseen : c.unseen [] = c.structs := by simp [unseen]
  rw [List.length_map, heldUnseen, hunseen, heldCount]

end Catalog

/-- A type whose values are not made of others. -/
def Ty.IsScalar : Ty → Prop
  | .primitive _ | .pointer _ | .func _ _ => True
  | .void | .array _ _ | .struct _ => False

/-- The struct that a value holds directly is known. -/
theorem Ty.mem_of_heldStruct? {structs : List String} {name : String} : (t : Ty) → t.IsWellFormed structs →
    t.heldStruct? = some name → name ∈ structs
  | .array t _, ht, h => mem_of_heldStruct? t ht.2 h
  | .struct _, ht, h => Option.some.inj h ▸ ht

namespace Catalog

mutual

/-- What a value of a type is made of by value: the types of its scalars, in order. -/
inductive Expands (c : Catalog) : Ty → List Ty → Prop
  | scalar {t : Ty} (h : t.IsScalar) : Expands c t [t]
  | array {t : Ty} {ts : List Ty} (n : Int) (h : Expands c t ts) : Expands c (.array t n) (List.replicate n.toNat ts).flatten
  | struct {name : String} {info : StructInfo} {ts : List Ty} (hinfo : c.struct? name = some info)
    (h : ExpandAll c (info.fields.map Prod.snd) ts) : Expands c (.struct name) ts

inductive ExpandAll (c : Catalog) : List Ty → List Ty → Prop
  | nil : ExpandAll c [] []
  | cons {t : Ty} {ts us vs : List Ty} (h : Expands c t us) (hs : ExpandAll c ts vs) : ExpandAll c (t :: ts) (us ++ vs)

end

variable {c : Catalog}

theorem struct?_eq_none_iff {name : String} : c.struct? name = none ↔ name ∉ c.structs.map StructInfo.name := by
  rw [struct?, List.find?_eq_none, List.mem_map]
  simp only [decide_eq_true_eq, not_exists, not_and]

/-- Only structs contain others. -/
theorem Holds.mem_structs {outer inner : String} (h : c.Holds outer inner) : outer ∈ c.structs.map StructInfo.name := by
  by_contra hnot
  rw [Holds, held, struct?_eq_none_iff.mpr hnot] at h
  cases h

/-- Containment is well founded if no struct is inside itself. -/
theorem wellFounded_holds (h : ∀ name, ¬Relation.TransGen c.Holds name name) : WellFounded fun inner outer => c.Holds outer inner := by
  let struct := { name : String // name ∈ c.structs.map StructInfo.name }
  let inside (inner outer : struct) : Prop := Relation.TransGen c.Holds outer.1 inner.1
  -- Among the structs themselves, of which there are finitely many, nothing is inside itself.
  have hfinite : WellFounded inside := by
    have : IsTrans struct inside := ⟨fun _ _ _ hab hbc => hbc.trans hab⟩
    have : Std.Irrefl inside := ⟨fun a => h a.1⟩
    exact Finite.wellFounded_of_trans_of_irrefl inside
  have hother (name : String) (hname : name ∉ c.structs.map StructInfo.name) : Acc (fun inner outer => c.Holds outer inner) name :=
    ⟨name, fun _ hheld => absurd hheld.mem_structs hname⟩
  have hstruct (outer : struct) : Acc (fun inner outer => c.Holds outer inner) outer.1 := by
    induction outer using hfinite.induction with
    | _ outer ih =>
      refine ⟨outer.1, fun inner hheld => ?_⟩
      by_cases hinner : inner ∈ c.structs.map StructInfo.name
      · exact ih ⟨inner, hinner⟩ (.single hheld)
      · exact hother inner hinner
  refine ⟨fun name => ?_⟩
  by_cases hname : name ∈ c.structs.map StructInfo.name
  · exact hstruct ⟨name, hname⟩
  · exact hother name hname

/-- A type has an expansion if the struct has that it holds directly, if it holds one. -/
theorem exists_expands_of_held {structs : List String} : (t : Ty) → t.IsWellFormed structs →
    (∀ name, t.heldStruct? = some name → ∃ ts, c.Expands (.struct name) ts) → ∃ ts, c.Expands t ts
  | .primitive _, _, _ | .pointer _, _, _ | .func _ _, _, _ => ⟨_, .scalar trivial⟩
  | .array t n, ht, hheld => by
    obtain ⟨ts, hts⟩ := exists_expands_of_held t ht.2 hheld
    exact ⟨_, .array n hts⟩
  | .struct name, _, hheld => hheld name rfl

theorem exists_expandAll {ts : List Ty} (h : ∀ t ∈ ts, ∃ us, c.Expands t us) : ∃ us, c.ExpandAll ts us := by
  induction ts with
  | nil => exact ⟨[], .nil⟩
  | cons t ts ih =>
    obtain ⟨⟨us, hus⟩, hts⟩ := List.forall_mem_cons.mp h
    obtain ⟨vs, hvs⟩ := ih hts
    exact ⟨us ++ vs, .cons hus hvs⟩

/-- Every type that a value can have has an expansion if no struct is inside itself. -/
theorem exists_expands (h : ∀ name, ¬Relation.TransGen c.Holds name name)
    (hfields : ∀ i ∈ c.structs, ∀ f ∈ i.fields, f.2.IsWellFormed (c.structs.map StructInfo.name)) {t : Ty}
    (ht : t.IsWellFormed (c.structs.map StructInfo.name)) : ∃ ts, c.Expands t ts := by
  have hstruct (name : String) (hname : name ∈ c.structs.map StructInfo.name) : ∃ ts, c.Expands (.struct name) ts := by
    induction name using (wellFounded_holds h).induction with
    | _ name ih =>
      cases hi : c.struct? name with
      | none => exact absurd hname (struct?_eq_none_iff.mp hi)
      | some i =>
        have hmem := List.mem_of_find?_eq_some hi
        have hall : ∃ ts, c.ExpandAll (i.fields.map Prod.snd) ts := by
          refine exists_expandAll (List.forall_mem_map.mpr fun f hf => ?_)
          refine exists_expands_of_held f.2 (hfields i hmem f hf) fun inner hinner => ?_
          refine ih inner ?_ (f.2.mem_of_heldStruct? (hfields i hmem f hf) hinner)
          rw [Holds, held, hi]
          exact List.mem_filterMap.mpr ⟨f, hf, hinner⟩
        obtain ⟨ts, hts⟩ := hall
        exact ⟨ts, .struct hi hts⟩
  exact exists_expands_of_held t ht fun name hname => hstruct name (t.mem_of_heldStruct? ht hname)

end Catalog

end FlatScope
