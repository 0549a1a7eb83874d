/-
  Declarations in another order. The same declarations with the constants in the same order come of each other by exchanging
  neighbours that are not both constants (`Reorders.of_perm`). Where a step comes to the same on states that give the same
  answers, and on two neighbours in either order, it goes through the declarations in one order if it does in the other,
  and comes to the same (`Step.Passes.reorder`).
-/
import FlatScope.Proofs.Relabeling.Same
import FlatScope.Proofs.Resolution.Steps
import FlatScope.Proofs.Resolution.Runs
import Mathlib.Data.List.Perm.Basic

namespace FlatScope

/-! ## Orders -/

def Decl.isConst : Decl → Bool
  | .const _ => true
  | _ => false

/-- Declarations come of others by exchanges of neighbours that are not both constants. -/
inductive Reorders : List Decl → List Decl → Prop
  | nil : Reorders [] []
  | cons (d : Decl) {ds es : List Decl} (h : Reorders ds es) : Reorders (d :: ds) (d :: es)
  | swap {d e : Decl} (h : d.isConst = false ∨ e.isConst = false) (ds : List Decl) : Reorders (d :: e :: ds) (e :: d :: ds)
  | trans {ds es fs : List Decl} (h : Reorders ds es) (h' : Reorders es fs) : Reorders ds fs

namespace Reorders

theorem refl (ds : List Decl) : Reorders ds ds := by
  induction ds with
  | nil => exact .nil
  | cons d ds ih => exact ih.cons d

theorem perm {ds es : List Decl} (h : Reorders ds es) : ds.Perm es := by
  induction h with
  | nil => exact .nil
  | cons d _ ih => exact ih.cons d
  | swap _ ds => exact .swap _ _ ds
  | trans _ _ ih ih' => exact ih.trans ih'

/-- A declaration moves in front of others, unless it is a constant and one of these is, too. -/
theorem move (as : List Decl) {d : Decl} (ds : List Decl) (h : d.isConst = false ∨ ∀ a ∈ as, a.isConst = false) :
    Reorders (as ++ d :: ds) (d :: (as ++ ds)) := by
  induction as with
  | nil => exact .refl _
  | cons a as ih =>
    have ha : a.isConst = false ∨ d.isConst = false := h.symm.imp (fun h => h a List.mem_cons_self) id
    have has := ih (h.imp id fun h => (List.forall_mem_cons.mp h).2)
    exact (has.cons a).trans (.swap ha _)

/-- Permuted declarations whose constants are in the same order. -/
theorem of_perm {ds es : List Decl} (h : ds.Perm es) (hconst : ds.filter Decl.isConst = es.filter Decl.isConst) :
    Reorders ds es := by
  induction es generalizing ds with
  | nil =>
    rw [h.eq_nil]
    exact .nil
  | cons e es ih =>
    obtain ⟨as, bs, rfl, hfirst⟩ := List.eq_append_cons_of_mem (h.mem_iff.mpr List.mem_cons_self)
    have hrest : (as ++ bs).Perm es := (List.perm_cons e).mp (List.perm_middle.symm.trans h)
    rw [List.filter_append] at hconst
    cases he : e.isConst with
    | false =>
      rw [List.filter_cons_of_neg (by simp [he]), List.filter_cons_of_neg (by simp [he]), ← List.filter_append] at hconst
      exact (move as bs (.inl he)).trans ((ih hrest hconst).cons e)
    | true =>
      rw [List.filter_cons_of_pos he, List.filter_cons_of_pos he] at hconst
      -- The first constant on both sides is the same, so none stands in front of it.
      have has : as.filter Decl.isConst = [] := by
        cases hf : as.filter Decl.isConst with
        | nil => rfl
        | cons a rest =>
          rw [hf, List.cons_append] at hconst
          obtain rfl := (List.cons.inj hconst).1
          have ha : a ∈ as.filter Decl.isConst := hf ▸ List.mem_cons_self
          exact (hfirst (List.mem_filter.mp ha).1).elim
      rw [has, List.nil_append] at hconst
      have hsame : (as ++ bs).filter Decl.isConst = es.filter Decl.isConst := by
        rw [List.filter_append, has, List.nil_append]
        exact (List.cons.inj hconst).2
      have hnone : ∀ a ∈ as, a.isConst = false := by
        intro a ha
        simpa using List.filter_eq_nil_iff.mp has a ha
      exact (move as bs (.inr hnone)).trans ((ih hrest hsame).cons e)

end Reorders

/-! ## States that give the same answers -/

namespace Progress

/-- A state gives the same answers as another one. -/
structure Alike (p q : Progress) : Prop where
  catalog : p.catalog.Agrees q.catalog
  function : ∀ name, q.function? name = p.function? name
  scope : ∀ name, q.catalog.scope? name = p.catalog.scope? name
  onCycle : q.onCycle = p.onCycle

variable {p q r : Progress}

theorem Alike.refl (p : Progress) : p.Alike p := ⟨⟨fun _ => rfl, fun _ => rfl, rfl⟩, fun _ => rfl, fun _ => rfl, rfl⟩

theorem Alike.trans (h : p.Alike q) (h' : q.Alike r) : p.Alike r where
  catalog :=
    ⟨fun name => (h'.catalog.globals name).trans (h.catalog.globals name),
      fun name => (h'.catalog.structs name).trans (h.catalog.structs name), h'.catalog.current.trans h.catalog.current⟩
  function name := (h'.function name).trans (h.function name)
  scope name := (h'.scope name).trans (h.scope name)
  onCycle := h'.onCycle.trans h.onCycle

/-- What a declaration's name stands for is a constant exactly if the declaration is one. -/
def KnowsKind (p : Progress) (d : Decl) : Prop :=
  ∀ name s, d.name? = some name → p.catalog.lookupGlobal name = some s → (s.kind = .const ↔ d.isConst = true)

end Progress

/-! ## Steps without problems -/

namespace Step

/-- A step goes through declarations without a problem. -/
inductive Passes (step : Step) : Progress → List Decl → Progress → List Decl → Prop
  | nil (p : Progress) : Passes step p [] p []
  | cons {p q r : Progress} {d d' : Decl} {ds ds' : List Decl} (h : step p d = .ok (q, d', none))
    (hs : Passes step q ds r ds') : Passes step p (d :: ds) r (d' :: ds')

/-- A step depends on the answers of a state alone, and not on the order of declarations of different names that are
not both constants. -/
structure Commutes (step : Step) : Prop where
  name : ∀ {p d p' d'}, step p d = .ok (p', d', none) → d'.name? = d.name?
  isConst : ∀ {p d p' d'}, step p d = .ok (p', d', none) → d'.isConst = d.isConst
  kind : ∀ {p d p' d'}, step p d = .ok (p', d', none) → p.KnowsKind d → p'.KnowsKind d'
  otherKind : ∀ {p d p' d' e}, step p d = .ok (p', d', none) → e.name? ≠ d.name? → p.KnowsKind e → p'.KnowsKind e
  alike : ∀ {p q d p' d'}, p.Alike q → step p d = .ok (p', d', none) →
    ∃ q', step q d = .ok (q', d', none) ∧ p'.Alike q'
  swap : ∀ {p d p₁ d' e p₂ e'}, d.isConst = false ∨ e.isConst = false → d.name? ≠ e.name? →
    p.KnowsKind d → p.KnowsKind e → step p d = .ok (p₁, d', none) → step p₁ e = .ok (p₂, e', none) →
    ∃ q₁ q₂, step p e = .ok (q₁, e', none) ∧ step q₁ d = .ok (q₂, d', none) ∧ p₂.Alike q₂

namespace Passes

variable {step : Step} {p p' q : Progress} {ds ds' es : List Decl}

/-- A step goes through on every state that gives the same answers. -/
theorem alike (h : step.Commutes) (hpq : p.Alike q) (hp : step.Passes p ds p' ds') :
    ∃ q', step.Passes q ds q' ds' ∧ p'.Alike q' := by
  induction hp generalizing q with
  | nil p => exact ⟨q, .nil q, hpq⟩
  | cons hone _ ih =>
    obtain ⟨q₁, hq₁, halike⟩ := h.alike hpq hone
    obtain ⟨q', hq', halike'⟩ := ih halike
    exact ⟨q', .cons hq₁ hq', halike'⟩

theorem map_name? (h : step.Commutes) (hp : step.Passes p ds p' ds') : ds'.map Decl.name? = ds.map Decl.name? := by
  induction hp with
  | nil p => rfl
  | cons hone _ ih => rw [List.map_cons, List.map_cons, ih, h.name hone]

theorem otherKind (h : step.Commutes) (hp : step.Passes p ds p' ds') {e : Decl} (he : e.name? ∉ ds.map Decl.name?)
    (hk : p.KnowsKind e) : p'.KnowsKind e := by
  induction hp with
  | nil p => exact hk
  | cons hone _ ih =>
    rw [List.map_cons, List.mem_cons, not_or] at he
    exact ih he.2 (h.otherKind hone he.1 hk)

/-- The kinds that a state knows are known behind a step. -/
theorem knowsKind (h : step.Commutes) (hds : (ds.map Decl.name?).Nodup) (hk : ∀ d ∈ ds, p.KnowsKind d)
    (hp : step.Passes p ds p' ds') : ∀ d ∈ ds', p'.KnowsKind d := by
  induction hp with
  | nil p => exact hk
  | @cons p q r d d' ds ds' hone hs ih =>
    obtain ⟨hd, hds⟩ := List.nodup_cons.mp (List.map_cons ▸ hds)
    obtain ⟨hkd, hkds⟩ := List.forall_mem_cons.mp hk
    have hothers : ∀ e ∈ ds, q.KnowsKind e := fun e he =>
      h.otherKind hone (fun hn => hd (hn ▸ List.mem_map_of_mem he)) (hkds e he)
    refine List.forall_mem_cons.mpr ⟨otherKind h hs ?_ (h.kind hone hkd), ih hds hothers⟩
    rwa [h.name hone]

/-- A step that goes through declarations goes through them in another order, to the same end. -/
theorem reorder (h : step.Commutes) (hds : (ds.map Decl.name?).Nodup) (hk : ∀ d ∈ ds, p.KnowsKind d)
    (hr : Reorders ds es) (hp : step.Passes p ds p' ds') :
    ∃ q' es', step.Passes p es q' es' ∧ p'.Alike q' ∧ Reorders ds' es' := by
  induction hr generalizing p p' ds' with
  | nil =>
    cases hp
    exact ⟨p, [], .nil p, .refl p, .nil⟩
  | @cons d ds es _ ih =>
    cases hp with
    | @cons _ q _ _ d' _ ds' hone hs =>
      obtain ⟨hd, hds⟩ := List.nodup_cons.mp (List.map_cons ▸ hds)
      obtain ⟨-, hkds⟩ := List.forall_mem_cons.mp hk
      have hothers : ∀ e ∈ ds, q.KnowsKind e := fun e he =>
        h.otherKind hone (fun hn => hd (hn ▸ List.mem_map_of_mem he)) (hkds e he)
      obtain ⟨q', es', hes, halike, hr⟩ := ih hds hothers hs
      exact ⟨q', d' :: es', .cons hone hes, halike, hr.cons d'⟩
  | @swap d e hconst ds =>
    cases hp with
    | @cons _ p₁ _ _ d' _ _ hone hs =>
      cases hs with
      | @cons _ p₂ _ _ e' _ ds' htwo hs =>
        obtain ⟨hd, -⟩ := List.nodup_cons.mp (List.map_cons ▸ hds)
        have hname : d.name? ≠ e.name? := fun hn => hd (hn ▸ List.mem_map_of_mem List.mem_cons_self)
        obtain ⟨hkd, hke, -⟩ := List.forall_mem_cons.mp hk |>.imp_right List.forall_mem_cons.mp
        obtain ⟨q₁, q₂, hone', htwo', halike⟩ := h.swap hconst hname hkd hke hone htwo
        obtain ⟨q', hs', halike'⟩ := alike h halike hs
        refine ⟨q', e' :: d' :: ds', .cons hone' (.cons htwo' hs'), halike', .swap ?_ ds'⟩
        rwa [h.isConst hone, h.isConst htwo]
  | trans hr _ ih ih' =>
    obtain ⟨q₁, es₁, hes₁, halike₁, hr₁⟩ := ih hds hk hp
    have hnodup := (hr.perm.map Decl.name?).nodup_iff.mp hds
    obtain ⟨q₂, es₂, hes₂, halike₂, hr₂⟩ := ih' hnodup (fun d hd => hk d (hr.perm.mem_iff.mpr hd)) hes₁
    exact ⟨q₂, es₂, hes₂, halike₁.trans halike₂, hr₁.trans hr₂⟩

end Passes

end Step

end FlatScope
