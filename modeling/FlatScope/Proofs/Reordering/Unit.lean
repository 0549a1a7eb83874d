/-
  Units whose declarations stand in another order. Only the order of the constants matters: where the order of the other
  declarations changes, there are problems if there were some before, and if there are none, every name comes to the same
  (`Program.resolve_reordered`). A unit is without problems if all phases pass through its declarations, and every phase
  passes through them in the new order, too, to a state that gives the same answers (`Phase.Pass.reorder`).
-/
import FlatScope.Proofs.Relabeling.Places
import FlatScope.Proofs.Relabeling.Unit
import FlatScope.Proofs.Reordering.Steps
import FlatScope.Proofs.Resolution.Entries
import FlatScope.Proofs.Resolution.Runs
import FlatScope.Proofs.Typing.Unit

namespace FlatScope

/-! ## Phases without problems -/

/-- The entry of a declaration that has not failed. -/
def Entry.fresh (d : Decl) : Entry := { decl := d }

namespace Phase

variable {phase : Phase} {phases : List Phase} {step : Step} {b : Builtins} {p p' q : Progress} {es es' : List Entry}
  {ds ds' fs : List Decl}

theorem run_of_passes (h : step.Passes p ds p' ds') : phase.run step p (ds.map Entry.fresh) = .ok (p', ds'.map Entry.fresh) := by
  induction h with
  | nil p => rfl
  | cons hone _ ih => exact (run_cons_eq_ok phase).mpr ⟨_, _, none, _, hone, ih, rfl⟩

/-- A step passes through declarations if nothing has failed in the end. -/
theorem passes_of_run (hrun : phase.run step p (ds.map Entry.fresh) = .ok (p', es')) (hes' : ∀ e ∈ es', e.failure = none) :
    ∃ ds', es' = ds'.map Entry.fresh ∧ step.Passes p ds p' ds' := by
  induction ds generalizing p es' with
  | nil =>
    obtain ⟨rfl, rfl⟩ := Prod.mk.inj (Except.ok.inj hrun)
    exact ⟨[], rfl, .nil p⟩
  | cons d ds ih =>
    obtain ⟨q, d', problem, rest, hone, hrest, rfl⟩ := (run_cons_eq_ok phase).mp hrun
    obtain ⟨hnone, hfresh⟩ := List.forall_mem_cons.mp hes'
    obtain rfl := Option.map_eq_none_iff.mp hnone
    obtain ⟨ds', rfl, hs⟩ := ih hrest hfresh
    exact ⟨d' :: ds', rfl, .cons hone hs⟩

/-- A phase makes up for no failure. -/
theorem failure_of_run (hrun : phase.run step p es = .ok (p', es')) (hes' : ∀ e ∈ es', e.failure = none) :
    ∀ e ∈ es, e.failure = none := by
  have htakes := run_entries hrun
  clear hrun
  induction htakes with
  | nil => exact hes'
  | cons he _ ih =>
    obtain ⟨hnone, hrest⟩ := List.forall_mem_cons.mp hes'
    refine List.forall_mem_cons.mpr ⟨?_, ih hrest⟩
    obtain ⟨-, rfl⟩ | ⟨h, -⟩ := he
    · exact hnone
    · exact h

/-- Phases pass through declarations without a problem, one after another. -/
inductive Pass (b : Builtins) : List Phase → Progress → List Decl → Progress → List Decl → Prop
  | nil (p : Progress) (ds : List Decl) : Pass b [] p ds p ds
  | cons {phase : Phase} {phases : List Phase} {p q r : Progress} {ds es fs : List Decl}
    (h : (Step.ofPhase b phase).Passes p ds q es) (hs : Pass b phases q es r fs) : Pass b (phase :: phases) p ds r fs

theorem runAll_of_pass (h : Pass b phases p ds p' ds') :
    runAll b p (ds.map Entry.fresh) phases = .ok (p', ds'.map Entry.fresh) := by
  induction h with
  | nil p ds => rfl
  | cons h _ ih => exact Except.bind_eq_ok.mpr ⟨_, run_of_passes h, ih⟩

theorem failure_of_runAll (hrun : runAll b p es phases = .ok (p', es')) (hes' : ∀ e ∈ es', e.failure = none) :
    ∀ e ∈ es, e.failure = none := by
  induction phases generalizing p es with
  | nil =>
    obtain ⟨-, rfl⟩ := Prod.mk.inj (Except.ok.inj hrun)
    exact hes'
  | cons phase phases ih =>
    obtain ⟨⟨q, rest⟩, hone, hrest⟩ := Except.bind_eq_ok.mp hrun
    exact failure_of_run hone (ih hrest)

theorem pass_of_runAll (hrun : runAll b p (ds.map Entry.fresh) phases = .ok (p', es')) (hes' : ∀ e ∈ es', e.failure = none) :
    ∃ ds', es' = ds'.map Entry.fresh ∧ Pass b phases p ds p' ds' := by
  induction phases generalizing p ds with
  | nil =>
    obtain ⟨rfl, rfl⟩ := Prod.mk.inj (Except.ok.inj hrun)
    exact ⟨ds, rfl, .nil p ds⟩
  | cons phase phases ih =>
    obtain ⟨⟨q, rest⟩, hone, hrest⟩ := Except.bind_eq_ok.mp hrun
    obtain ⟨fs, rfl, hpass⟩ := passes_of_run hone (failure_of_runAll hrest hes')
    obtain ⟨ds', rfl, hs⟩ := ih hrest
    exact ⟨ds', rfl, .cons hpass hs⟩

/-- Phases pass through declarations in another order, from a state that gives the same answers to such a state. -/
theorem Pass.reorder (h : Pass b phases p ds p' ds') (hpq : p.Alike q) (hr : Reorders ds fs) (hds : (ds.map Decl.name?).Nodup)
    (hk : ∀ d ∈ ds, p.KnowsKind d) : ∃ q' fs', Pass b phases q fs q' fs' ∧ p'.Alike q' ∧ Reorders ds' fs' := by
  induction h generalizing q fs with
  | nil p ds => exact ⟨q, fs, .nil q fs, hpq, hr⟩
  | @cons phase phases p p₁ r ds ds₁ es hone _ ih =>
    have hcommutes := Step.commutes_ofPhase b phase
    obtain ⟨q₁, fs₁, hfs, halike, hr₁⟩ := hone.reorder hcommutes hds hk hr
    obtain ⟨q₂, hfs₂, halike₂⟩ := hfs.alike hcommutes hpq
    have hds₁ : (ds₁.map Decl.name?).Nodup := hone.map_name? hcommutes ▸ hds
    obtain ⟨q', fs', hpass, halike', hr'⟩ := ih (halike.trans halike₂) hr₁ hds₁ (hone.knowsKind hcommutes hds hk)
    exact ⟨q', fs', .cons hfs₂ hpass, halike', hr'⟩

end Phase

/-- Declarations that are registered without a problem have different names. -/
theorem Step.Passes.nodup_of_register {p p' : Progress} {ds ds' : List Decl} (h : register.Passes p ds p' ds') :
    (ds.map Decl.name?).Nodup := by
  have hfresh : ∀ e ∈ ds.map Entry.fresh, e.failure = none := List.forall_mem_map.mpr fun _ _ => rfl
  have hpairs := (Phase.pairwise_run_register hfresh (Phase.run_of_passes h)).1
  rw [← h.map_name? commutes_register, List.Nodup, List.pairwise_map]
  exact (List.pairwise_map.mp hpairs).imp fun h => h (.of_eq_none rfl) (.of_eq_none rfl)

/-! ## Units -/

namespace Resolution

/-- Every name has come to the same in two units, and every declaration. -/
structure SameByName (r r' : Resolution) : Prop where
  globals : ∀ name, r'.catalog.lookupGlobal name = r.catalog.lookupGlobal name
  structs : ∀ name, r'.catalog.struct? name = r.catalog.struct? name
  functions : ∀ name, (r'.functions.find? fun f => f.name = name) = r.functions.find? fun f => f.name = name
  scopes : ∀ name, r'.catalog.scope? name = r.catalog.scope? name
  decls : r.program.decls.Perm r'.program.decls

theorem SameByName.relabel_placing {r r' : Resolution} (h : r.SameByName r') (place : Span → Span) (nowhere : place {} = {}) :
    (r.relabel (.placing place nowhere)).SameByName (r'.relabel (.placing place nowhere)) where
  globals name := find?_map_congr Symbol.name (Symbol.relabel (.placing place nowhere)) (fun _ => rfl) (h.globals name)
  structs name := find?_map_congr StructInfo.name (StructInfo.relabel (.placing place nowhere)) (fun _ => rfl) (h.structs name)
  functions name := find?_map_congr FunctionInfo.name (FunctionInfo.relabel (.placing place nowhere)) (fun _ => rfl) (h.functions name)
  scopes name := find?_map_congr LocalScope.function (LocalScope.relabel (.placing place nowhere)) (fun _ => rfl) (h.scopes name)
  decls := by
    have hdecls (r : Resolution) : (r.relabel (.placing place nowhere)).program.decls
        = r.program.decls.map (Decl.relabel (.placing place nowhere)) := by
      rw [program, relabel, List.map_map, program, List.map_map]
      rfl
    rw [hdecls, hdecls]
    exact h.decls.map _

theorem problems_eq_nil_iff {r : Resolution} : r.problems = [] ↔ ∀ e ∈ r.entries, e.failure = none := by
  rw [problems, List.flatMap_eq_nil_iff]
  simp only [List.filterMap_eq_nil_iff]
  constructor
  · intro h e he
    cases hf : e.failure with
    | none => rfl
    | some failure =>
      have hmem : failure.1 ∈ Phase.all := by cases failure.1 <;> decide
      have hnone := h failure.1 hmem e he
      rw [Entry.problemIn?, hf, Option.filter_some, if_pos (decide_eq_true rfl)] at hnone
      cases hnone
  · intro h phase _ e he
    rw [Entry.problemIn?, h e he]
    rfl

end Resolution

namespace Program

variable {b : Builtins} {p q : Program} {r : Resolution}

theorem resolve_of_pass {p' : Progress} {ds' : List Decl} (h : Phase.Pass b Phase.all {} p.decls p' ds') :
    p.resolve b = .ok ⟨ds'.map Entry.fresh, p.file, p'.catalog, p'.functions⟩ :=
  Except.bind_eq_ok.mpr ⟨_, Phase.runAll_of_pass h, rfl⟩

/-- All phases pass through the declarations of a unit without problems. -/
theorem pass_of_resolve (h : p.resolve b = .ok r) (hr : r.problems = []) :
    ∃ p' ds', Phase.Pass b Phase.all {} p.decls p' ds' ∧ r = ⟨ds'.map Entry.fresh, p.file, p'.catalog, p'.functions⟩ := by
  obtain ⟨⟨p', es'⟩, hrun, h⟩ := Except.bind_eq_ok.mp h
  obtain rfl := Except.ok.inj h
  obtain ⟨ds', rfl, hpass⟩ := Phase.pass_of_runAll hrun (Resolution.problems_eq_nil_iff.mp hr)
  exact ⟨p', ds', hpass, rfl⟩

/-- A unit without problems has none in another order, and every name comes to the same. -/
theorem resolve_of_reorders (h : p.resolve b = .ok r) (hr : r.problems = []) (hdecls : Reorders p.decls q.decls) :
    ∃ r', q.resolve b = .ok r' ∧ r'.problems = [] ∧ r.SameByName r' := by
  obtain ⟨p', ds', hpass, rfl⟩ := pass_of_resolve h hr
  have hnodup : (p.decls.map Decl.name?).Nodup := by
    cases hpass with
    | cons hregister _ => exact hregister.nodup_of_register
  have hknows : ∀ d ∈ p.decls, Progress.KnowsKind {} d := fun _ _ _ _ _ hs => nomatch hs
  obtain ⟨q', fs', hpass', halike, hreorders⟩ := hpass.reorder (.refl {}) hdecls hnodup hknows
  refine ⟨_, resolve_of_pass hpass', Resolution.problems_eq_nil_iff.mpr (List.forall_mem_map.mpr fun _ _ => rfl),
    halike.catalog.globals, halike.catalog.structs, halike.function, halike.scope, ?_⟩
  have hmap (ds : List Decl) : (ds.map Entry.fresh).map Entry.decl = ds := by
    rw [List.map_map]
    exact List.map_id ds
  rw [Resolution.program, Resolution.program, hmap, hmap]
  exact hreorders.perm

end Program

/-- The declarations of a well-formed unit may stand in any order that keeps the one among the constants: there are problems
in both orders or in none, and if there are none, every global name has the same kind, type and value, every struct the same
fields, every function the same signature and scope, and the declarations have become the same trees. Places may change with
the order: whatever is looked at of them in the declarations is what is the same of them in the results. -/
theorem Program.resolve_reordered (place : Span → Span) (nowhere : place {} = {}) (b : Builtins) {p q : Program} {ds : List Decl}
    (hp : p.IsWellFormed) (hperm : p.decls.Perm ds) (hconst : p.decls.filter Decl.isConst = ds.filter Decl.isConst)
    (hq : q.decls.map (Decl.relabel (.placing place nowhere)) = ds.map (Decl.relabel (.placing place nowhere))) :
    ∃ r r', p.resolve b = .ok r ∧ q.resolve b = .ok r' ∧ (r.problems = [] ↔ r'.problems = [])
      ∧ (r.problems = [] → (r.relabel (.placing place nowhere)).SameByName (r'.relabel (.placing place nowhere))) := by
  let t : Program := { q with decls := ds }
  have ht : t.IsWellFormed := fun d hd => hp d (hperm.mem_iff.mpr hd)
  obtain ⟨r, -, hr, -⟩ := exists_resolve hp b
  obtain ⟨s, -, hs, -⟩ := exists_resolve ht b
  -- In the order of `ds`, but with the places of `q`, the same comes out but for places.
  have hlabels : q.relabel (.placing place nowhere) = t.relabel (.placing place nowhere) := by
    rw [relabel, relabel, hq]
  have hresolve := q.resolve_relabel (b.lookup_placing place nowhere)
  rw [hlabels, t.resolve_relabel (b.lookup_placing place nowhere), hs, Except.toOption, Option.map_some] at hresolve
  obtain ⟨r', hr', hsame⟩ := Option.map_eq_some_iff.mp hresolve.symm
  have hr' := Except.toOption_eq_some_iff.mp hr'
  have hproblems : s.problems = [] ↔ r'.problems = [] := by
    rw [← List.map_eq_nil_iff (f := Problem.relabel (.placing place nowhere)), ← Resolution.problems_relabel, ← hsame,
      Resolution.problems_relabel, List.map_eq_nil_iff]
  have hthere (hnone : r.problems = []) : s.problems = [] ∧ r.SameByName s := by
    obtain ⟨s', hs', hnone', hnames⟩ := resolve_of_reorders (q := t) hr hnone (.of_perm hperm hconst)
    obtain rfl := Except.ok.inj (hs.symm.trans hs')
    exact ⟨hnone', hnames⟩
  have hback (hnone : s.problems = []) : r.problems = [] := by
    obtain ⟨r₁, hr₁, hnone', -⟩ := resolve_of_reorders (q := p) hs hnone (.of_perm hperm.symm hconst.symm)
    obtain rfl := Except.ok.inj (hr.symm.trans hr₁)
    exact hnone'
  refine ⟨r, r', hr, hr', ⟨fun h => hproblems.mp (hthere h).1, fun h => hback (hproblems.mpr h)⟩, fun h => ?_⟩
  rw [hsame]
  exact (hthere h).2.relabel_placing place nowhere

/-- A constant made from another one, which comes before it. -/
def sizes : List Decl := [
  .const { name := "n", value := .int 2 {} },
  .const { name := "m", value := .ident "n" none {} }]

/-- A function that looks into a list of structs. -/
def lookingUp : List Decl := [
  .func {
    name := "f"
    result := .named "int" {}
    params := [.param { name := "a", type := .named "int" {} }]
    body := [
      .assign (.ident "result" none {})
        (.index (.index (.ident "list" none {}) (.ident "a" none {}) {}) (.ident "x" none {}) {}) {}] },
  .var { name := "list", type := .array (.named "item" {}) (.name "m") {} },
  .struct { name := "item", fields := [.var { name := "x", type := .named "int" {} }] }]

theorem isWellFormed_sizes_lookingUp : Program.IsWellFormed { decls := sizes ++ lookingUp } := by
  have hn : IsName "n" := ⟨rfl, rfl⟩
  have hm : IsName "m" := ⟨rfl, rfl⟩
  have hf : IsName "f" := ⟨rfl, rfl⟩
  have ha : IsName "a" := ⟨rfl, rfl⟩
  have hx : IsName "x" := ⟨rfl, rfl⟩
  have hlist : IsName "list" := ⟨rfl, rfl⟩
  have hitem : IsName "item" := ⟨rfl, rfl⟩
  have hresult : IsName "result" := ⟨rfl, rfl⟩
  have hint : (TypeExpr.named "int" {}).IsWellFormed := .inl (.inl rfl)
  refine List.forall_mem_append.mpr ⟨?_, ?_⟩
  · exact List.forall_mem_cons.mpr ⟨⟨hn, trivial, trivial⟩, List.forall_mem_singleton.mpr ⟨hm, hn, .inl hn⟩⟩
  · refine List.forall_mem_cons.mpr ⟨?_, List.forall_mem_cons.mpr ⟨?_, ?_⟩⟩
    · refine ⟨hf, hint, List.forall_mem_singleton.mpr ⟨_, rfl, ha, hint⟩, ⟨⟨hresult, .inl hresult, trivial, ?_⟩, trivial⟩, trivial⟩
      exact ⟨⟨trivial, .inl hlist, .inl ha⟩, .inl hx⟩
    · exact ⟨hlist, .inr hitem, hm⟩
    · exact List.forall_mem_singleton.mpr ⟨hitem, List.cons_ne_nil _ _, List.forall_mem_singleton.mpr ⟨_, rfl, hx, hint⟩⟩

/-- A function, a list and a struct, each used behind its declaration or in front of it, on either side of two constants. -/
theorem Program.resolve_reordered_forward :
    ∃ r r', resolve { decls := sizes ++ lookingUp } = .ok r ∧ resolve { decls := lookingUp.reverse ++ sizes } = .ok r'
      ∧ r.problems = [] ∧ r'.problems = [] ∧ (r.relabel .same).SameByName (r'.relabel .same) := by
  have hkinds : ((resolveFlat { decls := sizes ++ lookingUp }).toOption.map fun r => r.problems.map fun q => q.cause.kind)
      = some [] := by
    decide +kernel
  obtain ⟨r, hflat, hproblems⟩ := Option.map_eq_some_iff.mp hkinds
  have hr := resolve_of_resolveFlat (Except.toOption_eq_some_iff.mp hflat)
  have hnone : r.problems = [] := List.map_eq_nil_iff.mp hproblems
  have hperm : (sizes ++ lookingUp).Perm (lookingUp.reverse ++ sizes) :=
    List.perm_append_comm.trans (lookingUp.reverse_perm.symm.append_right sizes)
  obtain ⟨s, r', hs, hr', hiff, hsame⟩ := resolve_reordered id rfl Builtins.standard (p := { decls := sizes ++ lookingUp })
    (q := { decls := lookingUp.reverse ++ sizes }) isWellFormed_sizes_lookingUp hperm rfl rfl
  obtain rfl := Except.ok.inj (hs.symm.trans hr)
  exact ⟨s, r', hr, hr', hnone, hiff.mp hnone, hsame hnone⟩

/-- The order of constants matters. -/
example : problemKindsOf "const m n const n 2" ≠ some [] ∧ problemKindsOf "const n 2 const m n" = some [] := by
  decide +kernel

end FlatScope
