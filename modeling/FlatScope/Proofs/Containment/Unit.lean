/-
  Reports of structs inside themselves. The containment phase asks for each struct in turn whether it is inside itself,
  unless it is on a cycle that has been reported (`Step.containment_struct`). So a report names a cycle, and of the structs on a cycle
  one is reported or is on a reported cycle (`Phase.isSearched_append`). A reported struct stays incomplete: nothing is selected from it
  and it is not put together anywhere (`Catalog.refuses_of_incomplete`). In a unit without problems nothing is inside itself, and so
  every type has a finite expansion (`Program.resolve_contained`).

  What a struct holds is what its declaration says (`Program.Runs.hasFields`), up to its problem if it has one. Structs whose fields
  are not all known take part, too: the fields in front of a problem may be what closes a cycle. Only their own declarations are not
  asked about.
-/
import FlatScope.Proofs.Accounting.Unit
import FlatScope.Proofs.Containment.Fields
import FlatScope.Proofs.Containment.Search

namespace FlatScope

/-! ## The phase -/

/-- An entry is a struct that is reported to be inside itself, by a cycle. -/
def Entry.IsReported (e : Entry) (cycle : List String) : Prop :=
  ∃ d, e = ⟨.struct d, some (.containment, ⟨.selfContaining d.name cycle, d.span⟩)⟩

theorem Catalog.held_modifyStruct {f : StructInfo → StructInfo} (hname : ∀ i, (f i).name = i.name)
    (hfields : ∀ i, (f i).fields = i.fields) (c : Catalog) (name : String) : (c.modifyStruct name f).held = c.held := by
  have hheld (i : StructInfo) : StructInfo.held (if i.name = name then f i else i) = i.held := by
    split
    · rw [StructInfo.held, hfields, StructInfo.held]
    · rfl
  funext x
  rw [held, struct?_modifyStruct hname, Option.map_map, held]
  exact congrArg (Option.getD · []) (congrFun (congrArg Option.map (funext hheld)) _)

/-- A struct is reported if it is inside itself, unless it is on a cycle already. -/
theorem Step.containment_struct {p p' : Progress} {s : StructDecl} {d' : Decl} {problem : Option Problem}
    (h : containment p (.struct s) = .ok (p', d', problem)) : d' = .struct s
      ∧ ((s.name ∈ p.onCycle ∨ p.catalog.cycle? s.name = none) ∧ p' = p ∧ problem = none
        ∨ ∃ cycle, p.catalog.cycle? s.name = some cycle ∧ p'.onCycle = p.onCycle ++ cycle ∧ p'.catalog.held = p.catalog.held
          ∧ problem = some ⟨.selfContaining s.name cycle, s.span⟩) := by
  rw [containment] at h
  split at h
  · rename_i hnone
    obtain ⟨rfl, rfl, rfl⟩ := done_eq_ok h
    refine ⟨rfl, .inl ⟨?_, rfl, rfl⟩⟩
    split at hnone
    · exact .inl (by assumption)
    · exact .inr hnone
  · rename_i cycle hsome
    obtain ⟨rfl, rfl, rfl⟩ := done_eq_ok h
    have hcycle : p.catalog.cycle? s.name = some cycle := by
      split at hsome
      · cases hsome
      · exact hsome
    have hheld := Catalog.held_modifyStruct (f := fun i => { i with isComplete := false }) (fun _ => rfl) (fun _ => rfl) p.catalog s.name
    exact ⟨rfl, .inr ⟨cycle, hcycle, rfl, hheld, rfl⟩⟩

namespace Catalog

variable {c : Catalog}

theorem holds_congr {c' : Catalog} (h : c'.held = c.held) : c'.Holds = c.Holds := by
  unfold Holds
  rw [h]

theorem IsCycle.congr {c' : Catalog} (h : c'.held = c.held) {name : String} {cycle : List String} (hcycle : c.IsCycle name cycle) :
    c'.IsCycle name cycle where
  ends := hcycle.ends
  chain := (holds_congr h).symm ▸ hcycle.chain
  simple := hcycle.simple

/-- The reports of structs are of cycles, and every struct on a cycle that has not failed is on the cycle of a report
in front of it. -/
structure IsSearched (c : Catalog) (es : List Entry) : Prop where
  cycles : ∀ d problem, ⟨.struct d, some (.containment, problem)⟩ ∈ es →
    ∃ cycle, problem = ⟨.selfContaining d.name cycle, d.span⟩ ∧ c.IsCycle d.name cycle
  found : ∀ as d bs, es = as ++ ⟨.struct d, none⟩ :: bs → Relation.TransGen c.Holds d.name d.name →
    ∃ e ∈ as, ∃ cycle, e.IsReported cycle ∧ d.name ∈ cycle

namespace IsSearched

variable {es : List Entry} {x : Entry}

theorem empty : c.IsSearched [] where
  cycles _ _ h := (nomatch h)
  found as _ _ h := absurd h.symm (List.append_ne_nil_of_right_ne_nil as (List.cons_ne_nil _ _))

theorem snoc (h : c.IsSearched es) (hcycle : ∀ d problem, x = ⟨.struct d, some (.containment, problem)⟩ →
      ∃ cycle, problem = ⟨.selfContaining d.name cycle, d.span⟩ ∧ c.IsCycle d.name cycle)
    (hfound : ∀ d, x = ⟨.struct d, none⟩ → Relation.TransGen c.Holds d.name d.name →
      ∃ e ∈ es, ∃ cycle, e.IsReported cycle ∧ d.name ∈ cycle) : c.IsSearched (es ++ [x]) where
  cycles d problem hmem := by
    obtain hmem | hmem := List.mem_append.mp hmem
    · exact h.cycles d problem hmem
    · exact hcycle d problem (List.mem_singleton.mp hmem).symm
  found as d bs hes hback := by
    obtain rfl | ⟨bs, y, rfl⟩ := List.eq_nil_or_concat' bs
    · obtain ⟨rfl, hx⟩ := List.append_inj' hes rfl
      exact hfound d (List.singleton_injective hx) hback
    · rw [← List.cons_append, ← List.append_assoc] at hes
      exact h.found as d bs (List.append_inj' hes rfl).1 hback

end IsSearched

end Catalog

/-- Only the structs among the entries count. -/
theorem Catalog.IsSearched.congr {c : Catalog} {es es' : List Entry} (h : c.IsSearched es)
    (hes : es'.map Entry.struct? = es.map Entry.struct?) : c.IsSearched es' where
  cycles d problem hmem := by
    obtain ⟨e, he, hsame⟩ := List.mem_map.mp (hes ▸ List.mem_map_of_mem hmem : some (d, some (Phase.containment, problem)) ∈ _)
    exact h.cycles d problem (Entry.struct?_eq_some_iff.mp hsame ▸ he)
  found as d bs hback := by
    subst hback
    intro hback
    rw [List.map_append, List.map_cons] at hes
    obtain ⟨xs, ys, rfl, hxs, hys⟩ := List.map_eq_append_iff.mp hes.symm
    obtain ⟨y, ys, rfl, hy, -⟩ := List.map_eq_cons_iff.mp hys
    obtain rfl := Entry.struct?_eq_some_iff.mp hy
    obtain ⟨e, he, cycle, ⟨s, rfl⟩, hmem⟩ := h.found xs d ys rfl hback
    obtain ⟨a, ha, hsame⟩ := List.mem_map.mp (hxs ▸ List.mem_map_of_mem he)
    exact ⟨a, ha, cycle, ⟨s, Entry.struct?_eq_some_iff.mp hsame⟩, hmem⟩

/-- A struct on a cycle that has failed in the search, if at all, is reported or on the cycle of a report in front of it. -/
theorem Catalog.IsSearched.isReported {c : Catalog} {es as bs : List Entry} {d : StructDecl} {failure : Option (Phase × Problem)}
    (h : c.IsSearched es) (hsplit : es = as ++ ⟨.struct d, failure⟩ :: bs)
    (hphase : ∀ phase problem, failure = some (phase, problem) → phase = .containment)
    (hback : Relation.TransGen c.Holds d.name d.name) :
    (∃ cycle, Entry.IsReported ⟨.struct d, failure⟩ cycle) ∨ ∃ e ∈ as, ∃ cycle, e.IsReported cycle ∧ d.name ∈ cycle := by
  cases failure with
  | none => exact .inr (h.found as d bs hsplit hback)
  | some failure =>
    obtain ⟨phase, q⟩ := failure
    obtain rfl := hphase phase q rfl
    obtain ⟨cycle, rfl, -⟩ := h.cycles d q (hsplit ▸ List.mem_append_right _ List.mem_cons_self)
    exact .inl ⟨cycle, d, rfl⟩

namespace Phase

variable {phase : Phase} {step : Step} {p p' : Progress} {es es' : List Entry}

/-- The phase goes on behind entries that have been reported or not. -/
theorem isSearched_append (c : Catalog) (front : List Entry) (hheld : p.catalog.held = c.held)
    (hcycle : ∀ x ∈ p.onCycle, ∃ e ∈ front, ∃ cycle, e.IsReported cycle ∧ x ∈ cycle) (hfront : c.IsSearched front)
    (hes : ∀ e ∈ es, ∀ problem, e.failure ≠ some (.containment, problem))
    (hrun : Phase.containment.run Step.containment p es = .ok (p', es')) :
    p'.catalog.held = c.held ∧ c.IsSearched (front ++ es') := by
  induction es generalizing p front es' with
  | nil =>
    obtain ⟨rfl, rfl⟩ := Prod.mk.inj (Except.ok.inj hrun)
    rw [List.append_nil]
    exact ⟨hheld, hfront⟩
  | cons e es ih =>
    obtain ⟨he, hbehind⟩ := List.forall_mem_cons.mp hes
    have hlater (x : Entry) {names : List String} (hnames : ∀ y ∈ names, ∃ e ∈ front, ∃ cycle, e.IsReported cycle ∧ y ∈ cycle) :
        ∀ y ∈ names, ∃ e ∈ front ++ [x], ∃ cycle, e.IsReported cycle ∧ y ∈ cycle := fun y hy => by
      obtain ⟨e, he, hcycle⟩ := hnames y hy
      exact ⟨e, List.mem_append_left _ he, hcycle⟩
    obtain ⟨d, failure⟩ := e
    cases failure with
    | some failure =>
      obtain ⟨rest, hrest, rfl⟩ := (run_failed_eq_ok _ rfl).mp hrun
      rw [List.append_cons]
      refine ih _ hheld (hlater _ hcycle) (hfront.snoc (fun _ problem hx => ?_) fun _ hx => (nomatch hx)) hbehind hrest
      exact absurd (congrArg Entry.failure hx) (he problem)
    | none =>
      obtain ⟨q, d', problem, rest, hone, hrest, rfl⟩ := (run_cons_eq_ok _).mp hrun
      rw [List.append_cons]
      cases d with
      | struct s =>
        obtain ⟨rfl, ⟨hnone, rfl, rfl⟩ | ⟨cycle, hsome, honCycle, hsame, rfl⟩⟩ := Step.containment_struct hone
        · refine ih _ hheld (hlater _ hcycle) (hfront.snoc (fun _ _ hx => (nomatch hx)) fun d hx hback => ?_) hbehind hrest
          obtain ⟨hd, -⟩ := Entry.mk.inj hx
          obtain rfl := Decl.struct.inj hd
          refine hcycle s.name (hnone.resolve_right fun hnone => ?_)
          exact (Catalog.cycle?_eq_none_iff _ _).mp hnone ((Catalog.holds_congr hheld).symm ▸ hback)
        · have hcycle' := (Catalog.isCycle_of_cycle? hsome).congr hheld.symm
          refine ih _ (hsame.trans hheld) ?_ (hfront.snoc (fun d problem hx => ?_) fun _ hx => (nomatch hx)) hbehind hrest
          · rw [honCycle]
            exact List.forall_mem_append.mpr ⟨hlater _ hcycle,
              fun x hx => ⟨_, List.mem_append_right _ List.mem_cons_self, cycle, ⟨s, rfl⟩, hx⟩⟩
          · obtain ⟨hd, hproblem⟩ := Entry.mk.inj hx
            obtain rfl := Decl.struct.inj hd
            obtain rfl := (Prod.mk.inj (Option.some.inj hproblem)).2
            exact ⟨cycle, rfl, hcycle'⟩
      | const _ | var _ | func _ | foreign _ =>
        obtain ⟨rfl, rfl, rfl⟩ := (show Step.Ignores Step.containment _ from fun _ => rfl).cases hone
        refine ih _ hheld (hlater _ hcycle) (hfront.snoc (fun _ _ hx => (nomatch hx)) fun d hx _ => ?_) hbehind hrest
        cases (Entry.mk.inj hx).1

/-- The structs of entries stay as they are in a phase whose step has nothing to do with them. -/
theorem map_struct?_run (hstep : ∀ p d p' d' problem, step p d = .ok (p', d', problem) →
      (Entry.mk d' (problem.map (phase, ·))).struct? = (Entry.mk d none).struct?)
    (hrun : phase.run step p es = .ok (p', es')) : es'.map Entry.struct? = es.map Entry.struct? := by
  have htakes := run_entries hrun
  clear hrun
  induction htakes with
  | nil => rfl
  | @cons e e' _ _ he _ ih =>
    rw [List.map_cons, List.map_cons, ih]
    refine congrArg (· :: _) ?_
    obtain ⟨-, rfl⟩ | ⟨hnone, q, q', problem, hone, hfailure⟩ := he
    · rfl
    · have hsame := hstep q e.decl q' e'.decl problem hone
      rw [← hfailure, ← hnone] at hsame
      exact hsame

/-- No other phase reports structs inside themselves. -/
theorem unsearched_run (hphase : phase ≠ .containment)
    (hstep : ∀ p d p' d' problem, step p d = .ok (p', d', problem) → p'.onCycle = p.onCycle)
    (hes : p.onCycle = [] ∧ ∀ e ∈ es, ∀ problem, e.failure ≠ some (.containment, problem))
    (hrun : phase.run step p es = .ok (p', es')) :
    p'.onCycle = [] ∧ ∀ e ∈ es', ∀ problem, e.failure ≠ some (.containment, problem) := by
  refine keeps_run (Q := fun p => p.onCycle = []) (fun _ _ he => he) (fun p d p' d' problem hp _ hone => ?_) hrun hes.1 hes.2
  refine ⟨(hstep p d p' d' problem hone).trans hp, fun q hq => ?_⟩
  obtain ⟨_, -, hsame⟩ := Option.map_eq_some_iff.mp hq
  exact hphase (Prod.mk.inj hsame).1

end Phase

namespace Step

variable {p p' : Progress} {d d' : Decl} {problem : Option Problem}

theorem onCycle_register (h : register p d = .ok (p', d', problem)) : p'.onCycle = p.onCycle := by
  obtain ⟨s, -, -, ⟨_, -, rfl, -⟩ | ⟨-, rfl, -⟩⟩ := register_eq_ok.mp h
  · rfl
  · rfl

theorem onCycle_constant (h : constant p d = .ok (p', d', problem)) : p'.onCycle = p.onCycle := by
  cases d with
  | const d =>
    obtain ⟨i, -, rfl, -⟩ | ⟨rfl, -⟩ := constant_cases h
    · rfl
    · rfl
  | var _ | struct _ | func _ | foreign _ => rw [((ignores_constant rfl).cases h).1]

theorem onCycle_fields (h : fields p d = .ok (p', d', problem)) : p'.onCycle = p.onCycle := by
  cases d with
  | struct d =>
    obtain ⟨-, known, rfl, -⟩ := fields_cases h
    rfl
  | const _ | var _ | func _ | foreign _ => rw [((show Ignores fields _ from fun _ => rfl).cases h).1]

/-- A header says nothing of structs. -/
theorem structs_header (h : header p d = .ok (p', d', problem)) : p'.catalog.structs = p.catalog.structs := by
  cases hd : d.header? p.catalog with
  | none => rw [((ignores_header hd).cases h).1]
  | some x =>
    obtain ⟨-, ⟨name, t, s, -, rfl, -⟩ | ⟨rfl, -⟩⟩ := header_cases hd h
    · rfl
    · rfl

end Step

/-! ## Refusals -/

/-- No selection from a struct is accepted, and no literal of it, wherever they stand. -/
structure Catalog.Refuses (c : Catalog) (name : String) : Prop where
  field : ∀ site : Site, site.catalog.structs = c.structs → ∀ base base', base.check site none = .ok (base', .struct name) →
    ∀ context field info, ∃ left, (Expr.field base field info).check site context = .error left
  index : ∀ site : Site, site.catalog.structs = c.structs → ∀ base base', base.check site none = .ok (base', .struct name) →
    ∀ context i info, ∃ left, (Expr.index base i info).check site context = .error left
  composite : ∀ site : Site, site.catalog.structs = c.structs → ∀ elements info,
    ∃ left, (Expr.composite elements info).check site (some (.struct name)) = .error left

/-- A struct that is not complete is refused everywhere. -/
theorem Catalog.refuses_of_incomplete {c : Catalog} {name : String} {i : StructInfo} (hi : c.struct? name = some i)
    (hincomplete : i.isComplete = false) : c.Refuses name := by
  have hfilter {site : Site} (hsite : site.catalog.structs = c.structs) :
      (site.catalog.struct? name).filter StructInfo.isComplete = none := by
    rw [struct?, hsite, show c.structs.find? _ = some i from hi, Option.filter_some, hincomplete]
    rfl
  have hselect {site : Site} (hsite : site.catalog.structs = c.structs) (base : Expr) (field : String) (span : Span) (left : Expr) :
      site.select base (.struct name) field span left = .error (.at span (.invalidStruct name), left) := by
    rw [Site.select, Site.fieldType, hfilter hsite]
  refine ⟨fun site hsite base base' hbase context field info => ?_, fun site hsite base base' hbase context i info => ?_,
    fun site hsite elements info => ?_⟩
  · rw [Expr.check, hbase]
    exact ⟨_, hselect hsite _ _ _ _⟩
  · rw [Expr.check, hbase]
    dsimp only
    split
    · exact ⟨_, rfl⟩
    · exact ⟨_, hselect hsite _ _ _ _⟩
  · have hslots : site.catalog.elementSlots (.struct name) elements.length = .error (.compositeStruct name) := by
      rw [elementSlots, hfilter hsite]
    rw [Expr.check, hslots]
    exact ⟨_, rfl⟩

/-- Sound notes say of no selection from a struct that is not complete that it has a type, and of no literal that it is of its
type. -/
theorem Catalog.unnoted_of_incomplete {c : Catalog} {name : String} {i : StructInfo} (hi : c.struct? name = some i)
    (hincomplete : i.isComplete = false) {V : Ty → Prop} {xs : List Expr} (hnotes : ∀ x ∈ xs, x.IsSound V c.structs) :
    (∀ base field info, .field base field info ∈ xs → base.info.ty = some (.struct name) → info.ty = none)
      ∧ (∀ base i info, .index base i info ∈ xs → base.info.ty = some (.struct name) → info.ty = none)
      ∧ ∀ elements info, .composite elements info ∈ xs → info.ty ≠ some (.struct name) := by
  have hnot (i' : StructInfo) (hi' : c.struct? name = some i') (hcomplete : i'.isComplete = true) : False := by
    obtain rfl := Option.some.inj (hi.symm.trans hi')
    exact Bool.false_ne_true (hincomplete.symm.trans hcomplete)
  refine ⟨fun base field info hx hbase => ?_, fun base j info hx hbase => ?_, fun elements info hx hty => ?_⟩
  · by_contra hty
    obtain ⟨t, ht⟩ := Option.ne_none_iff_exists'.mp hty
    obtain ⟨-, i', hstruct, hi', hcomplete, -⟩ := hnotes _ hx t ht
    obtain hname := Ty.struct.inj (Option.some.inj (hbase.symm.trans hstruct))
    exact hnot i' (hname ▸ hi') hcomplete
  · by_contra hty
    obtain ⟨t, ht⟩ := Option.ne_none_iff_exists'.mp hty
    obtain ⟨-, u, hu, helement⟩ := hnotes _ hx t ht
    obtain rfl := Option.some.inj (hbase.symm.trans hu)
    cases helement
  · obtain ⟨-, hstruct⟩ := hnotes _ hx _ hty
    obtain ⟨i', hi', hcomplete, -⟩ := hstruct name rfl
    exact hnot i' hi' hcomplete

/-! ## Units -/

theorem Entry.IsAt.exists_struct {past : List Phase} {r : Record} {e : Entry} (h : e.IsAt past r) {i : StructInfo}
    (hi : r.struct = some i) : ∃ d, e.decl = .struct d := by
  obtain ⟨d, failure⟩ := e
  cases d with
  | struct d => exact ⟨d, rfl⟩
  | const _ | var _ =>
    obtain ⟨_, rfl, -⟩ := h
    cases hi
  | func _ =>
    obtain ⟨_, _, _, rfl, -⟩ := h
    cases hi
  | foreign _ => exact h.elim

/-- A declaration that fails in the search for structs inside themselves is a struct, and incomplete. -/
theorem Entry.IsAt.struct_of_containment {past : List Phase} {r : Record} {e : Entry} (h : e.IsAt past r) {q : Problem}
    (hq : e.failure = some (.containment, q)) :
    ∃ d i, e = ⟨.struct d, some (.containment, q)⟩ ∧ r.struct = some i ∧ i.isComplete = false := by
  obtain ⟨d, failure⟩ := e
  obtain rfl : failure = some (.containment, q) := hq
  cases d with
  | struct d =>
    obtain ⟨s, i, rfl, -, -, hstage⟩ := h
    refine ⟨d, i, rfl, rfl, ?_⟩
    cases hcomplete : i.isComplete with
    | false => rfl
    | true =>
      rw [hcomplete] at hstage
      cases hstage
  | const _ | var _ =>
    obtain ⟨s, -, -, hstage⟩ := h
    cases hstage
  | func _ =>
    obtain ⟨s, f, scope, -, -, hstage⟩ := h
    generalize hfailure : (Entry.mk _ (some (Phase.containment, q))).failure = failure at hstage
    cases hstage with
    | waiting | headed | failed => cases hfailure
    | entered _ _ _ e =>
      obtain ⟨_, -, hsame⟩ := Option.map_eq_some_iff.mp hfailure.symm
      cases hsame
  | foreign _ => exact h.elim

/-- Structs inside themselves are found out, and only these. -/
structure Resolution.IsContained (r : Resolution) : Prop where
  /-- The structs are those that are declared, and what they hold is what their declarations say. -/
  declared : ∀ i ∈ r.catalog.structs, ∃ d failure, ⟨.struct d, failure⟩ ∈ r.entries ∧ Entry.IsRegistered ⟨.struct d, failure⟩
    ∧ r.catalog.struct? d.name = some i
  fields : ∀ d failure, ⟨.struct d, failure⟩ ∈ r.entries → Entry.IsRegistered ⟨.struct d, failure⟩ →
    ∃ i, r.catalog.struct? d.name = some i ∧ d.HasFields r.catalog i.fields (Entry.problemIn? .fields ⟨.struct d, failure⟩)
  /-- A problem with containment is one of a declared struct, and names a simple cycle from that struct back to itself. -/
  cycles : ∀ q ∈ r.problems, q.cause.kind = .selfContainingStruct → ∃ d cycle, ⟨.struct d, some (.containment, q)⟩ ∈ r.entries
    ∧ q = ⟨.selfContaining d.name cycle, d.span⟩ ∧ r.catalog.IsCycle d.name cycle
  /-- Such a struct is left incomplete, so no selection from it is accepted and no literal of it; and none is noted. -/
  incomplete : ∀ d q, ⟨.struct d, some (.containment, q)⟩ ∈ r.entries →
    ∃ i, r.catalog.struct? d.name = some i ∧ i.isComplete = false
  refused : ∀ d q, ⟨.struct d, some (.containment, q)⟩ ∈ r.entries → r.catalog.Refuses d.name
  unselected : ∀ d q, ⟨.struct d, some (.containment, q)⟩ ∈ r.entries → ∀ e ∈ r.entries,
    (∀ base name info, .field base name info ∈ e.decl.parts → base.info.ty = some (.struct d.name) → info.ty = none)
      ∧ (∀ base i info, .index base i info ∈ e.decl.parts → base.info.ty = some (.struct d.name) → info.ty = none)
      ∧ ∀ elements info, .composite elements info ∈ e.decl.parts → info.ty ≠ some (.struct d.name)
  /-- A struct on a cycle that has not failed otherwise is reported, or it is on the cycle of an earlier report. -/
  found : ∀ as d failure bs, r.entries = as ++ ⟨.struct d, failure⟩ :: bs →
    (∀ phase problem, failure = some (phase, problem) → phase = .containment) →
    Relation.TransGen r.catalog.Holds d.name d.name →
    (∃ cycle, Entry.IsReported ⟨.struct d, failure⟩ cycle) ∨ ∃ e ∈ as, ∃ cycle, e.IsReported cycle ∧ d.name ∈ cycle
  /-- Without problems containment is well founded, and whatever a value can be has a finite expansion. -/
  founded : r.problems = [] → WellFounded fun inner outer => r.catalog.Holds outer inner
  expands : r.problems = [] → ∀ t, t.IsWellFormed r.catalog.structNames → ∃ ts, r.catalog.Expands t ts

/-- Looks for a struct inside itself by the search with a bound, which evaluates. -/
def Step.boundedContainment : Step := fun p d =>
  match d with
  | .struct d =>
    match if d.name ∈ p.onCycle then none else (p.catalog.cycleWithin? d.name).getD none with
    | none => .ok (p, .struct d, none)
    | some cycle =>
      let p := p.modifyCatalog fun c => c.modifyStruct d.name fun i => { i with isComplete := false }
      .ok ({ p with onCycle := p.onCycle ++ cycle }, .struct d, some ⟨.selfContaining d.name cycle, d.span⟩)
  | d => .ok (p, d, none)

theorem Step.containment_of_boundedContainment {p : Progress} {d : Decl} {r : Progress × Decl × Option Problem}
    (h : boundedContainment p d = .ok r) : containment p d = .ok r := by
  cases d with
  | struct d =>
    rw [boundedContainment, Catalog.cycleWithin?_eq, Option.getD_some] at h
    exact h
  | const _ | var _ | func _ | foreign _ => exact h

/-- What is reported of a source, and which of its structs are complete. -/
def reportsOf (source : String) : Option (List Problem.Cause × List (String × Bool)) := do
  let p ← (Program.ofSource source).toOption
  let r ← (p.resolveBy Step.boundedContainment).toOption
  return (r.problems.map Problem.cause, r.catalog.structs.map fun i => (i.name, i.isComplete))

namespace Program

variable {b : Builtins} {p : Program} {p₁ p₂ p₃ p₄ p₅ p₆ : Progress} {es₁ es₂ es₃ es₄ es₅ es₆ : List Entry}

/-- What the search for structs inside themselves has found out stays so. -/
theorem Runs.isSearched (h : p.Runs b p₁ p₂ p₃ p₄ p₅ p₆ es₁ es₂ es₃ es₄ es₅ es₆)
    (hstructs : p₆.catalog.structs = p₅.catalog.structs) : p₆.catalog.IsSearched es₆ := by
  have h₁ := Phase.unsearched_run (by decide) (fun _ _ _ _ _ => Step.onCycle_register)
    ⟨rfl, List.forall_mem_map.mpr fun _ _ _ => Option.some_ne_none _ ∘ Eq.symm⟩ h.registration
  have h₂ := Phase.unsearched_run (by decide) (fun _ _ _ _ _ => Step.onCycle_constant) h₁ h.constants
  have h₃ := Phase.unsearched_run (by decide) (fun _ _ _ _ _ => Step.onCycle_fields) h₂ h.fields
  have hkept : p₅.catalog.structs = p₄.catalog.structs ∧ ∀ e ∈ es₅, True :=
    Phase.keeps_run (Q := fun q => q.catalog.structs = p₄.catalog.structs) (E := fun _ => True)
      (fun _ _ he => he) (fun _ _ _ _ _ hq he hone => ⟨(Step.structs_header hone).trans hq, he⟩) h.headers rfl fun _ _ => trivial
  have hsame := hkept.1
  have hheld₆ : p₆.catalog.held = p₄.catalog.held := by
    funext name
    rw [Catalog.held, Catalog.struct?, hstructs, hsame]
    rfl
  have hnone : ∀ x ∈ p₃.onCycle, ∃ e ∈ ([] : List Entry), ∃ cycle, e.IsReported cycle ∧ x ∈ cycle := by
    rw [h₃.1]
    exact List.forall_mem_nil _
  obtain ⟨hheld₄, hsearched⟩ := Phase.isSearched_append p₃.catalog [] rfl hnone .empty h₃.2 h.containment
  have hstructs₅ := Phase.map_struct?_run (fun _ _ _ _ _ => Step.struct?_header) h.headers
  have hstructs₆ := Phase.map_struct?_run (fun _ _ _ _ _ => Step.struct?_body) h.bodies
  have hheld : p₆.catalog.held = p₃.catalog.held := hheld₆.trans hheld₄
  have hback := hsearched.congr (hstructs₆.trans hstructs₅)
  refine ⟨fun d problem he => ?_, fun as d bs hes htrans => ?_⟩
  · obtain ⟨cycle, hproblem, hcycle⟩ := hback.cycles d problem he
    exact ⟨cycle, hproblem, hcycle.congr hheld⟩
  · exact hback.found as d bs hes (Catalog.holds_congr hheld ▸ htrans)

/-- The structs of a resolved unit are those that are declared. -/
theorem Runs.exists_declared (h : p.Runs b p₁ p₂ p₃ p₄ p₅ p₆ es₁ es₂ es₃ es₄ es₅ es₆) {i : StructInfo}
    (hi : i ∈ p₆.catalog.structs) : ∃ d failure, ⟨.struct d, failure⟩ ∈ es₆ ∧ Entry.IsRegistered ⟨.struct d, failure⟩
      ∧ d.name = i.name ∧ p₆.catalog.struct? d.name = some i := by
  obtain ⟨hnames, -, hstages⟩ := h.accounts
  obtain ⟨e, he, hregistered, hname⟩ := hnames.registered i.name (hnames.structs.mem (List.mem_map_of_mem hi))
  have hstruct : (p₆.record i.name).struct = some i :=
    (find?_key_eq_some_iff (hnames.structs.nodup hnames.nodup)).mpr ⟨hi, rfl⟩
  obtain ⟨d, hd⟩ := (hstages e he hregistered i.name hname).exists_struct hstruct
  obtain ⟨decl, failure⟩ := e
  obtain rfl : decl = .struct d := hd
  have hsame : d.name = i.name := Option.some.inj hname
  exact ⟨d, failure, he, hregistered, hsame, hsame ▸ hstruct⟩

/-- An entry that fails in the search is a struct, has got its name, and stays incomplete. -/
theorem Runs.struct_of_containment (h : p.Runs b p₁ p₂ p₃ p₄ p₅ p₆ es₁ es₂ es₃ es₄ es₅ es₆) {e : Entry} {q : Problem} (he : e ∈ es₆)
    (hf : e.failure = some (.containment, q)) :
    ∃ d i, e = ⟨.struct d, some (.containment, q)⟩ ∧ p₆.catalog.struct? d.name = some i ∧ i.isComplete = false := by
  obtain ⟨hnames, -, hstages⟩ := h.accounts
  have hregistered : e.IsRegistered := fun q' hq' => (nomatch hf.symm.trans hq')
  obtain ⟨name, -, hname⟩ := hnames.taken e he
  obtain ⟨d, i, rfl, hi, hincomplete⟩ := (hstages e he hregistered name hname).struct_of_containment hf
  obtain rfl : d.name = name := Option.some.inj hname
  exact ⟨d, i, rfl, hi, hincomplete⟩

/-- Where nothing has failed no struct is inside itself. -/
theorem Runs.not_transGen (h : p.Runs b p₁ p₂ p₃ p₄ p₅ p₆ es₁ es₂ es₃ es₄ es₅ es₆) (hsearched : p₆.catalog.IsSearched es₆)
    (hnone : ∀ e ∈ es₆, e.failure = none) (name : String) : ¬Relation.TransGen p₆.catalog.Holds name name := by
  intro hback
  obtain ⟨inner, hheld, -⟩ := Relation.TransGen.head'_iff.mp hback
  obtain ⟨i, hi, rfl⟩ := List.mem_map.mp hheld.mem_structs
  obtain ⟨d, failure, he, -, hname, -⟩ := h.exists_declared hi
  obtain rfl : failure = none := hnone _ he
  obtain ⟨as, bs, hsplit⟩ := List.append_of_mem he
  obtain ⟨a, ha, cycle, ⟨s, rfl⟩, -⟩ := hsearched.found as d bs hsplit (hname ▸ hback)
  exact absurd (hnone _ (hsplit ▸ List.mem_append_left _ ha)) (Option.some_ne_none _)

theorem Runs.isContained (h : p.Runs b p₁ p₂ p₃ p₄ p₅ p₆ es₁ es₂ es₃ es₄ es₅ es₆) (hp : p.IsWellFormed)
    (hblank : ∀ d ∈ p.decls, d.IsBlank) (file : Option String) :
    Resolution.IsContained ⟨es₆, file, p₆.catalog, p₆.functions⟩ := by
  obtain ⟨hq, hes⟩ := h.holds hp hblank Ty.isClosed_true (fun _ _ => trivial) (b := b) (fun _ _ => trivial)
  have hsearched := h.isSearched hq.structs
  have hfree (hvalid : Resolution.problems ⟨es₆, file, p₆.catalog, p₆.functions⟩ = []) :=
    h.not_transGen hsearched (Resolution.problems_eq_nil_iff.mp hvalid)
  have hincomplete (d : StructDecl) (q : Problem) (hd : ⟨.struct d, some (.containment, q)⟩ ∈ es₆) :
      ∃ i, p₆.catalog.struct? d.name = some i ∧ i.isComplete = false := by
    obtain ⟨d', i, hsame, hi⟩ := h.struct_of_containment hd rfl
    obtain rfl := Decl.struct.inj (Entry.mk.inj hsame).1
    exact ⟨i, hi⟩
  refine {
    declared := fun i hi => ?_
    fields := fun d failure => h.hasFields
    cycles := fun q hq hkind => ?_
    incomplete := hincomplete
    refused := fun d q hd => ?_
    unselected := fun d q hd e he => ?_
    found := fun as d failure bs => hsearched.isReported
    founded := fun hvalid => Catalog.wellFounded_holds (hfree hvalid)
    expands := fun hvalid t ht => Catalog.exists_expands (hfree hvalid) hq.sound.catalog.fields ht }
  · obtain ⟨d, failure, he, hregistered, -, hstruct⟩ := h.exists_declared hi
    exact ⟨d, failure, he, hregistered, hstruct⟩
  · obtain ⟨e, he, hproblem⟩ := List.mem_filterMap.mp ((Resolution.problems_perm _).mem_iff.mp hq)
    obtain ⟨⟨phase, _⟩, hf, rfl⟩ := Option.map_eq_some_iff.mp hproblem
    obtain rfl : phase = .containment := by
      by_contra hphase
      exact (((hes e he).plain _ hf).resolve_right fun hcontainment => hphase hcontainment.1).kind hkind
    obtain ⟨d, -, rfl, -⟩ := h.struct_of_containment he hf
    obtain ⟨cycle, hq, hcycle⟩ := hsearched.cycles d _ he
    exact ⟨d, cycle, he, hq, hcycle⟩
  · obtain ⟨i, hi, hcomplete⟩ := hincomplete d q hd
    exact Catalog.refuses_of_incomplete hi hcomplete
  · obtain ⟨i, hi, hcomplete⟩ := hincomplete d q hd
    have hnotes := (hes e he).notes
    rw [← hq.structs] at hnotes
    exact Catalog.unnoted_of_incomplete hi hcomplete hnotes

/-- The search for structs inside themselves. It ends whatever the containments are, after at most as many looks as there are
containments. In a parsed unit, once it is resolved, the structs are those that are declared, and hold what their declarations say.
Every problem with containment names a simple cycle from a declared struct back to itself, and that struct stays incomplete: nothing
selects from it, and no literal is one of it. Every struct on a cycle that has not failed otherwise is reported or on the cycle of
an earlier report. So in a unit without problems containment is well founded, and every type has a finite expansion. -/
theorem resolve_contained {source : String} {file : Option String} (h : ofSource source file = .ok p) (b : Builtins) :
    (∀ (c : Catalog) name, c.cycleWithin? name = some (c.cycle? name)) ∧ ∃ r, p.resolve b = .ok r ∧ r.IsContained := by
  refine ⟨Catalog.cycleWithin?_eq, ?_⟩
  have hp := isWellFormed_of_ofSource h
  obtain ⟨r, -, hr, -⟩ := exists_resolve hp b
  obtain ⟨p₁, p₂, p₃, p₄, p₅, p₆, es₁, es₂, es₃, es₄, es₅, es₆, hruns, rfl⟩ := exists_runs hr
  have hdecls : p.decls.map (Decl.strip true) = p.decls.map (Decl.strip false) := congrArg decls (strip_of_ofSource h)
  exact ⟨_, hr, hruns.isContained hp (fun d hd => Decl.isBlank_of_strip (List.map_inj_left.mp hdecls d hd)) p.file⟩

/-- Two structs inside each other, and a third that only holds one of them. The first one is reported, with the way through the
second; it alone is incomplete, and the third, which holds it, is not on the cycle. -/
theorem resolve_contained_pair : ∃ p r,
    ofSource "struct a [var x b] struct b [var x a[2]] struct c [var x b, var y c*]" = .ok p ∧ p.resolve = .ok r
      ∧ r.problems.map Problem.cause = [.selfContaining "a" ["a", "b", "a"]]
      ∧ r.catalog.structs.map (fun i => (i.name, i.isComplete)) = [("a", false), ("b", true), ("c", true)]
      ∧ r.IsContained := by
  have hreports : reportsOf "struct a [var x b] struct b [var x a[2]] struct c [var x b, var y c*]"
      = some ([.selfContaining "a" ["a", "b", "a"]], [("a", false), ("b", true), ("c", true)]) := bind_ofSource (by decide +kernel)
  obtain ⟨p, hp, hreports⟩ := Option.bind_eq_some_iff.mp hreports
  obtain ⟨r, hr, hreports⟩ := Option.bind_eq_some_iff.mp hreports
  obtain ⟨hproblems, hstructs⟩ := Prod.mk.inj (Option.some.inj hreports)
  have hp := Except.toOption_eq_some_iff.mp hp
  have hr := resolve_of_resolveBy (fun _ _ _ => Step.containment_of_boundedContainment) (Except.toOption_eq_some_iff.mp hr)
  obtain ⟨-, r', hr', hcontained⟩ := resolve_contained hp Builtins.standard
  obtain rfl := Except.ok.inj (hr.symm.trans hr')
  exact ⟨p, r, hp, hr, hproblems, hstructs, hcontained⟩

end Program

end FlatScope
