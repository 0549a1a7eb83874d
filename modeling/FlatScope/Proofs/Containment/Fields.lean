/-
  What structs hold. The fields of a struct are read off its declaration: they are those of its members one by one, up to the
  member with a problem if there is one (`StructDecl.HasFields`). They are resolved in front of containment and of headers, but
  nothing behind them changes what types come to, so they are the fields that the declaration has in the catalog that is left
  in the end (`Program.Runs.hasFields`). Hence what `Catalog.Holds` says of a struct is what its declaration says.
-/
import FlatScope.Proofs.Accounting.Headers
import FlatScope.Proofs.Notes.Unit
import FlatScope.Proofs.Totality.Phases

namespace FlatScope

/-! ## Fields and members -/

/-- A field is that of a member: it has the name and the type of the member. -/
def Member.IsField (c : Catalog) (m : Member) (f : String × Ty) : Prop := m.name = .ok f.1 ∧ m.resolve c = .ok f.2

/-- A member does not go with the fields in front of it: one of them has its name already, or it has a new name and no type. -/
inductive Member.IsRefused (c : Catalog) (struct : String) (known : List (String × Ty)) (m : Member) : Problem → Prop
  | taken (name : String) (hname : m.name = .ok name) (hknown : name ∈ known.map Prod.fst) :
    IsRefused c struct known m ⟨.duplicateField name struct, m.span⟩
  | untyped (name : String) (hname : m.name = .ok name) (hnew : name ∉ known.map Prod.fst) (halt : Halt) (problem : Problem)
    (htype : m.resolve c = .error halt) (hreport : halt.report = .ok problem) : IsRefused c struct known m problem

/-- Members that have no fields: there are none without a problem, and with one the first of them is refused. -/
inductive Member.AreLeft (c : Catalog) (struct : String) (known : List (String × Ty)) : List Member → Option Problem → Prop
  | none : AreLeft c struct known [] none
  | refused {m : Member} {problem : Problem} (h : m.IsRefused c struct known problem) (rest : List Member) :
    AreLeft c struct known (m :: rest) (some problem)

/-- Fields are those of the members of a struct, in their order and of different names, up to the problem if there is one. -/
structure StructDecl.HasFields (c : Catalog) (d : StructDecl) (fields : List (String × Ty)) (problem : Option Problem) : Prop where
  distinct : (fields.map Prod.fst).Nodup
  read : ∃ front rest, d.fields = front ++ rest ∧ List.Forall₂ (Member.IsField c) front fields
    ∧ Member.AreLeft c d.name fields rest problem

namespace StructDecl

variable {c : Catalog} {struct : String} {known fields : List (String × Ty)} {f : String × Ty} {m : Member} {ms : List Member}
  {halt : Option Halt} {problem : Option Problem}

theorem any_name_iff {name : String} : (known.any fun f => f.1 = name) = true ↔ name ∈ known.map Prod.fst := by
  rw [List.any_eq_true, List.mem_map]
  exact exists_congr fun f => and_congr_right fun _ => decide_eq_true_iff

theorem isField_of_field (h : field c struct known m = .ok f) : m.IsField c f ∧ f.1 ∉ known.map Prod.fst := by
  obtain ⟨name, hname, h⟩ := Except.bind_eq_ok.mp h
  dsimp only at h
  split at h
  · cases h
  · rename_i hnew
    obtain ⟨t, ht, h⟩ := Except.bind_eq_ok.mp h
    obtain rfl := Except.ok.inj h
    exact ⟨⟨Except.mapError_eq_ok.mp hname, ht⟩, mt any_name_iff.mpr hnew⟩

theorem isRefused_of_field {halt : Halt} {problem : Problem} (h : field c struct known m = .error halt)
    (hreport : halt.report = .ok problem) : m.IsRefused c struct known problem := by
  obtain h | ⟨name, hname, h⟩ := Except.bind_eq_error.mp h
  · obtain ⟨misplaced, -, rfl⟩ := Except.mapError_eq_error.mp h
    cases hreport
  · dsimp only at h
    have hname := Except.mapError_eq_ok.mp hname
    split at h
    · rename_i hknown
      obtain rfl := Except.error.inj h
      obtain rfl := Except.ok.inj hreport
      exact .taken name hname (any_name_iff.mp hknown)
    · rename_i hnew
      obtain h | ⟨t, -, h⟩ := Except.bind_eq_error.mp h
      · exact .untyped name hname (mt any_name_iff.mpr hnew) halt problem h hreport
      · cases h

/-- The fields behind those that are known are read off the members. -/
theorem reads_of_resolveFields (hknown : (known.map Prod.fst).Nodup) (h : resolveFields c struct known ms = (fields, halt))
    (hreport : Option.Rel (fun halt q => halt.report = .ok q) halt problem) : (fields.map Prod.fst).Nodup
      ∧ ∃ front rest read, ms = front ++ rest ∧ fields = known ++ read ∧ List.Forall₂ (Member.IsField c) front read
        ∧ Member.AreLeft c struct fields rest problem := by
  induction ms generalizing known with
  | nil =>
    obtain ⟨rfl, rfl⟩ := Prod.mk.inj h
    cases hreport
    exact ⟨hknown, [], [], [], rfl, (List.append_nil _).symm, .nil, .none⟩
  | cons m ms ih =>
    rw [resolveFields] at h
    split at h
    · rename_i hfield
      obtain ⟨rfl, rfl⟩ := Prod.mk.inj h
      cases hreport with
      | some hreport =>
        exact ⟨hknown, [], m :: ms, [], rfl, (List.append_nil _).symm, .nil, .refused (isRefused_of_field hfield hreport) ms⟩
    · rename_i f hfield
      obtain ⟨hf, hnew⟩ := isField_of_field hfield
      have hmore : ((known ++ [f]).map Prod.fst).Nodup := by
        rw [List.map_append]
        exact hknown.append (List.nodup_singleton _) (List.disjoint_singleton.mpr hnew)
      obtain ⟨hdistinct, front, rest, read, rfl, rfl, hread, hleft⟩ := ih hmore h
      exact ⟨hdistinct, m :: front, rest, f :: read, rfl, List.append_assoc .., .cons hf hread, hleft⟩

theorem hasFields_of_resolveFields {d : StructDecl} (h : resolveFields c d.name [] d.fields = (fields, halt))
    (hreport : Option.Rel (fun halt q => halt.report = .ok q) halt problem) : d.HasFields c fields problem := by
  have hnone : (([] : List (String × Ty)).map Prod.fst).Nodup := List.nodup_nil
  obtain ⟨hdistinct, front, rest, read, hfields, rfl, hread, hleft⟩ := reads_of_resolveFields hnone h hreport
  exact ⟨hdistinct, front, rest, hfields, hread, hleft⟩

end StructDecl

/-! ## Types behind the constants -/

/-- Types depend on nothing but the global symbols and the open scope. -/
theorem Catalog.AgreesOnTypes.of_eq {c c' : Catalog} (hglobals : c'.globals = c.globals) (hcurrent : c'.current = c.current) :
    c.AgreesOnTypes c' := by
  have hlookup (name : String) : c'.lookupGlobal name = c.lookupGlobal name := by rw [lookupGlobal, hglobals, lookupGlobal]
  exact .of_globals hcurrent (fun name => by rw [hlookup]) fun name _ hs _ => (hlookup name).trans hs

theorem Phase.agreesOnTypes_run {phase : Phase} {step : Step} {p p' : Progress} {es es' : List Entry}
    (hstep : ∀ p d p' d' problem, step p d = .ok (p', d', problem) → p.catalog.AgreesOnTypes p'.catalog)
    (hrun : phase.run step p es = .ok (p', es')) : p.catalog.AgreesOnTypes p'.catalog := by
  have hkeeps : p.catalog.AgreesOnTypes p'.catalog ∧ ∀ e ∈ es', True :=
    keeps_run (Q := fun q => p.catalog.AgreesOnTypes q.catalog) (E := fun _ => True) (fun _ _ he => he)
      (fun q d q' d' problem hq _ hone => ⟨hq.trans (hstep q d q' d' problem hone), trivial⟩) hrun (.refl _) fun _ _ => trivial
  exact hkeeps.1

/-! ## Structs among the entries -/

/-- The struct of an entry, and where it failed if it did. -/
def Entry.struct? (e : Entry) : Option (StructDecl × Option (Phase × Problem)) :=
  match e.decl with
  | .struct d => some (d, e.failure)
  | _ => none

theorem Entry.struct?_eq_some_iff {e : Entry} {d : StructDecl} {failure : Option (Phase × Problem)} :
    e.struct? = some (d, failure) ↔ e = ⟨.struct d, failure⟩ := by
  constructor
  · intro h
    obtain ⟨decl, f⟩ := e
    cases decl with
    | struct d' =>
      obtain ⟨rfl, rfl⟩ := Prod.mk.inj (Option.some.inj h)
      rfl
    | const _ | var _ | func _ | foreign _ => cases h
  · rintro rfl
    rfl

namespace Step

variable {p p' : Progress} {d d' : Decl} {problem : Option Problem}

theorem agreesOnTypes_fields (h : fields p d = .ok (p', d', problem)) : p.catalog.AgreesOnTypes p'.catalog :=
  .of_eq (globals_fields h) (isLocal_fields.names h).current

theorem agreesOnTypes_containment (h : containment p d = .ok (p', d', problem)) : p.catalog.AgreesOnTypes p'.catalog :=
  .of_eq (globals_containment h) (isLocal_containment.names h).current

theorem struct?_header (h : header p d = .ok (p', d', problem)) :
    (Entry.mk d' (problem.map (.headers, ·))).struct? = (Entry.mk d none).struct? := by
  cases d with
  | struct d =>
    obtain ⟨-, rfl, rfl⟩ := (show Ignores header _ from fun _ => rfl).cases h
    rfl
  | const _ | var _ | func _ | foreign _ =>
    rw [keepsDecl_header _ _ _ _ _ h]
    rfl

theorem struct?_body {b : Builtins} (h : body b p d = .ok (p', d', problem)) :
    (Entry.mk d' (problem.map (.bodies, ·))).struct? = (Entry.mk d none).struct? := by
  cases d with
  | func f =>
    obtain ⟨-, -, rfl, -⟩ | ⟨_, _, _, -, -, -, rfl, -⟩ := body_eq_ok.mp h
    · rfl
    · rfl
  | const _ | var _ | struct _ | foreign _ =>
    obtain ⟨-, rfl, rfl⟩ := (show Ignores (body b) _ from fun _ => rfl).cases h
    rfl

/-- A step makes no structs, and goes on with what a struct holds as it is. -/
structure KeepsFields (step : Step) : Prop where
  decl : ∀ p d p' s problem, step p d = .ok (p', .struct s, problem) → d = .struct s
  fields : ∀ p s p' d' problem, step p (.struct s) = .ok (p', d', problem) →
    (p'.record s.name).struct.map StructInfo.fields = (p.record s.name).struct.map StructInfo.fields

theorem keepsFields_containment : KeepsFields containment where
  decl _ _ _ _ _ h := (keepsDecl_containment _ _ _ _ _ h).symm
  fields p s p' d' problem h := by
    obtain ⟨-, ⟨rfl, -⟩ | ⟨cycle, rfl, -⟩⟩ := containment_cases h
    · rfl
    · have hrecord := Progress.record_revise (f := fun i => { i with isComplete := false }) (fun _ => rfl) p s.name s.name
      have hstruct : Record.struct _ = (p.record s.name).struct.map _ := congrArg Record.struct (hrecord.trans (if_pos rfl))
      exact (congrArg (Option.map StructInfo.fields) hstruct).trans (Option.map_map ..)

theorem keepsFields_header : KeepsFields header where
  decl _ _ _ _ _ h := (keepsDecl_header _ _ _ _ _ h).symm
  fields p s p' d' problem h := by rw [((show Ignores header (.struct s) from fun _ => rfl).cases h).1]

theorem keepsFields_body (b : Builtins) : KeepsFields (body b) where
  decl p d p' s problem h := (Entry.mk.inj (Entry.struct?_eq_some_iff.mp (struct?_body h).symm)).1
  fields p s p' d' problem h := by rw [((show Ignores (body b) (.struct s) from fun _ => rfl).cases h).1]

end Step

/-! ## The phases -/

/-- The struct of an entry holds what resolving its members in a catalog comes to, and the entry has the problem with them. -/
def Entry.IsRead (c : Catalog) (r : Record) (e : Entry) : Prop :=
  ∀ d, e.decl = .struct d → ∃ i halt, r.struct = some i ∧ StructDecl.resolveFields c d.name [] d.fields = (i.fields, halt)
    ∧ Option.Rel (fun halt q => halt.report = .ok q) halt (e.problemIn? .fields)

namespace Phase

variable {phase : Phase} {step : Step} {c : Catalog} {p p' : Progress} {es es' : List Entry}

/-- The fields phase reads off what structs hold. -/
theorem isRead_fields (h : p.Accounts [.constants, .registration] es) (hrun : Phase.fields.run Step.fields p es = .ok (p', es')) :
    Holds (Entry.IsRead p.catalog) p' es' := by
  refine run_each Step.isLocal_fields (I := fun q => p.catalog.AgreesOnTypes q.catalog)
    (fun _ _ _ _ _ hq hone => hq.trans (Step.agreesOnTypes_fields hone)) (fun r e hf he d hd => ?_)
    (fun q d name q' d' problem hq hname he hone s hs => ?_) h.apart (.refl _) h.stages hrun
  -- no struct has failed in front of its fields
  · obtain ⟨decl, failure⟩ := e
    obtain rfl : decl = .struct d := hd
    obtain ⟨_, i, -, -, -, hstage⟩ := he
    generalize i.isComplete = isComplete at hstage
    cases hstage with
    | waiting => cases hf
    | failed hmem | complete hmem | selfContaining hmem => exact absurd hmem (by decide)
  · obtain rfl : d = .struct s := (Step.keepsDecl_fields _ _ _ _ _ hone).symm.trans hs
    obtain ⟨-, known, rfl, halt, hknown, hreport⟩ := Step.fields_cases hone
    obtain ⟨_, i, hr, -⟩ := he
    obtain rfl : s.name = name := Option.some.inj hname
    refine ⟨{ i with fields := known, isComplete := problem.isNone }, halt, ?_, ?_, ?_⟩
    · have hrevise (i : StructInfo) : { i with fields := known, isComplete := problem.isNone }.name = i.name := rfl
      rw [Progress.record_revise hrevise, if_pos rfl, hr]
      rfl
    · exact (hq.resolveFields s.name [] s.fields).symm.trans hknown
    · cases hreport with
      | none => exact .none
      | some hreport => exact .some hreport

/-- What structs hold stays so in the phases behind. -/
theorem isRead_run (hphase : phase ≠ .fields) (hlocal : step.IsLocal) (hstep : step.KeepsFields)
    (hapart : es.Pairwise Entry.IsApart) (hes : Holds (Entry.IsRead c) p es) (hrun : phase.run step p es = .ok (p', es')) :
    Holds (Entry.IsRead c) p' es' := by
  refine run_each hlocal (I := fun _ => True) (fun _ _ _ _ _ _ _ => trivial) (fun _ _ _ he => he)
    (fun q d name q' d' problem _ hname he hone s hs => ?_) hapart trivial hes hrun
  obtain rfl : d' = .struct s := hs
  obtain rfl := hstep.decl _ _ _ _ _ hone
  obtain rfl : s.name = name := Option.some.inj hname
  obtain ⟨i, halt, hi, hfields, hreport⟩ := he s rfl
  have hkept := hstep.fields _ _ _ _ _ hone
  rw [hi, Option.map_some, Option.map_eq_some_iff] at hkept
  obtain ⟨i', hi', hkept⟩ := hkept
  have hproblem : Entry.problemIn? .fields ⟨.struct s, problem.map (phase, ·)⟩ = none := by
    cases problem with
    | none => rfl
    | some problem => exact congrArg (Option.map Prod.snd) (Option.filter_some_neg (decide_eq_false hphase))
  exact ⟨i', halt, hi', hfields.trans (by rw [hkept]), hproblem ▸ hreport⟩

end Phase

namespace Program

variable {b : Builtins} {p : Program} {p₁ p₂ p₃ p₄ p₅ p₆ : Progress} {es₁ es₂ es₃ es₄ es₅ es₆ : List Entry}

/-- What types come to when fields are resolved is what they come to in the end. -/
theorem Runs.agreesOnTypes (h : p.Runs b p₁ p₂ p₃ p₄ p₅ p₆ es₁ es₂ es₃ es₄ es₅ es₆) : p₂.catalog.AgreesOnTypes p₆.catalog := by
  have h₃ := Phase.agreesOnTypes_run (fun _ _ _ _ _ => Step.agreesOnTypes_fields) h.fields
  have h₄ := Phase.agreesOnTypes_run (fun _ _ _ _ _ => Step.agreesOnTypes_containment) h.containment
  have h₅ := (Phase.agreesOnTypes_headers (fun _ he hn => h.accounts_containment.knowsKind he hn) h.headers).2
  exact h₃.trans (h₄.trans (h₅.trans (Phase.ground_run h.bodies).agrees.onTypes))

/-- The structs of a resolved unit hold what their declarations say. -/
theorem Runs.hasFields (h : p.Runs b p₁ p₂ p₃ p₄ p₅ p₆ es₁ es₂ es₃ es₄ es₅ es₆) {d : StructDecl}
    {failure : Option (Phase × Problem)} (hd : ⟨.struct d, failure⟩ ∈ es₆) (hregistered : Entry.IsRegistered ⟨.struct d, failure⟩) :
    ∃ i, p₆.catalog.struct? d.name = some i
      ∧ d.HasFields p₆.catalog i.fields (Entry.problemIn? .fields ⟨.struct d, failure⟩) := by
  have haccounts₂ := (Progress.Accounts.register h.registration).run Step.isLocal_constant (Step.advances_constant (by decide))
    nofun h.constants
  have haccounts₃ := haccounts₂.run Step.isLocal_fields Step.advances_fields nofun h.fields
  have hread₃ := Phase.isRead_fields haccounts₂ h.fields
  have hread₄ := Phase.isRead_run (by decide) Step.isLocal_containment Step.keepsFields_containment haccounts₃.apart hread₃ h.containment
  have hread₅ := Phase.isRead_run (by decide) Step.isLocal_header Step.keepsFields_header h.accounts_containment.apart hread₄ h.headers
  have hread₆ := Phase.isRead_run (by decide) (Step.isLocal_body b) (Step.keepsFields_body b) h.accounts_headers.apart hread₅ h.bodies
  obtain ⟨i, halt, hi, hfields, hreport⟩ := hread₆ _ hd hregistered d.name rfl d rfl
  rw [← h.agreesOnTypes.resolveFields] at hfields
  exact ⟨i, hi, StructDecl.hasFields_of_resolveFields hfields hreport⟩

end Program

end FlatScope
