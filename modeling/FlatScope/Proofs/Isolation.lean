/-
  Bodies do not see each other. The collection, that is all phases but the last one, does not look into bodies at all
  (`Program.Runs.collection_eq`); and the work on a body leaves no trace but what it finds out of its own function, which no
  other body asks for (`Progress.Ground`). So whatever becomes of the other bodies, and whatever stands in them, a
  function comes to the same (`Program.resolve_isolated`).
-/
import FlatScope.Proofs.Relabeling.Same
import FlatScope.Proofs.Relabeling.Unit
import FlatScope.Proofs.Resolution.Entries
import FlatScope.Proofs.Resolution.Runs
import FlatScope.Proofs.Typing.Unit

namespace FlatScope

/-! ## The collection -/

/-- An entry without the body of a function. -/
def Entry.head (e : Entry) : Entry := { e with decl := e.decl.head }

/-- A phase whose step is blind does without bodies what it does with them. -/
theorem Phase.run_head (phase : Phase) {step : Step} (h : step.IsBlind) (p : Progress) (es : List Entry) :
    phase.run step p (es.map Entry.head) = (phase.run step p es).map fun r => (r.1, r.2.map Entry.head) := by
  induction es generalizing p with
  | nil => rfl
  | cons e es ih =>
    obtain ⟨d, failure⟩ := e
    cases failure with
    | some failure =>
      rw [List.map_cons, run_failed phase rfl, run_failed phase rfl, ih]
      cases phase.run step p es <;> rfl
    | none =>
      have hhead : Entry.head ⟨d, none⟩ = ⟨d.head, none⟩ := rfl
      rw [List.map_cons, hhead, run_cons, run_cons, h p d]
      cases step p d with
      | error m => rfl
      | ok r =>
        obtain ⟨q, d', problem⟩ := r
        simp only [Except.map, Step.headed, bind, Except.bind, ih]
        cases phase.run step q es <;> rfl

namespace Phase

variable {phase : Phase} {step : Step} {p q₁ q₂ : Progress} {es es₁ fs fs₁ : List Entry}

/-- What a blind step builds up, and which entries fail in its phase, is settled by the entries without bodies. -/
theorem run_eq_of_head (h : step.IsBlind) (hheads : es.map Entry.head = fs.map Entry.head)
    (hes : phase.run step p es = .ok (q₁, es₁)) (hfs : phase.run step p fs = .ok (q₂, fs₁)) :
    q₂ = q₁ ∧ es₁.map Entry.head = fs₁.map Entry.head := by
  have hrun := phase.run_head h p es
  rw [hheads, phase.run_head h p fs, hes, hfs] at hrun
  obtain ⟨hq, hfs⟩ := Prod.mk.inj (Except.ok.inj hrun)
  exact ⟨hq, hfs.symm⟩

end Phase

/-! ## The ground of bodies -/

namespace Progress

/-- A state gives bodies the same to stand on as another one does. Scopes that are finished and what has come of other
bodies are no part of that. -/
structure Ground (p q : Progress) : Prop where
  catalog : ∃ finished, q.catalog = { p.catalog with finished }
  signature : ∀ name, (q.function? name).bind FunctionInfo.signature = (p.function? name).bind FunctionInfo.signature

/-- What has come of the body of a function is the same in a state as in another one. -/
structure SameAt (name : String) (p q : Progress) : Prop where
  function : q.function? name = p.function? name
  scope : q.catalog.scope? name = p.catalog.scope? name

variable {p q r : Progress} {name : String}

theorem Ground.refl (p : Progress) : p.Ground p := ⟨⟨p.catalog.finished, rfl⟩, fun _ => rfl⟩

theorem Ground.trans (h : p.Ground q) (h' : q.Ground r) : p.Ground r where
  catalog := by
    obtain ⟨finished, hq⟩ := h.catalog
    obtain ⟨finished', hr⟩ := h'.catalog
    exact ⟨finished', by rw [hr, hq]⟩
  signature name := (h'.signature name).trans (h.signature name)

theorem Ground.agrees (h : p.Ground q) : p.catalog.Agrees q.catalog := by
  obtain ⟨finished, hq⟩ := h.catalog
  rw [hq]
  exact ⟨fun _ => rfl, fun _ => rfl, rfl⟩

theorem SameAt.refl (name : String) (p : Progress) : p.SameAt name p := ⟨rfl, rfl⟩

theorem SameAt.symm (h : p.SameAt name q) : q.SameAt name p := ⟨h.function.symm, h.scope.symm⟩

theorem SameAt.trans (h : p.SameAt name q) (h' : q.SameAt name r) : p.SameAt name r :=
  ⟨h'.function.trans h.function, h'.scope.trans h.scope⟩

theorem ground_enter (p : Progress) (function : String) (e : Entered) : p.Ground (p.enter function e) where
  catalog := ⟨Catalog.finish p.catalog.finished e.scope, rfl⟩
  signature := p.signature_enter function e

/-- What comes of a body is nothing to other functions. -/
theorem sameAt_enter (p : Progress) {function name : String} {e : Entered} (hscope : e.scope.function = function)
    (hname : function ≠ name) : p.SameAt name (p.enter function e) where
  function := by
    rw [function?_enter]
    cases hf : p.function? name with
    | none => rfl
    | some f =>
      have hfound : f.name = name := by simpa using List.find?_some hf
      rw [Option.map_some, if_neg fun h => hname (h.symm.trans hfound)]
  scope := by rw [scope?_enter, hscope, if_neg hname]

/-- Where a body is entered, what has come of it is what comes of it now. -/
theorem SameAt.enter {p q : Progress} {name : String} (h : p.SameAt name q) {e : Entered} (hscope : e.scope.function = name) :
    (p.enter name e).SameAt name (q.enter name e) where
  function := by rw [function?_enter, function?_enter, h.function]
  scope := by rw [scope?_enter, scope?_enter, if_pos hscope, if_pos hscope]

end Progress

/-! ## The work on bodies -/

namespace Step

variable {b : Builtins} {p p₁ p₂ q₁ q₂ : Progress} {d d₁ d₂ : Decl} {problem₁ problem₂ : Option Problem} {name : String}

theorem ground_body (h : body b p d = .ok (p₁, d₁, problem₁)) : p.Ground p₁ := by
  cases d with
  | func f =>
    obtain ⟨-, rfl, -, -⟩ | ⟨s, f', e, -, -, rfl, -, -⟩ := body_eq_ok.mp h
    · exact .refl _
    · exact p.ground_enter f.name e
  | const _ | var _ | struct _ | foreign _ =>
    obtain ⟨rfl, -, -⟩ := done_eq_ok h
    exact .refl _

theorem sameAt_body (h : body b p d = .ok (p₁, d₁, problem₁)) (hname : d.name? ≠ some name) : p.SameAt name p₁ := by
  cases d with
  | func f =>
    obtain ⟨-, rfl, -, -⟩ | ⟨s, f', e, -, he, rfl, -, -⟩ := body_eq_ok.mp h
    · exact .refl name _
    · exact p.sameAt_enter (FuncDecl.name_of_resolveBody he).2 fun hf => hname (congrArg some hf)
  | const _ | var _ | struct _ | foreign _ =>
    obtain ⟨rfl, -, -⟩ := done_eq_ok h
    exact .refl name _

/-- On the same ground the work on a body comes to the same. -/
theorem body_isolated (name : String) (hp : p.Ground p₁) (hq : p.Ground q₁) (h₁ : body b p₁ d = .ok (p₂, d₁, problem₁))
    (h₂ : body b q₁ d = .ok (q₂, d₂, problem₂)) :
    d₂ = d₁ ∧ problem₂ = problem₁ ∧ (d.name? = some name → p₁.SameAt name q₁ → p₂.SameAt name q₂) := by
  cases d with
  | func f =>
    have hsignature := (hq.signature f.name).trans (hp.signature f.name).symm
    obtain ⟨hs, rfl, rfl, rfl⟩ | ⟨s, f₁, e₁, hs, he₁, rfl, rfl, rfl⟩ := body_eq_ok.mp h₁
    · obtain ⟨-, rfl, rfl, rfl⟩ | ⟨s, f₂, e₂, hs', -⟩ := body_eq_ok.mp h₂
      · exact ⟨rfl, rfl, fun _ => id⟩
      · rw [hsignature, hs] at hs'
        cases hs'
    · obtain ⟨hs', -⟩ | ⟨s', f₂, e₂, hs', he₂, rfl, rfl, rfl⟩ := body_eq_ok.mp h₂
      · rw [hsignature, hs] at hs'
        cases hs'
      · rw [hsignature, hs] at hs'
        obtain rfl := Option.some.inj hs'
        rw [hp.agrees.resolveBody] at he₁
        rw [hq.agrees.resolveBody, he₁] at he₂
        obtain ⟨rfl, rfl⟩ := Prod.mk.inj (Except.ok.inj he₂)
        refine ⟨rfl, rfl, fun hname hsame => ?_⟩
        obtain rfl := Option.some.inj hname
        exact hsame.enter (FuncDecl.name_of_resolveBody he₁).2
  | const _ | var _ | struct _ | foreign _ =>
    obtain ⟨rfl, rfl, rfl⟩ := done_eq_ok h₁
    obtain ⟨rfl, rfl, rfl⟩ := done_eq_ok h₂
    exact ⟨rfl, rfl, fun _ => id⟩

end Step

namespace Phase

variable {b : Builtins} {p p' q' : Progress} {es es' fs' as as' bs bs' : List Entry} {e : Entry} {name : String}

theorem ground_run (h : Phase.bodies.run (Step.body b) p es = .ok (p', es')) : p.Ground p' := by
  induction es generalizing p es' with
  | nil =>
    obtain ⟨rfl, -⟩ := Prod.mk.inj (Except.ok.inj h)
    exact .refl _
  | cons e es ih =>
    obtain ⟨d, failure⟩ := e
    cases failure with
    | some failure =>
      obtain ⟨rest, hrest, -⟩ := (run_failed_eq_ok _ rfl).mp h
      exact ih hrest
    | none =>
      obtain ⟨q, d', problem, rest, hone, hrest, -⟩ := (run_cons_eq_ok _).mp h
      exact (Step.ground_body hone).trans (ih hrest)

theorem sameAt_run (hes : ∀ e ∈ es, e.failure = none → e.decl.name? ≠ some name)
    (h : Phase.bodies.run (Step.body b) p es = .ok (p', es')) : p.SameAt name p' := by
  induction es generalizing p es' with
  | nil =>
    obtain ⟨rfl, -⟩ := Prod.mk.inj (Except.ok.inj h)
    exact .refl name _
  | cons e es ih =>
    obtain ⟨d, failure⟩ := e
    obtain ⟨he, htail⟩ := List.forall_mem_cons.mp hes
    cases failure with
    | some failure =>
      obtain ⟨rest, hrest, -⟩ := (run_failed_eq_ok _ rfl).mp h
      exact ih htail hrest
    | none =>
      obtain ⟨q, d', problem, rest, hone, hrest, -⟩ := (run_cons_eq_ok _).mp h
      exact (Step.sameAt_body hone (he rfl)).trans (ih htail hrest)

/-- The work on bodies on both sides of an entry does not show at the entry, and not in what is known of its function if
no other function has its name. -/
theorem run_bodies_isolated (name : String) (hlength : as.length = as'.length)
    (hes : Phase.bodies.run (Step.body b) p (as ++ e :: bs) = .ok (p', es'))
    (hfs : Phase.bodies.run (Step.body b) p (as' ++ e :: bs') = .ok (q', fs')) :
    es'[as.length]? = fs'[as.length]?
      ∧ (e.decl.name? = some name → (∀ x ∈ as ++ bs, x.failure = none → x.decl.name? ≠ some name) →
        (∀ x ∈ as' ++ bs', x.failure = none → x.decl.name? ≠ some name) → p'.SameAt name q') := by
  obtain ⟨p₁, xs, xs₁, hxs, hp, rfl⟩ := run_append.mp hes
  obtain ⟨q₁, ys, ys₁, hys, hq, rfl⟩ := run_append.mp hfs
  have hx : (xs ++ xs₁)[as.length]? = xs₁.head? := by
    rw [(run_entries hxs).length_eq, List.getElem?_append_right (Nat.le_refl _), Nat.sub_self, List.head?_eq_getElem?]
  have hy : (ys ++ ys₁)[as.length]? = ys₁.head? := by
    rw [hlength, (run_entries hys).length_eq, List.getElem?_append_right (Nat.le_refl _), Nat.sub_self,
      List.head?_eq_getElem?]
  rw [hx, hy]
  simp only [List.forall_mem_append]
  obtain ⟨d, failure⟩ := e
  cases failure with
  | some failure =>
    obtain ⟨rest, hrest, rfl⟩ := (run_failed_eq_ok _ rfl).mp hp
    obtain ⟨rest', hrest', rfl⟩ := (run_failed_eq_ok _ rfl).mp hq
    refine ⟨rfl, fun _ ⟨has, hbs⟩ ⟨has', hbs'⟩ => ?_⟩
    have hbefore : p₁.SameAt name q₁ := (sameAt_run has hxs).symm.trans (sameAt_run has' hys)
    exact (sameAt_run hbs hrest).symm.trans (hbefore.trans (sameAt_run hbs' hrest'))
  | none =>
    obtain ⟨p₂, d₁, problem₁, rest, hone, hrest, rfl⟩ := (run_cons_eq_ok _).mp hp
    obtain ⟨q₂, d₂, problem₂, rest', hone', hrest', rfl⟩ := (run_cons_eq_ok _).mp hq
    obtain ⟨rfl, rfl, hsame⟩ := Step.body_isolated name (ground_run hxs) (ground_run hys) hone hone'
    refine ⟨rfl, fun hname ⟨has, hbs⟩ ⟨has', hbs'⟩ => ?_⟩
    have hbefore : p₁.SameAt name q₁ := (sameAt_run has hxs).symm.trans (sameAt_run has' hys)
    exact (sameAt_run hbs hrest).symm.trans ((hsame hname hbefore).trans (sameAt_run hbs' hrest'))

end Phase

/-! ## Units -/

namespace Resolution

/-- The problems found before any body is entered, phase by phase. -/
def collectionProblems (r : Resolution) : List Problem :=
  (Phase.all.filter (· ≠ .bodies)).flatMap fun phase => r.entries.filterMap (Entry.problemIn? phase)

/-- A unit has come to the same as another one in its collection and at one declaration, which declares `name`. What is
known under the name is what is known of the declaration only if it has got the name. -/
structure AlikeAt (i : Nat) (name : String) (r r' : Resolution) : Prop where
  collection : r'.collectionProblems = r.collectionProblems
  entry : r'.entries[i]? = r.entries[i]?
  function : ∀ e, r.entries[i]? = some e → e.IsRegistered →
    (r'.functions.find? fun f => f.name = name) = r.functions.find? fun f => f.name = name
  scope : ∀ e, r.entries[i]? = some e → e.IsRegistered → r'.catalog.scope? name = r.catalog.scope? name

end Resolution

/-- The failures of entries in other phases than that of bodies are those of the entries that the bodies are entered with. -/
theorem Phase.problemIn?_run_bodies {b : Builtins} {p p' : Progress} {es es' : List Entry} {phase : Phase} (h : phase ≠ .bodies)
    (hrun : Phase.bodies.run (Step.body b) p es = .ok (p', es')) :
    es'.filterMap (Entry.problemIn? phase) = (es.map Entry.head).filterMap (Entry.problemIn? phase) := by
  have htakes := run_entries hrun
  clear hrun
  rw [List.filterMap_map]
  induction htakes with
  | nil => rfl
  | @cons e e' es es' he _ ih =>
    have hsame : e'.problemIn? phase = e.problemIn? phase := by
      obtain ⟨-, rfl⟩ | ⟨hnone, q, q', problem, -, hfailure⟩ := he
      · rfl
      · rw [Entry.problemIn?, Entry.problemIn?, hnone, hfailure]
        cases problem with
        | none => rfl
        | some problem => simp [Option.filter, h.symm]
    rw [List.filterMap_cons, List.filterMap_cons, ih, hsame]
    rfl

namespace Program

variable {b : Builtins} {p q : Program} {r r' : Resolution}

/-- The phases of the collection come to the same for units that are the same but for bodies. -/
theorem Runs.collection_eq {p₁ p₂ p₃ p₄ p₅ p₆ q₁ q₂ q₃ q₄ q₅ q₆ : Progress}
    {es₁ es₂ es₃ es₄ es₅ es₆ fs₁ fs₂ fs₃ fs₄ fs₅ fs₆ : List Entry}
    (hp : p.Runs b p₁ p₂ p₃ p₄ p₅ p₆ es₁ es₂ es₃ es₄ es₅ es₆) (hq : q.Runs b q₁ q₂ q₃ q₄ q₅ q₆ fs₁ fs₂ fs₃ fs₄ fs₅ fs₆)
    (hheads : p.decls.map Decl.head = q.decls.map Decl.head) : q₅ = p₅ ∧ es₅.map Entry.head = fs₅.map Entry.head := by
  have h₀ : (p.decls.map fun decl => ({ decl } : Entry)).map Entry.head
      = (q.decls.map fun decl => ({ decl } : Entry)).map Entry.head := by
    have hmap (ds : List Decl) : (ds.map fun decl => ({ decl } : Entry)).map Entry.head
        = (ds.map Decl.head).map fun decl => { decl } := by
      rw [List.map_map, List.map_map]
      rfl
    rw [hmap, hmap, hheads]
  obtain ⟨rfl, h₁⟩ := Phase.run_eq_of_head Step.isBlind_register h₀ hp.registration hq.registration
  obtain ⟨rfl, h₂⟩ := Phase.run_eq_of_head Step.isBlind_constant h₁ hp.constants hq.constants
  obtain ⟨rfl, h₃⟩ := Phase.run_eq_of_head Step.isBlind_fields h₂ hp.fields hq.fields
  obtain ⟨rfl, h₄⟩ := Phase.run_eq_of_head Step.isBlind_containment h₃ hp.containment hq.containment
  exact Phase.run_eq_of_head Step.isBlind_header h₄ hp.headers hq.headers

/-- The collection registers no two entries under one name. -/
theorem Runs.pairwise {p₁ p₂ p₃ p₄ p₅ p₆ : Progress} {es₁ es₂ es₃ es₄ es₅ es₆ : List Entry}
    (h : p.Runs b p₁ p₂ p₃ p₄ p₅ p₆ es₁ es₂ es₃ es₄ es₅ es₆) : es₅.Pairwise Entry.IsApart := by
  have hfresh : ∀ e ∈ p.decls.map fun decl => ({ decl } : Entry), e.failure = none :=
    List.forall_mem_map.mpr fun _ _ => rfl
  have h₁ := (Phase.pairwise_run_register hfresh h.registration).1
  have h₂ := Phase.pairwise_run h.constants Step.keepsName_constant.name nofun h₁
  have h₃ := Phase.pairwise_run h.fields Step.keepsDecl_fields.keepsName.name nofun h₂
  have h₄ := Phase.pairwise_run h.containment Step.keepsDecl_containment.keepsName.name nofun h₃
  exact Phase.pairwise_run h.headers Step.keepsDecl_header.keepsName.name nofun h₄

/-- The collection leaves every function as it is. -/
theorem Runs.func {p₁ p₂ p₃ p₄ p₅ p₆ : Progress} {es₁ es₂ es₃ es₄ es₅ es₆ : List Entry}
    (h : p.Runs b p₁ p₂ p₃ p₄ p₅ p₆ es₁ es₂ es₃ es₄ es₅ es₆) {i : Nat} {d : FuncDecl} (hd : p.decls[i]? = some (.func d)) :
    ∃ failure, es₅[i]? = some ⟨.func d, failure⟩ := by
  have h₀ : ∃ failure, (p.decls.map fun decl => ({ decl } : Entry))[i]? = some ⟨.func d, failure⟩ :=
    ⟨none, by rw [List.getElem?_map, hd]; rfl⟩
  have h₁ := Phase.func_run h.registration Step.keepsDecl_register.keepsName h₀
  have h₂ := Phase.func_run h.constants Step.keepsName_constant h₁
  have h₃ := Phase.func_run h.fields Step.keepsDecl_fields.keepsName h₂
  have h₄ := Phase.func_run h.containment Step.keepsDecl_containment.keepsName h₃
  exact Phase.func_run h.headers Step.keepsDecl_header.keepsName h₄

/-- A function comes to the same in units that are the same but for the bodies of other functions. -/
theorem alikeAt_of_heads (hp : p.resolve b = .ok r) (hq : q.resolve b = .ok r')
    (hheads : p.decls.map Decl.head = q.decls.map Decl.head) {i : Nat} {d : FuncDecl} (hpi : p.decls[i]? = some (.func d))
    (hqi : q.decls[i]? = some (.func d)) : r.AlikeAt i d.name r' := by
  obtain ⟨p₁, p₂, p₃, p₄, p₅, p₆, es₁, es₂, es₃, es₄, es₅, es₆, hruns, rfl⟩ := exists_runs hp
  obtain ⟨q₁, q₂, q₃, q₄, q₅, q₆, fs₁, fs₂, fs₃, fs₄, fs₅, fs₆, hruns', rfl⟩ := exists_runs hq
  obtain ⟨rfl, hentries⟩ := hruns.collection_eq hruns' hheads
  obtain ⟨failure, he⟩ := hruns.func hpi
  obtain ⟨failure', hf⟩ := hruns'.func hqi
  -- The entry is the same on both sides, for its failure is seen without bodies.
  have hsame : failure' = failure := by
    have hhead := congrArg (·[i]?) hentries
    simp only [List.getElem?_map, he, hf, Option.map_some, Option.some.injEq] at hhead
    exact (Entry.mk.inj hhead).2.symm
  subst hsame
  obtain ⟨as, bs, rfl, rfl⟩ := Entry.exists_append he
  obtain ⟨as', bs', rfl, hlength⟩ := Entry.exists_append hf
  obtain ⟨hentry, hname⟩ := Phase.run_bodies_isolated d.name hlength.symm hruns.bodies hruns'.bodies
  have hknown : ∀ e, es₆[as.length]? = some e → e.IsRegistered → p₆.SameAt d.name q₆ := by
    intro e he₆ hr
    have hr : Entry.IsRegistered ⟨.func d, failure'⟩ := (Phase.registered_run hruns.bodies nofun he he₆).mp hr
    exact hname rfl (Entry.name?_ne_of_pairwise hruns.pairwise hr) (Entry.name?_ne_of_pairwise hruns'.pairwise hr)
  refine ⟨?_, hentry.symm, fun e he₆ hr => (hknown e he₆ hr).function, fun e he₆ hr => (hknown e he₆ hr).scope⟩
  refine congrArg List.flatten (List.map_congr_left fun phase hphase => ?_)
  have hphase : phase ≠ .bodies := by simpa using (List.mem_filter.mp hphase).2
  rw [Phase.problemIn?_run_bodies hphase hruns.bodies, Phase.problemIn?_run_bodies hphase hruns'.bodies, hentries]

end Program

/-- A well-formed unit is resolved; and in two units that are the same but for the bodies of functions other than one, the
collection finds the same problems, and that function comes to the same: it fails in the same phase with the same problem or
not at all, and its signature, its scope, its statements by number and its tree with the notes are the same. Places may count
or not: whatever is looked at of places in the trees is what is the same of places in the results. -/
theorem Program.resolve_isolated (place : Span → Span) (nowhere : place {} = {}) (b : Builtins) {p q : Program} {i : Nat}
    {d : FuncDecl} (hp : (p.relabel (.placing place nowhere)).decls[i]? = some (.func d))
    (hq : (q.relabel (.placing place nowhere)).decls[i]? = some (.func d))
    (hheads : (p.relabel (.placing place nowhere)).decls.map Decl.head = (q.relabel (.placing place nowhere)).decls.map Decl.head) :
    (p.IsWellFormed → ∃ r, p.resolve b = .ok r)
      ∧ ∀ r r', p.resolve b = .ok r → q.resolve b = .ok r' →
        (r.relabel (.placing place nowhere)).AlikeAt i d.name (r'.relabel (.placing place nowhere)) := by
  refine ⟨fun h => ?_, fun r r' hr hr' => ?_⟩
  · obtain ⟨r, -, hr, -⟩ := exists_resolve h b
    exact ⟨r, hr⟩
  · have hrelabel := p.resolve_relabel (b.lookup_placing place nowhere)
    have hrelabel' := q.resolve_relabel (b.lookup_placing place nowhere)
    rw [hr, Except.toOption, Option.map_some, Except.toOption_eq_some_iff] at hrelabel
    rw [hr', Except.toOption, Option.map_some, Except.toOption_eq_some_iff] at hrelabel'
    exact alikeAt_of_heads hrelabel hrelabel' hheads hp hq

/-- A function that calls another one, whose body is given. -/
def callAndBody (body : List Stmt) : Program where
  decls := [
    .func {
      name := "f"
      result := .named "int" {}
      params := []
      body := [.assign (.ident "result" none {}) (.call (.ident "g" none {}) [] {}) {}] },
    .func { name := "g", result := .named "int" {}, params := [], body }]

/-- A function calls another one, which is in order in one unit and goes to a label that is missing in the other. -/
theorem Program.resolve_isolated_caller :
    ∃ r r', (callAndBody []).resolve = .ok r ∧ r.problems = []
      ∧ (callAndBody [.goto "again" none {}]).resolve = .ok r' ∧ r'.problems.map (fun q => q.cause.kind) = [.undefinedLabel]
      ∧ (r.relabel .unplacing).AlikeAt 0 "f" (r'.relabel .unplacing) := by
  have hnone : ((callAndBody []).resolve.toOption.map fun r => r.problems.map fun q => q.cause.kind) = some [] := by
    decide +kernel
  have hsome : ((callAndBody [.goto "again" none {}]).resolve.toOption.map fun r => r.problems.map fun q => q.cause.kind)
      = some [.undefinedLabel] := by
    decide +kernel
  obtain ⟨r, hr, hproblems⟩ := Option.map_eq_some_iff.mp hnone
  obtain ⟨r', hr', hproblems'⟩ := Option.map_eq_some_iff.mp hsome
  have hr := Except.toOption_eq_some_iff.mp hr
  have hr' := Except.toOption_eq_some_iff.mp hr'
  obtain ⟨-, halike⟩ := resolve_isolated (fun _ => {}) rfl Builtins.standard (p := callAndBody []) (i := 0) rfl
    (q := callAndBody [.goto "again" none {}]) rfl rfl
  exact ⟨r, r', hr, List.map_eq_nil_iff.mp hproblems, hr', hproblems', halike r r' hr hr'⟩

end FlatScope
