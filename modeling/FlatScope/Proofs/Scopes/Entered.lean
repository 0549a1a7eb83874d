/-
  Where bodies come from. What has come of a function in a resolved unit is what comes of the body of one declaration of the
  parsed unit, worked on with the signature that its header reads as, among the global symbols and the structs of the resolved
  unit (`Program.exists_body`).
-/
import FlatScope.Proofs.Accounting.Headers
import FlatScope.Proofs.Accounting.Unit
import FlatScope.Proofs.Isolation
import FlatScope.Proofs.Rebracing.Run
import FlatScope.Proofs.Rewriting.Unit

namespace FlatScope

/-- What comes of the declaration `d` of a function, among the global symbols and the structs of `c`. -/
structure Resolution.Enters (b : Builtins) (p : Program) (r : Resolution) (f : FunctionInfo) (e : Entered) (d d' : FuncDecl)
    (s : Signature) : Prop where
  name : d.name = f.name
  /-- The declaration stands in the parsed unit where what has become of it stands in the resolved one. -/
  decl : ∃ i : Nat, p.decls[i]? = some (.func d) ∧ r.entries[i]? = some (Entry.mk (.func d') (e.problem.map (.bodies, ·)))
  wellFormed : d.IsWellFormed
  signature : f.signature = some s
  header : d.signature r.catalog = .ok s
  arity : s.params.length = d.params.length
  body : d.resolveBody b r.catalog s = .ok (d', e)

namespace Phase

variable {b : Builtins} {p p' : Progress} {es es' : List Entry} {f : FunctionInfo} {e : Entered}

/-- What has come of a function behind the phase of the bodies has come of it before, or of one of the declarations. -/
theorem exists_entered (hrun : Phase.bodies.run (Step.body b) p es = .ok (p', es')) {name : String}
    (hf : p'.function? name = some f) (he : f.entered = some e) : (∃ f₀, p.function? name = some f₀ ∧ f₀.entered = some e)
      ∨ ∃ (i : Nat) (d d' : FuncDecl) (s : Signature), es[i]? = some (Entry.mk (.func d) none)
        ∧ es'[i]? = some (Entry.mk (.func d') (e.problem.map (.bodies, ·)))
        ∧ d.name = name ∧ f.signature = some s ∧ d.resolveBody b p.catalog s = .ok (d', e) := by
  induction es generalizing p es' with
  | nil =>
    obtain ⟨rfl, -⟩ := Prod.mk.inj (Except.ok.inj hrun)
    exact .inl ⟨f, hf, he⟩
  | cons x es ih =>
    obtain ⟨d, failure⟩ := x
    cases failure with
    | some failure =>
      obtain ⟨rest, hrest, rfl⟩ := (run_failed_eq_ok _ rfl).mp hrun
      refine (ih hrest).imp_right ?_
      rintro ⟨i, d, d', s, hd, hd', hbody⟩
      exact ⟨i + 1, d, d', s, hd, hd', hbody⟩
    | none =>
      obtain ⟨q, d₁, problem, rest, hone, hrest, rfl⟩ := (run_cons_eq_ok _).mp hrun
      obtain ⟨f₀, hf₀, he₀⟩ | ⟨i, d₂, d₂', s, hd, hd', hname, hs, hbody⟩ := ih hrest
      · cases d with
        | func d =>
          obtain ⟨-, rfl, -, -⟩ | ⟨s, d', e₁, hs, hbody, rfl, rfl, rfl⟩ := Step.body_eq_ok.mp hone
          · exact .inl ⟨f₀, hf₀, he₀⟩
          · by_cases hname : d.name = name
            · obtain rfl := hname
              have hsignature := (ground_run hrest).signature d.name
              rw [p.signature_enter, hs, hf, Option.bind_some] at hsignature
              rw [Progress.function?_enter, Option.map_eq_some_iff] at hf₀
              obtain ⟨f₁, hf₁, rfl⟩ := hf₀
              have hfound : f₁.name = d.name := by simpa using List.find?_some hf₁
              rw [if_pos hfound] at he₀
              obtain rfl := Option.some.inj he₀
              exact .inr ⟨0, d, d', s, rfl, rfl, rfl, hsignature, hbody⟩
            · rw [(p.sameAt_enter (FuncDecl.name_of_resolveBody hbody).2 hname).function] at hf₀
              exact .inl ⟨f₀, hf₀, he₀⟩
        | const _ | var _ | struct _ | foreign _ =>
          obtain ⟨rfl, -⟩ := Step.done_eq_ok hone
          exact .inl ⟨f₀, hf₀, he₀⟩
      · rw [(Step.ground_body hone).agrees.resolveBody] at hbody
        exact .inr ⟨i + 1, d₂, d₂', s, hd, hd', hname, hs, hbody⟩

end Phase

namespace Program

variable {b : Builtins} {p : Program} {r : Resolution}

/-- A function in front of the bodies is as it was parsed. -/
theorem Runs.func_of_entry {p₁ p₂ p₃ p₄ p₅ p₆ : Progress} {es₁ es₂ es₃ es₄ es₅ es₆ : List Entry}
    (h : p.Runs b p₁ p₂ p₃ p₄ p₅ p₆ es₁ es₂ es₃ es₄ es₅ es₆) {i : Nat} {d : FuncDecl} {failure : Option (Phase × Problem)}
    (hd : es₅[i]? = some ⟨.func d, failure⟩) : p.decls[i]? = some (.func d) := by
  have hdecl : (es₅.map Entry.decl)[i]? = some (.func d) := by
    rw [List.getElem?_map, hd, Option.map_some]
  have hconstants := h.constants_make
  rw [h.decls_headers] at hdecl
  obtain ⟨hi, hdecl⟩ := List.getElem?_eq_some_iff.mp hdecl
  have hi' : i < p.decls.length := hconstants.length_eq ▸ hi
  obtain hsame | ⟨k, value, -, hk, -⟩ := hconstants.get hi' hi
  · rw [List.getElem?_eq_getElem hi']
    exact congrArg some (hsame.symm.trans hdecl)
  · exact nomatch hdecl.symm.trans hk

/-- What has come of a function of a well-formed unit has come of the body of one declaration. -/
theorem exists_body (hp : p.IsWellFormed) (hr : p.resolve b = .ok r) {f : FunctionInfo} (hf : f ∈ r.functions) {e : Entered}
    (he : f.entered = some e) : (∃ d d' s, r.Enters b p f e d d' s) ∧ r.catalog.scope? f.name = some e.scope := by
  obtain ⟨p₁, p₂, p₃, p₄, p₅, p₆, es₁, es₂, es₃, es₄, es₅, es₆, hruns, rfl⟩ := exists_runs hr
  have hnames := hruns.accounts.names
  have hfunction : p₆.function? f.name = some f :=
    (find?_key_eq_some_iff (hnames.functions.nodup hnames.nodup)).mpr ⟨hf, rfl⟩
  have hground := Phase.ground_run hruns.bodies
  refine ⟨?_, ?_⟩
  · obtain ⟨f₀, hf₀, he₀⟩ | ⟨i, d, d', s, hd, hd', hname, hs, hbody⟩ :=
      Phase.exists_entered hruns.bodies hfunction he
    · exact nomatch (hruns.isFresh.waiting f₀ (List.mem_of_find?_eq_some hf₀)).symm.trans he₀
    · obtain ⟨ds, hheading⟩ := hruns.heading hp
      have hknown := hheading.known ⟨.func d, none⟩ (List.mem_append_left _ (List.mem_of_getElem? hd)) rfl
      obtain ⟨f₀, hf₀, harity⟩ := hheading.heads d (hknown.2 d rfl)
      have hsignature := hground.signature d.name
      rw [hf₀, hname, hfunction, Option.bind_some, Option.bind_some, hs] at hsignature
      refine ⟨d, d', s, hname, ⟨i, hruns.func_of_entry hd, hd'⟩, hknown.1, hs, ?_, (harity s hsignature.symm).1, ?_⟩
      · obtain ⟨_, _, _, hx, -, -, hown⟩ := hruns.header hd rfl
        obtain ⟨s', hs', hx⟩ := Except.map_eq_ok.mp hx
        cases hx
        obtain rfl := Option.some.inj (hsignature.trans (hown f₀ s' hf₀ rfl))
        exact (hground.agrees.onTypes.signature d).trans hs'
      · exact (hground.agrees.resolveBody b s d).trans hbody
  · obtain ⟨as, d, failure, bs, -, -, -, s, hstage⟩ := hruns.exists_func hf
    generalize p₆.catalog.scope? f.name = scope at hstage
    cases hstage with
    | waiting _ _ _ hnone | failed _ _ _ _ hnone | headed _ _ _ _ _ hnone => exact nomatch hnone.symm.trans he
    | entered _ _ _ e' _ _ he' =>
      obtain rfl := Option.some.inj (he'.symm.trans he)
      rfl

end Program

end FlatScope
