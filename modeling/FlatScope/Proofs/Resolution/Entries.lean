/-
  What a phase does to entries, one by one (`Phase.run_entries`). No phase changes the name of a declaration or makes up
  for a failure, and the registration leaves no two entries of one name that both have got it
  (`Phase.pairwise_run_register`).
-/
import FlatScope.Proofs.Resolution.Steps
import FlatScope.Proofs.Resolution.Runs
import Mathlib.Data.List.Forall2

namespace FlatScope

/-- What becomes of an entry in a phase is what the step of the phase makes of it at some point, if it has not failed.
-/
def Phase.Takes (phase : Phase) (step : Step) (e e' : Entry) : Prop :=
  e.failure.isSome = true ∧ e' = e
    ∨ e.failure = none ∧ ∃ p p' problem, step p e.decl = .ok (p', e'.decl, problem)
      ∧ e'.failure = problem.map (phase, ·)

namespace Phase

variable {phase : Phase} {step : Step} {p p' : Progress} {e e' : Entry} {es es' as as' : List Entry}

theorem run_entries (h : phase.run step p es = .ok (p', es')) : List.Forall₂ (phase.Takes step) es es' := by
  induction es generalizing p es' with
  | nil =>
    obtain ⟨rfl, rfl⟩ := Prod.mk.inj (Except.ok.inj h)
    exact .nil
  | cons e es ih =>
    obtain ⟨d, failure⟩ := e
    cases failure with
    | some failure =>
      obtain ⟨rest, hrest, rfl⟩ := (run_failed_eq_ok phase rfl).mp h
      exact .cons (.inl ⟨rfl, rfl⟩) (ih hrest)
    | none =>
      obtain ⟨q, d', problem, rest, hone, hrest, rfl⟩ := (run_cons_eq_ok phase).mp h
      exact .cons (.inr ⟨rfl, p, q, problem, hone, rfl⟩) (ih hrest)

/-- A phase goes through entries by going through those in front and then through the others. -/
theorem run_append : phase.run step p (as ++ es) = .ok (p', es')
    ↔ ∃ q xs ys, phase.run step p as = .ok (q, xs) ∧ phase.run step q es = .ok (p', ys) ∧ es' = xs ++ ys := by
  induction as generalizing p es' with
  | nil =>
    constructor
    · exact fun h => ⟨p, [], es', rfl, h, rfl⟩
    · rintro ⟨q, xs, ys, h, hys, rfl⟩
      obtain ⟨rfl, rfl⟩ := Prod.mk.inj (Except.ok.inj h)
      exact hys
  | cons a as ih =>
    obtain ⟨d, failure⟩ := a
    rw [List.cons_append]
    cases failure with
    | some failure =>
      constructor
      · intro h
        obtain ⟨rest, hrest, rfl⟩ := (run_failed_eq_ok phase rfl).mp h
        obtain ⟨q, xs, ys, hxs, hys, rfl⟩ := ih.mp hrest
        exact ⟨q, _, ys, (run_failed_eq_ok phase rfl).mpr ⟨xs, hxs, rfl⟩, hys, rfl⟩
      · rintro ⟨q, xs, ys, hxs, hys, rfl⟩
        obtain ⟨rest, hrest, rfl⟩ := (run_failed_eq_ok phase rfl).mp hxs
        exact (run_failed_eq_ok phase rfl).mpr ⟨rest ++ ys, ih.mpr ⟨q, rest, ys, hrest, hys, rfl⟩, rfl⟩
    | none =>
      constructor
      · intro h
        obtain ⟨q₁, d', problem, rest, hone, hrest, rfl⟩ := (run_cons_eq_ok phase).mp h
        obtain ⟨q, xs, ys, hxs, hys, rfl⟩ := ih.mp hrest
        exact ⟨q, _, ys, (run_cons_eq_ok phase).mpr ⟨q₁, d', problem, xs, hone, hxs, rfl⟩, hys, rfl⟩
      · rintro ⟨q, xs, ys, hxs, hys, rfl⟩
        obtain ⟨q₁, d', problem, rest, hone, hrest, rfl⟩ := (run_cons_eq_ok phase).mp hxs
        exact (run_cons_eq_ok phase).mpr ⟨q₁, d', problem, rest ++ ys, hone, ih.mpr ⟨q, rest, ys, hrest, hys, rfl⟩, rfl⟩

end Phase

namespace Entry

/-- The declaration of an entry has got its name. -/
def IsRegistered (e : Entry) : Prop := ∀ problem, e.failure ≠ some (.registration, problem)

/-- Two entries are not both registered under one name. -/
def IsApart (e e' : Entry) : Prop := e.IsRegistered → e'.IsRegistered → e.decl.name? ≠ e'.decl.name?

theorem IsApart.symm {e e' : Entry} (h : e.IsApart e') : e'.IsApart e := fun hr' hr => (h hr hr').symm

theorem IsRegistered.of_eq_none {e : Entry} (h : e.failure = none) : e.IsRegistered := by
  intro problem hp
  rw [h] at hp
  cases hp

theorem exists_append {es : List Entry} {i : Nat} {e : Entry} (h : es[i]? = some e) :
    ∃ as bs, es = as ++ e :: bs ∧ as.length = i := by
  obtain ⟨hi, rfl⟩ := List.getElem?_eq_some_iff.mp h
  refine ⟨es.take i, es.drop (i + 1), ?_, List.length_take_of_le hi.le⟩
  rw [List.getElem_cons_drop, List.take_append_drop]

/-- No other entry has the name of one that is registered, if no two are registered under one name. -/
theorem name?_ne_of_pairwise {as bs : List Entry} {e : Entry} (h : (as ++ e :: bs).Pairwise Entry.IsApart)
    (he : e.IsRegistered) : ∀ x ∈ as ++ bs, x.failure = none → x.decl.name? ≠ e.decl.name? := by
  obtain ⟨-, hbs, has⟩ := List.pairwise_append.mp h
  refine List.forall_mem_append.mpr ⟨fun x hx hn => ?_, fun x hx hn => ?_⟩
  · exact has x hx e List.mem_cons_self (.of_eq_none hn) he
  · exact (List.rel_of_pairwise_cons hbs hx).symm (.of_eq_none hn) he

end Entry

namespace Phase

variable {phase : Phase} {step : Step} {p p' : Progress} {es es' : List Entry}

theorem Takes.registered {e e' : Entry} (h : phase.Takes step e e') (hphase : phase ≠ .registration) :
    e'.IsRegistered ↔ e.IsRegistered := by
  obtain ⟨-, rfl⟩ | ⟨hnone, q, q', problem, -, hfailure⟩ := h
  · rfl
  · refine iff_of_true ?_ (.of_eq_none hnone)
    intro problem' hp
    rw [hfailure, Option.map_eq_some_iff] at hp
    obtain ⟨_, -, hp⟩ := hp
    exact hphase (Prod.mk.inj hp).1

theorem Takes.name? {e e' : Entry} (h : phase.Takes step e e')
    (hname : ∀ p d p' d' problem, step p d = .ok (p', d', problem) → d'.name? = d.name?) : e'.decl.name? = e.decl.name? := by
  obtain ⟨-, rfl⟩ | ⟨-, q, q', problem, hone, -⟩ := h
  · rfl
  · exact hname q _ q' _ problem hone

/-- A phase behind the registration registers nothing. -/
theorem registered_run (hrun : phase.run step p es = .ok (p', es')) (hphase : phase ≠ .registration) {i : Nat} {e e' : Entry}
    (he : es[i]? = some e) (he' : es'[i]? = some e') : e'.IsRegistered ↔ e.IsRegistered := by
  obtain ⟨hi, rfl⟩ := List.getElem?_eq_some_iff.mp he
  obtain ⟨hi', rfl⟩ := List.getElem?_eq_some_iff.mp he'
  exact Takes.registered ((run_entries hrun).get hi hi') hphase

/-- An entry with a function has the same function behind the phase. -/
theorem func_run (hrun : phase.run step p es = .ok (p', es')) (hstep : step.KeepsName) {i : Nat} {d : FuncDecl}
    (h : ∃ failure, es[i]? = some ⟨.func d, failure⟩) : ∃ failure, es'[i]? = some ⟨.func d, failure⟩ := by
  obtain ⟨failure, h⟩ := h
  obtain ⟨hi, he⟩ := List.getElem?_eq_some_iff.mp h
  have htakes := run_entries hrun
  have hi' : i < es'.length := htakes.length_eq ▸ hi
  have htake : phase.Takes step es[i] es'[i] := htakes.get hi hi'
  rw [he] at htake
  rw [List.getElem?_eq_getElem hi']
  obtain ⟨-, h⟩ | ⟨-, q, q', problem, hone, -⟩ := htake
  · exact ⟨failure, congrArg some h⟩
  · exact ⟨es'[i].failure, congrArg (fun d => some (Entry.mk d es'[i].failure)) (hstep.func q d q' _ problem hone)⟩

/-- Entries that are registered under different names stay so. -/
theorem pairwise_run (hrun : phase.run step p es = .ok (p', es'))
    (hname : ∀ p d p' d' problem, step p d = .ok (p', d', problem) → d'.name? = d.name?) (hphase : phase ≠ .registration)
    (hes : es.Pairwise Entry.IsApart) : es'.Pairwise Entry.IsApart := by
  have htakes := run_entries hrun
  have hlength := htakes.length_eq
  rw [List.pairwise_iff_getElem] at hes ⊢
  intro i j hi hj hij hr hr'
  have hfi : phase.Takes step es[i] es'[i] := htakes.get (hlength ▸ hi) hi
  have hfj : phase.Takes step es[j] es'[j] := htakes.get (hlength ▸ hj) hj
  rw [hfi.name? hname, hfj.name? hname]
  exact hes i j (hlength ▸ hi) (hlength ▸ hj) hij ((hfi.registered hphase).mp hr) ((hfj.registered hphase).mp hr')

/-- No two entries are registered under one name, and none under a name that was taken before. -/
theorem pairwise_run_register (hes : ∀ e ∈ es, e.failure = none)
    (hrun : Phase.registration.run Step.register p es = .ok (p', es')) :
    es'.Pairwise Entry.IsApart
      ∧ ∀ e ∈ es', e.IsRegistered → ∀ name, e.decl.name? = some name → p.catalog.lookupGlobal name = none := by
  induction es generalizing p es' with
  | nil =>
    obtain ⟨rfl, rfl⟩ := Prod.mk.inj (Except.ok.inj hrun)
    exact ⟨.nil, List.forall_mem_nil _⟩
  | cons e es ih =>
    obtain ⟨d, failure⟩ := e
    obtain ⟨rfl, hfresh⟩ := List.forall_mem_cons.mp hes
    obtain ⟨q, d', problem, rest, hone, hrest, rfl⟩ := (run_cons_eq_ok _).mp hrun
    obtain ⟨hpairs, hfree⟩ := ih hfresh hrest
    rw [List.pairwise_cons, List.forall_mem_cons]
    obtain ⟨s, hs, rfl, ⟨previous, -, rfl, rfl⟩ | ⟨hnone, rfl, rfl⟩⟩ := Step.register_eq_ok.mp hone
    · have hfailed : ¬Entry.IsRegistered ⟨d', some (.registration, ⟨.duplicate ⟨s.name, previous, none⟩, s.span⟩)⟩ :=
        fun h => h _ rfl
      exact ⟨⟨fun _ _ hr => (hfailed hr).elim, hpairs⟩, fun hr => (hfailed hr).elim, hfree⟩
    · have hname := Step.name?_of_symbol hs
      have hbehind : ∀ e ∈ rest, e.IsRegistered → ∀ name, e.decl.name? = some name →
          s.name ≠ name ∧ p.catalog.lookupGlobal name = none := by
        intro e he hr name hn
        have hfree := hfree e he hr name hn
        rw [Progress.lookupGlobal_declare, Option.or_eq_none_iff] at hfree
        exact ⟨fun h => by simp [h] at hfree, hfree.1⟩
      refine ⟨⟨fun e he _ hr hn => ?_, hpairs⟩, fun _ name hn => ?_, fun e he hr name hn => (hbehind e he hr name hn).2⟩
      · exact (hbehind e he hr s.name (hn.symm.trans hname)).1 rfl
      · obtain rfl := Option.some.inj (hname.symm.trans hn)
        exact hnone

end Phase

end FlatScope
