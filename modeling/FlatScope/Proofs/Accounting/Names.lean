/-
  Who has got which name. The registration leaves distinct names, each with the entry that has got it, and an entry gets
  its name exactly if none in front of it has the same (`Progress.Names`). The later phases keep the names, so that behind
  all of them every entry that has got its name is at its last stage (`Program.Runs.accounts`).
-/
import FlatScope.Proofs.Accounting.Stages

namespace FlatScope

theorem Catalog.lookupGlobal_eq_none_iff {c : Catalog} {name : String} :
    c.lookupGlobal name = none ↔ name ∉ c.globals.map Symbol.name := by
  rw [lookupGlobal, Symbol.find?, List.find?_eq_none, List.mem_map]
  simp only [decide_eq_true_eq, not_exists, not_and]

/-! ## Registration -/

namespace Phase

variable {phase : Phase} {step : Step} {p p' : Progress} {es es' as' bs' : List Entry} {e' : Entry}

/-- The names of entries are the same behind a phase. -/
theorem map_name_run (hname : ∀ p d p' d' problem, step p d = .ok (p', d', problem) → d'.name? = d.name?)
    (hrun : phase.run step p es = .ok (p', es')) : es'.map (fun e => e.decl.name?) = es.map fun e => e.decl.name? := by
  have htakes := run_entries hrun
  clear hrun
  induction htakes with
  | nil => rfl
  | cons he _ ih => rw [List.map_cons, List.map_cons, he.name? hname, ih]

/-- The entries in front of one behind a phase were in front of it. -/
theorem exists_of_run_append (hrun : phase.run step p es = .ok (p', as' ++ e' :: bs')) :
    ∃ as e bs, es = as ++ e :: bs ∧ as.length = as'.length ∧ phase.Takes step e e' := by
  have htakes := run_entries hrun
  have hfront := List.forall₂_take_append es as' (e' :: bs') htakes
  have hback := List.forall₂_drop_append es as' (e' :: bs') htakes
  generalize hdrop : es.drop as'.length = back at hback
  cases hback with
  | @cons e _ bs _ he _ =>
    refine ⟨es.take as'.length, e, bs, ?_, hfront.length_eq, he⟩
    rw [← hdrop, List.take_append_drop]

end Phase

namespace Progress

variable {p : Progress} {d : Decl} {s : Symbol}

theorem record_declare_of_ne (hd : d.name? = some s.name) {x : String} (hx : s.name ≠ x) :
    (p.declare s d).record x = p.record x := by
  rw [record, lookupGlobal_declare, struct?_declare, function?_declare, if_neg hx, d.find?_ownStructs hd hx,
    d.find?_ownFunctions hd hx, Option.or_none, Option.or_none, Option.or_none]
  rfl

/-- A declaration whose name was free is at its first stage when it has got the name. -/
theorem isAt_declare (hs : Step.symbol d = .ok s) (hfree : p.record s.name = {}) :
    Entry.IsAt [.registration] ((p.declare s d).record s.name) ⟨d, none⟩ := by
  have hglobal : p.catalog.lookupGlobal s.name = none := congrArg Record.global hfree
  have hstruct : p.catalog.struct? s.name = none := congrArg Record.struct hfree
  have hfunction : p.function? s.name = none := congrArg Record.function hfree
  have hscope : (p.declare s d).catalog.scope? s.name = none := congrArg Record.scope hfree
  rw [record, lookupGlobal_declare, struct?_declare, function?_declare, if_pos rfl, hglobal, hstruct, hfunction, hscope,
    Option.none_or, Option.none_or, Option.none_or]
  cases d with
  | const d | var d =>
    obtain rfl := Except.ok.inj hs
    exact ⟨_, rfl, rfl, .waiting (by decide)⟩
  | struct d =>
    obtain rfl := Except.ok.inj hs
    have hown : (Decl.ownStructs (.struct d)).find? (fun i => i.name = d.name) = some { name := d.name, span := d.span } :=
      List.find?_cons_of_pos (decide_eq_true rfl)
    exact ⟨_, _, by rw [hown]; rfl, rfl, rfl, .waiting (show .fields ∉ [Phase.registration] by decide)⟩
  | func d =>
    obtain rfl := Except.ok.inj hs
    have hown : (Decl.ownFunctions (.func d)).find? (fun i => i.name = d.name) = some { name := d.name } :=
      List.find?_cons_of_pos (decide_eq_true rfl)
    exact ⟨_, _, _, by rw [hown]; rfl, rfl, .waiting (show .headers ∉ [Phase.registration] by decide) rfl rfl rfl⟩
  | foreign node => cases hs

/-- The names of a state are distinct, and are those of the entries that have got them, and no scope is open. -/
structure Names (p : Progress) (es : List Entry) : Prop where
  first : ∀ as e bs, es = as ++ e :: bs → (e.IsRegistered ↔ ∀ a ∈ as, a.decl.name? ≠ e.decl.name?)
  nodup : (p.catalog.globals.map Symbol.name).Nodup
  structs : (p.catalog.structs.map StructInfo.name).Sublist (p.catalog.globals.map Symbol.name)
  functions : (p.functions.map FunctionInfo.name).Sublist (p.catalog.globals.map Symbol.name)
  registered : ∀ name ∈ p.catalog.globals.map Symbol.name, ∃ e ∈ es, e.IsRegistered ∧ e.decl.name? = some name
  taken : ∀ e ∈ es, ∃ name ∈ p.catalog.globals.map Symbol.name, e.decl.name? = some name
  current : p.catalog.current = none

end Progress

namespace Progress.Names

variable {p p' : Progress} {d : Decl} {s : Symbol} {es es' : List Entry} {step : Step} {phase : Phase}

theorem empty : Names {} [] where
  first as e bs h := absurd h.symm (List.append_ne_nil_of_right_ne_nil as (List.cons_ne_nil e bs))
  nodup := .nil
  structs := .slnil
  functions := .slnil
  registered := List.forall_mem_nil _
  taken := List.forall_mem_nil _
  current := rfl

/-- The entries that have got their names, after one more entry. -/
theorem first_snoc (h : p.Names es) {x : Entry} (hx : x.IsRegistered ↔ ∀ a ∈ es, a.decl.name? ≠ x.decl.name?) :
    ∀ as e bs, es ++ [x] = as ++ e :: bs → (e.IsRegistered ↔ ∀ a ∈ as, a.decl.name? ≠ e.decl.name?) := by
  intro as e bs he
  obtain rfl | ⟨bs, y, rfl⟩ := List.eq_nil_or_concat' bs
  · obtain ⟨rfl, hxe⟩ := List.append_inj' he rfl
    obtain rfl := List.singleton_injective hxe
    exact hx
  · rw [← List.cons_append, ← List.append_assoc] at he
    exact h.first as e bs (List.append_inj' he rfl).1

/-- A declaration whose name was taken fails. -/
theorem snoc_failed (h : p.Names es) (hd : d.name? = some s.name) (htaken : s.name ∈ p.catalog.globals.map Symbol.name)
    (problem : Problem) : p.Names (es ++ [⟨d, some (.registration, problem)⟩]) where
  first := by
    obtain ⟨a, ha, -, hname⟩ := h.registered s.name htaken
    exact h.first_snoc (iff_of_false (fun hr => hr problem rfl) fun hall => hall a ha (hname.trans hd.symm))
  nodup := h.nodup
  structs := h.structs
  functions := h.functions
  registered name hname := by
    obtain ⟨e, he, hr⟩ := h.registered name hname
    exact ⟨e, List.mem_append_left _ he, hr⟩
  taken := List.forall_mem_append.mpr ⟨h.taken, List.forall_mem_singleton.mpr ⟨s.name, htaken, hd⟩⟩
  current := h.current

/-- A declaration whose name was free has got it. -/
theorem snoc (h : p.Names es) (hd : d.name? = some s.name) (hfree : s.name ∉ p.catalog.globals.map Symbol.name) :
    (p.declare s d).Names (es ++ [⟨d, none⟩]) := by
  have hglobals : (p.declare s d).catalog.globals.map Symbol.name = p.catalog.globals.map Symbol.name ++ [s.name] :=
    List.map_append
  have hnew : ∀ a ∈ es, a.decl.name? ≠ d.name? := by
    intro a ha hname
    obtain ⟨name, hmem, hn⟩ := h.taken a ha
    obtain rfl := Option.some.inj (hn.symm.trans (hname.trans hd))
    exact hfree hmem
  refine ⟨h.first_snoc (iff_of_true (.of_eq_none rfl) hnew), ?_, ?_, ?_, ?_, ?_, h.current⟩
  · rw [hglobals]
    exact h.nodup.append (List.nodup_singleton _) (List.disjoint_singleton.mpr hfree)
  · have hown : (d.ownStructs.map StructInfo.name).Sublist [s.name] := by
      cases d with
      | struct d => exact Option.some.inj hd ▸ .refl _
      | const _ | var _ | func _ | foreign _ => exact List.nil_sublist _
    rw [hglobals, declare, List.map_append]
    exact h.structs.append hown
  · have hown : (d.ownFunctions.map FunctionInfo.name).Sublist [s.name] := by
      cases d with
      | func d => exact Option.some.inj hd ▸ .refl _
      | const _ | var _ | struct _ | foreign _ => exact List.nil_sublist _
    rw [hglobals, declare, List.map_append]
    exact h.functions.append hown
  · rw [hglobals, List.forall_mem_append, List.forall_mem_singleton]
    refine ⟨fun name hname => ?_, ⟨d, none⟩, List.mem_append_right _ List.mem_cons_self, .of_eq_none rfl, hd⟩
    obtain ⟨e, he, hr⟩ := h.registered name hname
    exact ⟨e, List.mem_append_left _ he, hr⟩
  · rw [hglobals, List.forall_mem_append, List.forall_mem_singleton]
    refine ⟨fun e he => ?_, s.name, List.mem_append_right _ List.mem_cons_self, hd⟩
    obtain ⟨name, hname, he⟩ := h.taken e he
    exact ⟨name, List.mem_append_left _ hname, he⟩

/-- The registration gives names to entries behind others. -/
theorem run_register (h : p.Names es') (hes : ∀ e ∈ es, e.failure = none) {rest : List Entry}
    (hrun : Phase.registration.run Step.register p es = .ok (p', rest)) : p'.Names (es' ++ rest) := by
  induction es generalizing p es' rest with
  | nil =>
    obtain ⟨rfl, rfl⟩ := Prod.mk.inj (Except.ok.inj hrun)
    exact (List.append_nil es').symm ▸ h
  | cons e es ih =>
    obtain ⟨d, failure⟩ := e
    obtain ⟨rfl, hfresh⟩ := List.forall_mem_cons.mp hes
    obtain ⟨q, d', problem, rest, hone, hrest, rfl⟩ := (Phase.run_cons_eq_ok _).mp hrun
    obtain ⟨s, hs, rfl, hcases⟩ := Step.register_eq_ok.mp hone
    have hd := Step.name?_of_symbol hs
    have hfirst : q.Names (es' ++ [⟨d', problem.map (Phase.registration, ·)⟩]) := by
      obtain ⟨previous, hprevious, rfl, rfl⟩ | ⟨hnone, rfl, rfl⟩ := hcases
      · exact h.snoc_failed hd (not_not.mp (mt Catalog.lookupGlobal_eq_none_iff.mpr (by rw [hprevious]; nofun))) _
      · exact h.snoc hd (Catalog.lookupGlobal_eq_none_iff.mp hnone)
    have hnames := ih hfirst hfresh hrest
    rwa [List.append_assoc] at hnames

/-- The phases behind the registration keep names. -/
theorem run (h : p.Names es) (hstep : step.IsLocal) (hphase : phase ≠ .registration)
    (hrun : phase.run step p es = .ok (p', es')) : p'.Names es' := by
  obtain ⟨hglobals, hstructs, hfunctions, hcurrent⟩ := Phase.names_run hstep hrun
  have htakes := Phase.run_entries hrun
  refine ⟨?_, hglobals ▸ h.nodup, ?_, ?_, ?_, ?_, hcurrent.trans h.current⟩
  · rintro as' e' bs' rfl
    obtain ⟨as, e, bs, rfl, hlength, htake⟩ := Phase.exists_of_run_append hrun
    have hmap := Phase.map_name_run hstep.name hrun
    rw [List.map_append, List.map_append] at hmap
    have hfront := (List.append_inj hmap (by rw [List.length_map, List.length_map, hlength])).1
    have hall (n : Option String) (xs : List Entry) :
        (∀ a ∈ xs, a.decl.name? ≠ n) ↔ n ∉ xs.map fun a => a.decl.name? := by
      rw [List.mem_map, not_exists]
      exact forall_congr' fun a => not_and.symm
    rw [htake.registered hphase, h.first as e bs rfl, htake.name? hstep.name, hall, hall, hfront]
  · rw [hstructs, hglobals]
    exact h.structs
  · rw [hfunctions, hglobals]
    exact h.functions
  · rw [hglobals]
    intro name hname
    obtain ⟨e, he, hr, hn⟩ := h.registered name hname
    obtain ⟨i, hi, rfl⟩ := List.getElem_of_mem he
    have hi' : i < es'.length := htakes.length_eq ▸ hi
    have htake : phase.Takes step es[i] es'[i] := htakes.get hi hi'
    exact ⟨es'[i], List.getElem_mem hi', (htake.registered hphase).mpr hr, (htake.name? hstep.name).trans hn⟩
  · rw [hglobals]
    intro e' he'
    obtain ⟨i, hi', rfl⟩ := List.getElem_of_mem he'
    have hi : i < es.length := htakes.length_eq ▸ hi'
    have htake : phase.Takes step es[i] es'[i] := htakes.get hi hi'
    obtain ⟨name, hmem, hn⟩ := h.taken es[i] (List.getElem_mem hi)
    exact ⟨name, hmem, (htake.name? hstep.name).trans hn⟩

end Progress.Names

namespace Phase

variable {p p' : Progress} {es es' : List Entry}

/-- A name that is taken keeps its record in the registration. -/
theorem record_run_register (hes : ∀ e ∈ es, e.failure = none) {x : String} (hx : p.catalog.lookupGlobal x ≠ none)
    (hrun : Phase.registration.run Step.register p es = .ok (p', es')) : p'.record x = p.record x := by
  induction es generalizing p es' with
  | nil =>
    obtain ⟨rfl, -⟩ := Prod.mk.inj (Except.ok.inj hrun)
    rfl
  | cons e es ih =>
    obtain ⟨d, failure⟩ := e
    obtain ⟨rfl, hfresh⟩ := List.forall_mem_cons.mp hes
    obtain ⟨q, d', problem, rest, hone, hrest, rfl⟩ := (run_cons_eq_ok _).mp hrun
    obtain ⟨s, hs, rfl, ⟨previous, -, rfl, -⟩ | ⟨hnone, rfl, -⟩⟩ := Step.register_eq_ok.mp hone
    · exact ih hfresh hx hrest
    · have hne : s.name ≠ x := fun h => hx (h ▸ hnone)
      have hrecord := Progress.record_declare_of_ne (p := p) (Step.name?_of_symbol hs) hne
      have hglobal : (p.declare s d').catalog.lookupGlobal x = p.catalog.lookupGlobal x := congrArg Record.global hrecord
      exact (ih hfresh (hglobal ▸ hx) hrest).trans hrecord

/-- Every declaration that has got its name is at its first stage behind the registration. -/
theorem isAt_run_register (hes : ∀ e ∈ es, e.failure = none) (hp : ∀ x, p.catalog.lookupGlobal x = none → p.record x = {})
    (hrun : Phase.registration.run Step.register p es = .ok (p', es')) : Holds (Entry.IsAt [.registration]) p' es' := by
  induction es generalizing p es' with
  | nil =>
    obtain ⟨-, rfl⟩ := Prod.mk.inj (Except.ok.inj hrun)
    exact List.forall_mem_nil _
  | cons e es ih =>
    obtain ⟨d, failure⟩ := e
    obtain ⟨rfl, hfresh⟩ := List.forall_mem_cons.mp hes
    obtain ⟨q, d', problem, rest, hone, hrest, rfl⟩ := (run_cons_eq_ok _).mp hrun
    obtain ⟨s, hs, rfl, ⟨previous, -, rfl, rfl⟩ | ⟨hnone, rfl, rfl⟩⟩ := Step.register_eq_ok.mp hone
    · exact List.forall_mem_cons.mpr ⟨fun hr => (hr _ rfl).elim, ih hfresh hp hrest⟩
    · have hd := Step.name?_of_symbol hs
      refine List.forall_mem_cons.mpr ⟨fun _ name hname => ?_, ih hfresh (fun x hx => ?_) hrest⟩
      · obtain rfl := Option.some.inj (hd.symm.trans hname)
        have htaken : (p.declare s d').catalog.lookupGlobal s.name ≠ none := by
          rw [Progress.lookupGlobal_declare, hnone, if_pos rfl]
          nofun
        rw [record_run_register hfresh htaken hrest]
        exact Progress.isAt_declare hs (hp s.name hnone)
      · rw [Progress.lookupGlobal_declare, Option.or_eq_none_iff] at hx
        have hne : s.name ≠ x := fun h => by simp [h] at hx
        rw [Progress.record_declare_of_ne hd hne]
        exact hp x hx.1

end Phase

/-! ## Behind a phase -/

/-- What there is to tell of names and stages when the phases in `past` are over. -/
structure Progress.Accounts (p : Progress) (past : List Phase) (es : List Entry) : Prop where
  names : p.Names es
  apart : es.Pairwise Entry.IsApart
  stages : Phase.Holds (Entry.IsAt past) p es

namespace Progress.Accounts

variable {p p' : Progress} {es es' : List Entry}

theorem register {decls : List Decl}
    (hrun : Phase.registration.run Step.register {} (decls.map fun decl => { decl }) = .ok (p, es)) :
    p.Accounts [.registration] es where
  names := Names.empty.run_register (List.forall_mem_map.mpr fun _ _ => rfl) hrun
  apart := (Phase.pairwise_run_register (List.forall_mem_map.mpr fun _ _ => rfl) hrun).1
  stages := Phase.isAt_run_register (List.forall_mem_map.mpr fun _ _ => rfl) (fun _ _ => rfl) hrun

theorem run {phase : Phase} {past : List Phase} {step : Step} (h : p.Accounts past es) (hlocal : step.IsLocal)
    (hadvances : step.Advances phase past) (hphase : phase ≠ .registration) (hrun : phase.run step p es = .ok (p', es')) :
    p'.Accounts (phase :: past) es' where
  names := h.names.run hlocal hphase hrun
  apart := Phase.pairwise_run hrun hlocal.name hphase h.apart
  stages := Phase.run_each hlocal (I := fun _ => True) (fun _ _ _ _ _ _ _ => trivial) (fun _ _ hf he => he.skip hf)
    (fun p d name p' d' problem _ => hadvances p d name p' d' problem) h.apart trivial h.stages hrun

end Progress.Accounts

namespace Program

variable {b : Builtins} {p : Program} {p₁ p₂ p₃ p₄ p₅ p₆ : Progress} {es₁ es₂ es₃ es₄ es₅ es₆ : List Entry}

/-- What there is to tell in front of the headers. -/
theorem Runs.accounts_containment (h : p.Runs b p₁ p₂ p₃ p₄ p₅ p₆ es₁ es₂ es₃ es₄ es₅ es₆) :
    p₄.Accounts [.containment, .fields, .constants, .registration] es₄ := by
  have h₁ := Progress.Accounts.register h.registration
  have h₂ := h₁.run Step.isLocal_constant (Step.advances_constant (by decide)) nofun h.constants
  have h₃ := h₂.run Step.isLocal_fields Step.advances_fields nofun h.fields
  exact h₃.run Step.isLocal_containment (Step.advances_containment (by decide)) nofun h.containment

/-- What there is to tell in front of the bodies. -/
theorem Runs.accounts_headers (h : p.Runs b p₁ p₂ p₃ p₄ p₅ p₆ es₁ es₂ es₃ es₄ es₅ es₆) :
    p₅.Accounts [.headers, .containment, .fields, .constants, .registration] es₅ :=
  h.accounts_containment.run Step.isLocal_header (Step.advances_header (by decide) (by decide)) nofun h.headers

/-- What there is to tell behind all phases. -/
theorem Runs.accounts (h : p.Runs b p₁ p₂ p₃ p₄ p₅ p₆ es₁ es₂ es₃ es₄ es₅ es₆) : p₆.Accounts Phase.all.reverse es₆ :=
  h.accounts_headers.run (Step.isLocal_body b) (Step.advances_body b (by decide) (by decide)) nofun h.bodies

end Program

end FlatScope
