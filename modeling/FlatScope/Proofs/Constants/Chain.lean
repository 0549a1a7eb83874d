/-
  Chains of constants. From a constant whose initializer names another one, that one is looked at next, if it holds its
  name and is declared earlier. If this leads to a literal (`Decl.LeadsTo`), the constant has the type and the value of
  the literal. The registration leaves all constants bare (`Phase.knows_run_register`), and the phase of the constants keeps
  what is known of those it has gone through (`Progress.Knows.run`).
-/
import FlatScope.Proofs.Accounting.Names
import FlatScope.Proofs.Rewriting.Unit

namespace FlatScope

/-! ## Chains of constants -/

/-- The type and the value of a literal. -/
def Expr.literal? : Expr → Option (Ty × Constant)
  | .int n _ => some (.int, .int n)
  | .real x _ => some (.float, .real x)
  | .byte n _ => some (.byte, .int n)
  | _ => none

namespace Decl

/-- A declaration, the `i`-th of a unit, holds its name: it is the first that has it. -/
def Holds (ds : List Decl) (i : Nat) (d : Decl) : Prop :=
  ds[i]? = some d ∧ ∀ j < i, ∀ e, ds[j]? = some e → e.name? ≠ d.name?

/-- From the `i`-th declaration of a unit, a constant, earlier constants that hold their names lead to a literal. -/
inductive LeadsTo (ds : List Decl) : Nat → Ty × Constant → Prop
  | literal {i : Nat} {c : ConstDecl} {l : Ty × Constant} : ds[i]? = some (.const c) → c.value.literal? = some l →
    LeadsTo ds i l
  | follow {i j : Nat} {c source : ConstDecl} {symbol : Option Symbol} {info : Info} {l : Ty × Constant} :
    ds[i]? = some (.const c) → c.value = .ident source.name symbol info → Holds ds j (.const source) → j < i →
    LeadsTo ds j l → LeadsTo ds i l

variable {ds : List Decl} {i j k : Nat} {d e : Decl} {c : ConstDecl} {l l' : Ty × Constant}

/-- A name has one holder. -/
theorem Holds.unique (hd : Holds ds i d) (he : Holds ds j e) (hname : d.name? = e.name?) : i = j ∧ d = e := by
  obtain hlt | rfl | hgt := Nat.lt_trichotomy i j
  · exact absurd hname (he.2 i hlt d hd.1)
  · exact ⟨rfl, Option.some.inj (hd.1.symm.trans he.1)⟩
  · exact absurd hname.symm (hd.2 j hgt e he.1)

theorem LeadsTo.unique (h : LeadsTo ds i l) (h' : LeadsTo ds i l') : l = l' := by
  induction h with
  | literal hc hl =>
    cases h' with
    | literal hc' hl' =>
      obtain rfl := Decl.const.inj (Option.some.inj (hc.symm.trans hc'))
      exact Option.some.inj (hl.symm.trans hl')
    | follow hc' hv' =>
      obtain rfl := Decl.const.inj (Option.some.inj (hc.symm.trans hc'))
      rw [hv'] at hl
      exact nomatch hl
  | follow hc hv hs _ _ ih =>
    cases h' with
    | literal hc' hl' =>
      obtain rfl := Decl.const.inj (Option.some.inj (hc.symm.trans hc'))
      rw [hv] at hl'
      exact nomatch hl'
    | follow hc' hv' hs' _ h' =>
      obtain rfl := Decl.const.inj (Option.some.inj (hc.symm.trans hc'))
      obtain ⟨hname, -, -⟩ := Expr.ident.inj (hv.symm.trans hv')
      obtain ⟨rfl, -⟩ := hs.unique hs' (congrArg some hname)
      exact ih h'

end Decl

/-- A symbol has a type and a value. -/
def Symbol.Has (s : Symbol) (l : Ty × Constant) : Prop := s.ty = some l.1 ∧ s.value = some l.2

/-- A symbol has neither a type nor a value. -/
def Symbol.IsBare (s : Symbol) : Prop := s.ty = none ∧ s.value = none

/-- The symbol is that of the `i`-th declaration, a constant, when the constants in front of the `k`-th declaration
have been gone through. -/
inductive Symbol.IsChained (ds : List Decl) (i k : Nat) (s : Symbol) : Prop
  | known {l : Ty × Constant} (hi : i < k) (h : Decl.LeadsTo ds i l) (hs : s.Has l)
  | bare (h : ∀ l, Decl.LeadsTo ds i l → k ≤ i) (hs : s.IsBare)

/-- A catalog knows of the constants what can be known when those in front of the `k`-th declaration have been gone
through. -/
structure Progress.Knows (p : Progress) (ds : List Decl) (k : Nat) : Prop where
  held : ∀ i c, Decl.Holds ds i (.const c) →
    ∃ s, p.catalog.lookupGlobal c.name = some s ∧ s.kind = .const ∧ s.span = c.span ∧ s.IsChained ds i k
  holder : ∀ name s, p.catalog.lookupGlobal name = some s → s.kind = .const →
    ∃ i c, Decl.Holds ds i (.const c) ∧ c.name = name

namespace Progress.Knows

variable {p p' : Progress} {ds : List Decl} {i j k : Nat} {c : ConstDecl} {d d' : Decl} {l : Ty × Constant}
  {problem : Option Problem} {es es' : List Entry}

/-! ## One constant -/

/-- What a constant that is known is initialized with is at the end of its chain. -/
theorem leadsTo_of_initializer (h : p.Knows ds k) (hc : ds[k]? = some (.const c)) {i : Initializer}
    (hi : c.initializer p.catalog = .ok i) : ∃ l, Decl.LeadsTo ds k l ∧ i.ty = l.1 ∧ i.constant = some l.2 := by
  obtain ⟨name, value, span⟩ := c
  unfold ConstDecl.initializer at hi
  cases value
  case int n info | real x info | byte n info =>
    obtain rfl := Except.ok.inj hi
    exact ⟨_, .literal hc rfl, rfl, rfl⟩
  case ident source symbol info =>
    dsimp only at hi
    split at hi
    · cases hi
    · rename_i s hs
      split at hi
      · cases hi
      · rename_i hkind
        split at hi
        · cases hi
        · rename_i t ht
          obtain rfl := Except.ok.inj hi
          obtain ⟨j, c, hj, rfl⟩ := h.holder _ s hs (not_not.mp hkind)
          obtain ⟨s', hs', -, -, hchained⟩ := h.held j c hj
          obtain rfl := Option.some.inj (hs.symm.trans hs')
          cases hchained with
          | known hjk hl hhas => exact ⟨_, .follow hc rfl hj hjk hl, Option.some.inj (ht.symm.trans hhas.1), hhas.2⟩
          | bare _ hbare => cases ht.symm.trans hbare.1
  all_goals cases hi

/-- A constant whose chain ends in a literal can be initialized. -/
theorem exists_initializer (h : p.Knows ds k) (hc : ds[k]? = some (.const c)) (hl : Decl.LeadsTo ds k l) :
    ∃ i, c.initializer p.catalog = .ok i := by
  cases hl with
  | literal hc' hl =>
    obtain rfl := Decl.const.inj (Option.some.inj (hc.symm.trans hc'))
    unfold ConstDecl.initializer
    cases hv : c.value
    case int n info | real x info | byte n info => exact ⟨_, rfl⟩
    all_goals
      rw [hv] at hl
      exact nomatch hl
  | follow hc' hv hj hjk hl =>
    obtain rfl := Decl.const.inj (Option.some.inj (hc.symm.trans hc'))
    obtain ⟨s, hs, hkind, -, hchained⟩ := h.held _ _ hj
    cases hchained with
    | known _ _ hhas =>
      rw [ConstDecl.initializer, hv]
      dsimp only
      rw [hs]
      dsimp only
      rw [if_neg (not_not.mpr hkind), hhas.1]
      exact ⟨_, rfl⟩
    | bare hlate _ => exact absurd hjk (Nat.not_lt.mpr (hlate _ hl))

theorem IsChained.pass {s : Symbol} (h : s.IsChained ds i k) (hne : ∀ l, Decl.LeadsTo ds i l → i ≠ k) :
    s.IsChained ds i (k + 1) := by
  cases h with
  | known hi hl hs => exact .known (Nat.lt_succ_of_lt hi) hl hs
  | bare h hs => exact .bare (fun l hl => Nat.lt_of_le_of_ne (h l hl) (hne l hl).symm) hs

/-- Nothing is to be done if the declaration is no constant that holds its name. -/
theorem pass (h : p.Knows ds k) (hk : ∀ c, ¬ Decl.Holds ds k (.const c)) : p.Knows ds (k + 1) where
  held i c hc := by
    obtain ⟨s, hs, hkind, hspan, hchained⟩ := h.held i c hc
    exact ⟨s, hs, hkind, hspan, IsChained.pass hchained fun _ _ he => hk c (he ▸ hc)⟩
  holder := h.holder

/-- A constant that fails leads to no literal. -/
theorem fail (h : p.Knows ds k) (hk : ∀ l, ¬ Decl.LeadsTo ds k l) : p.Knows ds (k + 1) where
  held i c hc := by
    obtain ⟨s, hs, hkind, hspan, hchained⟩ := h.held i c hc
    exact ⟨s, hs, hkind, hspan, IsChained.pass hchained fun l hl he => hk l (he ▸ hl)⟩
  holder := h.holder

/-- A constant gets what is at the end of its chain. -/
theorem evaluate (h : p.Knows ds k) (hk : Decl.Holds ds k (.const c)) {i : Initializer} (hl : Decl.LeadsTo ds k l)
    (hty : i.ty = l.1) (hvalue : i.constant = some l.2) : (p.evaluate c.name i).Knows ds (k + 1) where
  held j c' hj := by
    obtain ⟨s, hs, hkind, hspan, hchained⟩ := h.held j c' hj
    have hname : s.name = c'.name := by simpa using List.find?_some hs
    rw [lookupGlobal_evaluate, hs]
    by_cases hne : c'.name = c.name
    · obtain ⟨rfl, -⟩ := hj.unique hk (congrArg some hne)
      rw [Option.map_some, if_pos (hname.trans hne)]
      exact ⟨_, rfl, hkind, hspan, .known (Nat.lt_succ_self _) hl ⟨congrArg some hty, hvalue⟩⟩
    · rw [Option.map_some, if_neg fun he => hne (hname.symm.trans he)]
      refine ⟨s, rfl, hkind, hspan, IsChained.pass hchained ?_⟩
      rintro - - rfl
      exact hne (ConstDecl.mk.inj (Decl.const.inj (Option.some.inj (hj.1.symm.trans hk.1)))).1
  holder name s hs hkind := by
    rw [lookupGlobal_evaluate] at hs
    obtain ⟨s', hs', rfl⟩ := Option.map_eq_some_iff.mp hs
    refine h.holder name s' hs' ?_
    split at hkind
    · exact hkind
    · exact hkind

/-- The step of a declaration that holds its name. -/
theorem step (h : p.Knows ds k) (hk : Decl.Holds ds k d) (hone : Step.constant p d = .ok (p', d', problem)) :
    p'.Knows ds (k + 1) := by
  cases d with
  | const c =>
    obtain ⟨i, hi, rfl, -, -⟩ | ⟨rfl, -, q, rfl⟩ := Step.constant_cases hone
    · obtain ⟨l, hl, hty, hvalue⟩ := h.leadsTo_of_initializer hk.1 hi
      exact h.evaluate hk hl hty hvalue
    · refine h.fail fun l hl => ?_
      obtain ⟨i, hi⟩ := h.exists_initializer hk.1 hl
      rw [Step.constant, hi] at hone
      cases (Step.done_eq_ok hone).2.2
  | var _ | struct _ | func _ | foreign _ =>
    obtain ⟨rfl, -, -⟩ := (Step.ignores_constant rfl).cases hone
    refine h.pass fun c hc => ?_
    cases Option.some.inj (hc.1.symm.trans hk.1)

end Progress.Knows

/-! ## The phase of the constants -/

/-- Entries are the declarations of a unit from the `k`-th on, of which exactly those that hold their names have not
failed. -/
def Entry.AreFrom (ds : List Decl) (k : Nat) (es : List Entry) : Prop :=
  ∀ m e, es[m]? = some e → ds[k + m]? = some e.decl ∧ (e.failure = none ↔ Decl.Holds ds (k + m) e.decl)

variable {ds : List Decl} {k : Nat} {p p' : Progress} {e : Entry} {es es' as bs : List Entry} {x : String}

theorem Entry.AreFrom.tail (h : AreFrom ds k (e :: es)) : AreFrom ds (k + 1) es := fun m a ha => by
  rw [Nat.succ_add_eq_add_succ]
  exact h (m + 1) a ha

theorem Entry.AreFrom.front (h : AreFrom ds k (as ++ bs)) : AreFrom ds k as := fun m a ha =>
  h m a ((List.getElem?_append_left (List.getElem?_eq_some_iff.mp ha).1).trans ha)

theorem Progress.Knows.run (h : p.Knows ds k) (hes : Entry.AreFrom ds k es)
    (hrun : Phase.constants.run Step.constant p es = .ok (p', es')) : p'.Knows ds (k + es.length) := by
  induction es generalizing p k es' with
  | nil =>
    obtain ⟨rfl, -⟩ := Prod.mk.inj (Except.ok.inj hrun)
    exact h
  | cons e es ih =>
    obtain ⟨d, failure⟩ := e
    obtain ⟨hd, hholds⟩ := hes 0 _ rfl
    rw [List.length_cons, ← Nat.succ_add_eq_add_succ]
    cases failure with
    | some failure =>
      obtain ⟨rest, hrest, -⟩ := (Phase.run_failed_eq_ok _ rfl).mp hrun
      refine ih (h.pass fun c hc => ?_) hes.tail hrest
      obtain rfl : d = .const c := Option.some.inj (hd.symm.trans hc.1)
      exact nomatch hholds.mpr hc
    | none =>
      obtain ⟨q, d', problem, rest, hone, hrest, -⟩ := (Phase.run_cons_eq_ok _).mp hrun
      exact ih (h.step (hholds.mp rfl) hone) hes.tail hrest

/-! ## The registration -/

/-- What is found under a name behind the registration: what was there, or else the symbol of the first declaration of the
name. -/
theorem Phase.lookupGlobal_run_register (hes : ∀ e ∈ es, e.failure = none)
    (hrun : Phase.registration.run Step.register p es = .ok (p', es')) (x : String) :
    p'.catalog.lookupGlobal x = (p.catalog.lookupGlobal x).or
      (((es.map Entry.decl).find? fun d => d.name? = some x).bind fun d => (Step.symbol d).toOption) := by
  induction es generalizing p es' with
  | nil =>
    obtain ⟨rfl, -⟩ := Prod.mk.inj (Except.ok.inj hrun)
    exact (Option.or_none).symm
  | cons e es ih =>
    obtain ⟨d, failure⟩ := e
    obtain ⟨rfl, hfresh⟩ := List.forall_mem_cons.mp hes
    obtain ⟨q, d', problem, rest, hone, hrest, -⟩ := (run_cons_eq_ok _).mp hrun
    obtain ⟨s, hs, rfl, hcases⟩ := Step.register_eq_ok.mp hone
    have hname := Step.name?_of_symbol hs
    rw [ih hfresh hrest, List.map_cons, List.find?_cons]
    by_cases hx : s.name = x
    · have hfound : decide (d'.name? = some x) = true := decide_eq_true (hname.trans (congrArg some hx))
      rw [hfound, Option.bind_some, hs]
      obtain ⟨previous, hprevious, rfl, -⟩ | ⟨hnone, rfl, -⟩ := hcases
      · rw [hx] at hprevious
        rw [hprevious, Option.some_or, Option.some_or]
      · rw [Progress.lookupGlobal_declare, if_pos hx, ← hx, hnone]
        rfl
    · have hfound : decide (d'.name? = some x) = false :=
        decide_eq_false fun h => hx (Option.some.inj (hname.symm.trans h))
      rw [hfound]
      obtain ⟨previous, -, rfl, -⟩ | ⟨-, rfl, -⟩ := hcases
      · rfl
      · rw [Progress.lookupGlobal_declare, if_neg hx, Option.or_none]

namespace Decl

variable {i : Nat} {d : Decl} {front back : List Decl}

theorem Holds.find? (h : Holds ds i d) (hd : d.name? = some x) : (ds.find? fun e => e.name? = some x) = some d := by
  obtain ⟨hi, rfl⟩ := List.getElem?_eq_some_iff.mp h.1
  refine List.find?_eq_some_iff_getElem.mpr ⟨decide_eq_true hd, i, hi, rfl, fun j hj => ?_⟩
  have hne := h.2 j hj ds[j] (List.getElem?_eq_getElem _)
  rw [hd] at hne
  exact Bool.not_eq_true' _ ▸ decide_eq_false hne

theorem exists_holds_of_find? (h : (ds.find? fun e => e.name? = some x) = some d) :
    ∃ i, Holds ds i d ∧ d.name? = some x := by
  obtain ⟨hd, i, hi, rfl, hfirst⟩ := List.find?_eq_some_iff_getElem.mp h
  refine ⟨i, ⟨List.getElem?_eq_getElem hi, fun j hj e he => ?_⟩, of_decide_eq_true hd⟩
  obtain ⟨_, rfl⟩ := List.getElem?_eq_some_iff.mp he
  rw [of_decide_eq_true hd]
  exact of_decide_eq_false (Bool.not_eq_true' _ ▸ hfirst j hj)

end Decl

/-- Behind the registration, the constants that hold their names have their symbols. -/
theorem Phase.knows_run_register (hrun : Phase.registration.run Step.register {} (ds.map fun decl => { decl }) = .ok (p, es)) :
    p.Knows ds 0 := by
  have hlookup (x : String) : p.catalog.lookupGlobal x
      = (ds.find? fun d => d.name? = some x).bind fun d => (Step.symbol d).toOption := by
    have h := lookupGlobal_run_register (List.forall_mem_map.mpr fun _ _ => rfl) hrun x
    rwa [List.map_map, Function.comp_def, List.map_id'] at h
  constructor
  · intro i c hc
    rw [hlookup, hc.find? rfl]
    exact ⟨_, rfl, rfl, rfl, .bare (fun _ _ => Nat.zero_le i) ⟨rfl, rfl⟩⟩
  · intro name s hs hkind
    rw [hlookup] at hs
    obtain ⟨d, hd, hs⟩ := Option.bind_eq_some_iff.mp hs
    obtain ⟨i, hi, hname⟩ := Decl.exists_holds_of_find? hd
    have hs := Except.toOption_eq_some_iff.mp hs
    cases d with
    | const c => exact ⟨i, c, hi, Option.some.inj hname⟩
    | var _ | struct _ | func _ =>
      obtain rfl := Except.ok.inj hs
      exact nomatch hkind
    | foreign _ => exact nomatch hs

/-- Exactly the declarations that hold their names do not fail in the registration. -/
theorem Phase.areFrom_run_register (hrun : Phase.registration.run Step.register {} (ds.map fun decl => { decl }) = .ok (p, es)) :
    Entry.AreFrom ds 0 es := by
  have hdecls : es.map Entry.decl = ds := by
    rw [Phase.run_decls Step.keepsDecl_register hrun, List.map_map, Function.comp_def, List.map_id']
  have hnames := (Progress.Accounts.register hrun).names
  intro m e he
  obtain ⟨front, back, rfl, rfl⟩ := Entry.exists_append he
  rw [Nat.zero_add]
  have hget (j : Nat) : ds[j]? = ((front ++ e :: back)[j]?).map Entry.decl := by
    rw [← hdecls, List.getElem?_map]
  have hm : ds[front.length]? = some e.decl := by rw [hget, he]; rfl
  refine ⟨hm, ?_⟩
  have hregistered : e.failure = none ↔ e.IsRegistered := by
    refine ⟨Entry.IsRegistered.of_eq_none, fun hr => ?_⟩
    obtain ⟨fronts, x, backs, hsplit, hlength, htake⟩ := Phase.exists_of_run_append hrun
    have hx : x.failure = none := by
      obtain ⟨d, -, rfl⟩ := List.mem_map.mp (hsplit ▸ List.mem_append_right fronts List.mem_cons_self)
      rfl
    obtain ⟨hf, -⟩ | ⟨-, q, q', problem, -, hfailure⟩ := htake
    · rw [hx] at hf
      exact nomatch hf
    · cases problem with
      | none => exact hfailure
      | some problem => exact absurd hfailure (hr problem)
  rw [hregistered, hnames.first front e back rfl]
  constructor
  · refine fun h => ⟨hm, fun j hj d hd => ?_⟩
    rw [hget, List.getElem?_append_left hj] at hd
    obtain ⟨a, ha, rfl⟩ := Option.map_eq_some_iff.mp hd
    exact h a (List.mem_of_getElem? ha)
  · intro h a ha
    obtain ⟨j, hj, rfl⟩ := List.getElem_of_mem ha
    refine h.2 j hj _ ?_
    rw [hget, List.getElem?_append_left hj, List.getElem?_eq_getElem hj]
    rfl

end FlatScope
