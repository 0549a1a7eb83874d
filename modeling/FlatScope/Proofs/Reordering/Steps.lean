/-
  The steps of resolving and the order of declarations. Every step finds out what it does from the answers of a state, and
  what it adds under the name of its declaration is nothing to a declaration of another name, but that a constant may use
  one in front of it: so every step may go through neighbours in either order, unless both are constants
  (`Step.commutes_ofPhase`).
-/
import FlatScope.Proofs.Reordering.Basic
import FlatScope.Proofs.Resolution.Types

namespace FlatScope

/-! ## Changes at names -/

/-- Changes at different keys may be made in either order. -/
theorem map_at_comm {α : Type} (key : α → String) {f g : α → α} (hf : ∀ x, key (f x) = key x) (hg : ∀ x, key (g x) = key x)
    {a b : String} (hab : a ≠ b) (xs : List α) :
    (xs.map fun x => if key x = a then f x else x).map (fun x => if key x = b then g x else x)
      = (xs.map fun x => if key x = b then g x else x).map (fun x => if key x = a then f x else x) := by
  rw [List.map_map, List.map_map]
  refine List.map_congr_left fun x _ => ?_
  simp only [Function.comp_apply]
  by_cases ha : key x = a
  · have hb : key x ≠ b := fun hb => hab (ha.symm.trans hb)
    simp [ha, hf, hab]
  · by_cases hb : key x = b
    · simp [hb, hg, Ne.symm hab]
    · simp [ha, hb]

theorem or_or_comm {α : Type} {l a b : Option α} (h : a = none ∨ b = none) : (l.or b).or a = (l.or a).or b := by
  obtain rfl | rfl := h <;> simp

namespace Decl

variable {d : Decl} {name x : String}

theorem find?_ownStructs (hd : d.name? = some name) (hx : name ≠ x) :
    d.ownStructs.find? (fun i => i.name = x) = none := by
  cases d with
  | struct d =>
    obtain rfl := Option.some.inj hd
    exact List.find?_cons_of_neg (by simpa using hx)
  | const _ | var _ | func _ | foreign _ => rfl

theorem find?_ownFunctions (hd : d.name? = some name) (hx : name ≠ x) :
    d.ownFunctions.find? (fun i => i.name = x) = none := by
  cases d with
  | func d =>
    obtain rfl := Option.some.inj hd
    exact List.find?_cons_of_neg (by simpa using hx)
  | const _ | var _ | struct _ | foreign _ => rfl

end Decl

namespace Progress

/-- What there is after a constant has got its type and value. -/
def evaluate (p : Progress) (name : String) (i : Initializer) : Progress :=
  p.modifyCatalog fun c => c.modifyGlobal name fun s => { s with ty := some i.ty, value := i.constant }

/-- What there is after a struct has got its fields. -/
def complete (p : Progress) (name : String) (known : List (String × Ty)) : Progress :=
  p.modifyCatalog fun c => c.modifyStruct name fun i => { i with fields := known, isComplete := true }

/-- What there is after a variable or a function has got its type, and a function its signature. -/
def settle (p : Progress) (name : String) (t : Ty) (s : Option Signature) : Progress :=
  (p.modifyCatalog fun c => c.modifyGlobal name fun g => { g with ty := some t }).modifyFunction name
    fun i => { i with signature := s <|> i.signature }

theorem settle_none (p : Progress) (name : String) (t : Ty) :
    p.settle name t none = p.modifyCatalog fun c => c.modifyGlobal name fun g => { g with ty := some t } := by
  have hsame (fs : List FunctionInfo) :
      (fs.map fun i => if i.name = name then { i with signature := none <|> i.signature } else i) = fs := by
    refine (List.map_congr_left fun i _ => ?_).trans (List.map_id fs)
    exact ite_self i
  rw [settle, modifyFunction, hsame]

theorem lookupGlobal_evaluate (p : Progress) (name : String) (i : Initializer) (x : String) :
    (p.evaluate name i).catalog.lookupGlobal x = (p.catalog.lookupGlobal x).map fun s =>
      if s.name = name then { s with ty := some i.ty, value := i.constant } else s :=
  Catalog.lookupGlobal_modifyGlobal (f := fun s => { s with ty := some i.ty, value := i.constant }) (fun _ => rfl)
    p.catalog name x

theorem struct?_complete (p : Progress) (name : String) (known : List (String × Ty)) (x : String) :
    (p.complete name known).catalog.struct? x = (p.catalog.struct? x).map fun s =>
      if s.name = name then { s with fields := known, isComplete := true } else s :=
  Catalog.struct?_modifyStruct (f := fun s => { s with fields := known, isComplete := true }) (fun _ => rfl) p.catalog name x

theorem lookupGlobal_settle (p : Progress) (name : String) (t : Ty) (s : Option Signature) (x : String) :
    (p.settle name t s).catalog.lookupGlobal x = (p.catalog.lookupGlobal x).map fun g =>
      if g.name = name then { g with ty := some t } else g :=
  Catalog.lookupGlobal_modifyGlobal (f := fun g => { g with ty := some t }) (fun _ => rfl) p.catalog name x

theorem function?_settle (p : Progress) (name : String) (t : Ty) (s : Option Signature) (x : String) :
    (p.settle name t s).function? x = (p.function? x).map fun i =>
      if i.name = name then { i with signature := s <|> i.signature } else i :=
  function?_modifyFunction (p := p.modifyCatalog _) fun _ => rfl

variable {p q : Progress}

theorem Alike.declare (h : p.Alike q) (s : Symbol) (d : Decl) : (p.declare s d).Alike (q.declare s d) where
  catalog :=
    ⟨fun name => by rw [lookupGlobal_declare, lookupGlobal_declare, h.catalog.globals],
      fun name => by rw [struct?_declare, struct?_declare, h.catalog.structs], h.catalog.current⟩
  function name := by rw [function?_declare, function?_declare, h.function]
  scope := h.scope
  onCycle := h.onCycle

theorem Alike.evaluate (h : p.Alike q) (name : String) (i : Initializer) : (p.evaluate name i).Alike (q.evaluate name i) where
  catalog :=
    ⟨fun x => by rw [lookupGlobal_evaluate, lookupGlobal_evaluate, h.catalog.globals], h.catalog.structs, h.catalog.current⟩
  function := h.function
  scope := h.scope
  onCycle := h.onCycle

theorem Alike.complete (h : p.Alike q) (name : String) (known : List (String × Ty)) :
    (p.complete name known).Alike (q.complete name known) where
  catalog :=
    ⟨h.catalog.globals, fun x => by rw [struct?_complete, struct?_complete, h.catalog.structs], h.catalog.current⟩
  function := h.function
  scope := h.scope
  onCycle := h.onCycle

theorem Alike.settle (h : p.Alike q) (name : String) (t : Ty) (s : Option Signature) :
    (p.settle name t s).Alike (q.settle name t s) where
  catalog :=
    ⟨fun x => by rw [lookupGlobal_settle, lookupGlobal_settle, h.catalog.globals], h.catalog.structs, h.catalog.current⟩
  function x := by rw [function?_settle, function?_settle, h.function]
  scope := h.scope
  onCycle := h.onCycle

theorem Alike.enter (h : p.Alike q) (name : String) (e : Entered) : (p.enter name e).Alike (q.enter name e) where
  catalog := ⟨h.catalog.globals, h.catalog.structs, h.catalog.current⟩
  function x := by rw [function?_enter, function?_enter, h.function]
  scope x := by rw [scope?_enter, scope?_enter, h.scope]
  onCycle := h.onCycle

/-- Declarations of different names may be registered in either order. -/
theorem alike_declare {s t : Symbol} {d e : Decl} (hne : s.name ≠ t.name) (hd : d.name? = some s.name)
    (he : e.name? = some t.name) : ((p.declare s d).declare t e).Alike ((p.declare t e).declare s d) where
  catalog := by
    refine ⟨fun x => ?_, fun x => ?_, rfl⟩
    · simp only [lookupGlobal_declare]
      refine or_or_comm ?_
      by_cases hx : s.name = x
      · exact .inr (if_neg fun h => hne (hx.trans h.symm))
      · exact .inl (if_neg hx)
    · simp only [struct?_declare]
      refine or_or_comm ?_
      by_cases hx : s.name = x
      · exact .inr (Decl.find?_ownStructs he fun h => hne (hx.trans h.symm))
      · exact .inl (Decl.find?_ownStructs hd hx)
  function x := by
    simp only [function?_declare]
    refine or_or_comm ?_
    by_cases hx : s.name = x
    · exact .inr (Decl.find?_ownFunctions he fun h => hne (hx.trans h.symm))
    · exact .inl (Decl.find?_ownFunctions hd hx)
  scope _ := rfl
  onCycle := rfl

theorem complete_comm {p : Progress} {a b : String} (hab : a ≠ b) {known known' : List (String × Ty)} :
    (p.complete a known).complete b known' = (p.complete b known').complete a known := by
  have hstructs := map_at_comm StructInfo.name (f := fun i => { i with fields := known, isComplete := true })
    (g := fun i => { i with fields := known', isComplete := true }) (fun _ => rfl) (fun _ => rfl) hab p.catalog.structs
  simp only [complete, modifyCatalog, Catalog.modifyStruct, hstructs]

theorem settle_comm {p : Progress} {a b : String} (hab : a ≠ b) {t u : Ty} {s s' : Option Signature} :
    (p.settle a t s).settle b u s' = (p.settle b u s').settle a t s := by
  have hglobals := map_at_comm Symbol.name (f := fun g => { g with ty := some t }) (g := fun g => { g with ty := some u })
    (fun _ => rfl) (fun _ => rfl) hab p.catalog.globals
  have hfunctions := map_at_comm FunctionInfo.name (f := fun i => { i with signature := s <|> i.signature })
    (g := fun i => { i with signature := s' <|> i.signature }) (fun _ => rfl) (fun _ => rfl) hab p.functions
  simp only [settle, modifyCatalog, Catalog.modifyGlobal, modifyFunction, hglobals, hfunctions]

/-- Bodies of functions of different names may be entered in either order. -/
theorem alike_enter {p : Progress} {a b : String} (hab : a ≠ b) {e e' : Entered} (he : e.scope.function = a)
    (he' : e'.scope.function = b) : ((p.enter a e).enter b e').Alike ((p.enter b e').enter a e) where
  catalog := ⟨fun _ => rfl, fun _ => rfl, rfl⟩
  function x := by
    have hfunctions := map_at_comm FunctionInfo.name (f := fun i => { i with entered := some e })
      (g := fun i => { i with entered := some e' }) (fun _ => rfl) (fun _ => rfl) hab p.functions
    exact congrArg (List.find? fun f => f.name = x) hfunctions.symm
  scope x := by
    simp only [scope?_enter, he, he']
    by_cases ha : a = x
    · simp [ha, show b ≠ x from fun hb => hab (ha.trans hb.symm)]
    · simp [ha]
  onCycle := rfl

/-! ## Kinds -/

/-- A state knows kinds if it knows them with other types and values. -/
theorem KnowsKind.of_kinds {d d' : Decl} (hk : p.KnowsKind d) (hname : d'.name? = d.name?) (hconst : d'.isConst = d.isConst)
    (h : ∀ name, (q.catalog.lookupGlobal name).map Symbol.kind = (p.catalog.lookupGlobal name).map Symbol.kind) :
    q.KnowsKind d' := by
  intro name s hn hs
  have h := h name
  rw [hs, Option.map_some, eq_comm, Option.map_eq_some_iff] at h
  obtain ⟨t, ht, hkind⟩ := h
  rw [← hkind, hconst]
  exact hk name t (hname ▸ hn) ht

theorem map_kind_ite {name : String} {f : Symbol → Symbol} (hf : ∀ s, (f s).kind = s.kind) (o : Option Symbol) :
    (o.map fun s => if s.name = name then f s else s).map Symbol.kind = o.map Symbol.kind := by
  cases o with
  | none => rfl
  | some s =>
    simp only [Option.map_some]
    split
    · rw [hf]
    · rfl

theorem agreesOnTypes_complete (p : Progress) (name : String) (known : List (String × Ty)) :
    p.catalog.AgreesOnTypes (p.complete name known).catalog :=
  .of_globals rfl (fun _ => rfl) fun _ _ hs _ => hs

/-- Types and signatures do not depend on the types of variables and functions. -/
theorem agreesOnTypes_settle {d : Decl} (hk : p.KnowsKind d) (hd : d.isConst = false) {name : String}
    (hname : d.name? = some name) (t : Ty) (s : Option Signature) : p.catalog.AgreesOnTypes (p.settle name t s).catalog := by
  refine .of_globals rfl (fun x => ?_) (fun x g hg hkind => ?_)
  · rw [lookupGlobal_settle, map_kind_ite (f := fun g => { g with ty := some t }) fun _ => rfl]
  · have hx : g.name = x := by simpa using List.find?_some hg
    have hne : g.name ≠ name := by
      intro h
      have hconst := (hk name g hname (h ▸ hx ▸ hg)).mp hkind
      rw [hd] at hconst
      cases hconst
    rw [lookupGlobal_settle, hg, Option.map_some, if_neg hne]

end Progress

/-! ## Steps -/

/-- The name in a header with its type, and the signature if it is that of a function. -/
def Decl.header? (c : Catalog) : Decl → Option (Except Halt (String × Ty × Option Signature))
  | .var d => some ((d.type.resolve c none false).map fun t => (d.name, t, none))
  | .func d => some ((d.signature c).map fun s => (d.name, s.ty, some s))
  | _ => none

theorem Decl.header?_eq {c c' : Catalog} (h : c.AgreesOnTypes c') (d : Decl) : d.header? c' = d.header? c := by
  cases d with
  | var d => rw [header?, header?, h.resolve]
  | func d => rw [header?, header?, h.signature]
  | const _ | struct _ | foreign _ => rfl

theorem Decl.name?_of_header? {c : Catalog} {d : Decl} {name : String} {t : Ty} {s : Option Signature}
    (h : d.header? c = some (.ok (name, t, s))) : d.name? = some name ∧ d.isConst = false := by
  cases d with
  | var d =>
    obtain ⟨t', -, hname⟩ := Except.map_eq_ok.mp (Option.some.inj h)
    exact ⟨congrArg some (Prod.mk.inj hname).1, rfl⟩
  | func d =>
    obtain ⟨s', -, hname⟩ := Except.map_eq_ok.mp (Option.some.inj h)
    exact ⟨congrArg some (Prod.mk.inj hname).1, rfl⟩
  | const _ | struct _ | foreign _ => cases h

/-- Catalogs that give the same answers give written types the same. -/
theorem Catalog.Agrees.onTypes {c c' : Catalog} (h : c.Agrees c') : c.AgreesOnTypes c' :=
  .of_globals h.current (fun name => by rw [h.globals]) fun name s hs _ => by rw [h.globals, hs]

namespace Step

variable {p p₁ p₂ : Progress} {d d' e e' : Decl}

/-- A step passes over a declaration. -/
def Ignores (step : Step) (d : Decl) : Prop := ∀ p, step p d = .ok (p, d, none)

theorem Ignores.eq {step : Step} (h : step.Ignores d) (hstep : step p d = .ok (p₁, d', none)) : p₁ = p ∧ d' = d := by
  obtain ⟨hp, hd, -⟩ := done_eq_ok ((h p).symm.trans hstep)
  exact ⟨hp, hd⟩

/-- A declaration that is passed over changes places with every neighbour. -/
theorem swap_of_ignores {step : Step} (h : step.Ignores d ∨ step.Ignores e) (hone : step p d = .ok (p₁, d', none))
    (htwo : step p₁ e = .ok (p₂, e', none)) :
    ∃ q₁ q₂, step p e = .ok (q₁, e', none) ∧ step q₁ d = .ok (q₂, d', none) ∧ p₂.Alike q₂ := by
  obtain hd | he := h
  · obtain ⟨rfl, rfl⟩ := hd.eq hone
    exact ⟨p₂, p₂, htwo, hd p₂, .refl p₂⟩
  · obtain ⟨rfl, rfl⟩ := he.eq htwo
    exact ⟨p, p₂, he p, hone, .refl p₂⟩

theorem halted_ne_none {halt : Halt} (h : halted p d halt = .ok (p₁, d', none)) : False := by
  obtain ⟨-, -, q, -, hq⟩ := halted_eq_ok.mp h
  cases hq

theorem constant_eq_ok {c : ConstDecl} : constant p (.const c) = .ok (p₁, d', none)
    ↔ ∃ i, c.initializer p.catalog = .ok i ∧ p₁ = p.evaluate c.name i ∧ d' = .const { c with value := i.value } := by
  rw [constant]
  cases hi : c.initializer p.catalog with
  | error halt =>
    refine iff_of_false halted_ne_none ?_
    rintro ⟨_, h, -⟩
    cases h
  | ok i =>
    constructor
    · intro h
      obtain ⟨rfl, rfl, -⟩ := done_eq_ok h
      exact ⟨i, rfl, rfl, rfl⟩
    · rintro ⟨i', h, rfl, rfl⟩
      obtain rfl := Except.ok.inj h
      rfl

theorem fields_eq_ok {s : StructDecl} : fields p (.struct s) = .ok (p₁, d', none)
    ↔ ∃ known, StructDecl.resolveFields p.catalog s.name [] s.fields = (known, none) ∧ p₁ = p.complete s.name known
      ∧ d' = .struct s := by
  rw [fields]
  cases hf : StructDecl.resolveFields p.catalog s.name [] s.fields with
  | mk known halt =>
    cases halt with
    | some halt =>
      refine iff_of_false halted_ne_none ?_
      rintro ⟨_, h, -⟩
      cases h
    | none =>
      constructor
      · intro h
        obtain ⟨rfl, rfl, -⟩ := done_eq_ok h
        exact ⟨known, rfl, rfl, rfl⟩
      · rintro ⟨known', h, rfl, rfl⟩
        obtain rfl := (Prod.mk.inj h).1
        rfl

theorem containment_eq_ok {s : StructDecl} : containment p (.struct s) = .ok (p₁, d', none)
    ↔ (if s.name ∈ p.onCycle then none else p.catalog.cycle? s.name) = none ∧ p₁ = p ∧ d' = .struct s := by
  rw [containment]
  cases if s.name ∈ p.onCycle then none else p.catalog.cycle? s.name with
  | none =>
    constructor
    · intro h
      obtain ⟨rfl, rfl, -⟩ := done_eq_ok h
      exact ⟨rfl, rfl, rfl⟩
    · rintro ⟨-, rfl, rfl⟩
      rfl
  | some cycle =>
    refine iff_of_false (fun h => ?_) ?_
    · cases (done_eq_ok h).2.2
    · rintro ⟨h, -⟩
      cases h

/-- The declarations that have headers are variables and functions, and these are settled with the types in them. -/
theorem header_eq_ok : header p d = .ok (p₁, d', none)
    ↔ d.header? p.catalog = none ∧ p₁ = p ∧ d' = d
      ∨ ∃ name t s, d.header? p.catalog = some (.ok (name, t, s)) ∧ p₁ = p.settle name t s ∧ d' = d := by
  have hdone {name : String} {t : Ty} {s : Option Signature} {x : Except Halt (String × Ty × Option Signature)}
      (hheader : d.header? p.catalog = some x) (hx : x = .ok (name, t, s))
      (hstep : header p d = .ok (p.settle name t s, d, none)) : header p d = .ok (p₁, d', none)
        ↔ d.header? p.catalog = none ∧ p₁ = p ∧ d' = d
          ∨ ∃ name t s, d.header? p.catalog = some (.ok (name, t, s)) ∧ p₁ = p.settle name t s ∧ d' = d := by
    rw [hstep, hheader, hx]
    constructor
    · intro h
      obtain ⟨rfl, rfl, -⟩ := done_eq_ok h
      exact .inr ⟨name, t, s, rfl, rfl, rfl⟩
    · rintro (⟨h, -⟩ | ⟨name', t', s', h, rfl, rfl⟩)
      · cases h
      · cases h
        rfl
  cases d with
  | var d =>
    cases ht : d.type.resolve p.catalog none false with
    | error halt =>
      rw [header, ht, Decl.header?, ht]
      refine iff_of_false halted_ne_none ?_
      rintro (⟨h, -⟩ | ⟨name, t, s, h, -⟩) <;> cases h
    | ok t =>
      refine hdone rfl (by rw [ht]; rfl) ?_
      rw [header, ht, Progress.settle_none]
  | func d =>
    cases hs : d.signature p.catalog with
    | error halt =>
      rw [header, hs, Decl.header?, hs]
      refine iff_of_false halted_ne_none ?_
      rintro (⟨h, -⟩ | ⟨name, t, s, h, -⟩) <;> cases h
    | ok s =>
      refine hdone rfl (by rw [hs]; rfl) ?_
      rw [header, hs]
      rfl
  | const _ | struct _ | foreign _ =>
    constructor
    · intro h
      obtain ⟨rfl, rfl, -⟩ := done_eq_ok h
      exact .inl ⟨rfl, rfl, rfl⟩
    · rintro (⟨-, rfl, rfl⟩ | ⟨name, t, s, h, -⟩)
      · rfl
      · cases h

/-! ## Registration in another order -/

theorem register_eq_ok_none : register p d = .ok (p₁, d', none)
    ↔ ∃ s, symbol d = .ok s ∧ p.catalog.lookupGlobal s.name = none ∧ p₁ = p.declare s d ∧ d' = d := by
  constructor
  · intro h
    obtain ⟨s, hs, rfl, ⟨_, -, -, h⟩ | ⟨hfree, rfl, -⟩⟩ := register_eq_ok.mp h
    · cases h
    · exact ⟨s, hs, hfree, rfl, rfl⟩
  · rintro ⟨s, hs, hfree, rfl, rfl⟩
    exact register_of_none hs hfree

theorem kind_of_symbol {s : Symbol} (h : symbol d = .ok s) : s.kind = .const ↔ d.isConst = true := by
  cases d with
  | const d =>
    obtain rfl := Except.ok.inj h
    exact iff_of_true rfl rfl
  | var d | struct d | func d =>
    obtain rfl := Except.ok.inj h
    exact iff_of_false nofun nofun
  | foreign node => cases h

theorem commutes_register : Commutes register where
  name h := by rw [keepsDecl_register _ _ _ _ _ h]
  isConst h := by rw [keepsDecl_register _ _ _ _ _ h]
  kind := by
    intro p d p' d' h _ name t hn ht
    obtain ⟨s, hs, hfree, rfl, rfl⟩ := register_eq_ok_none.mp h
    obtain rfl := Option.some.inj ((name?_of_symbol hs).symm.trans hn)
    rw [Progress.lookupGlobal_declare, hfree, Option.none_or, if_pos rfl] at ht
    obtain rfl := Option.some.inj ht
    exact kind_of_symbol hs
  otherKind := by
    intro p d p' d' e h hne hk name t hn ht
    obtain ⟨s, hs, hfree, rfl, rfl⟩ := register_eq_ok_none.mp h
    have hname : s.name ≠ name := by
      rintro rfl
      exact hne (hn.trans (name?_of_symbol hs).symm)
    rw [Progress.lookupGlobal_declare, if_neg hname, Option.or_none] at ht
    exact hk name t hn ht
  alike := by
    intro p q d p' d' hpq h
    obtain ⟨s, hs, hfree, rfl, rfl⟩ := register_eq_ok_none.mp h
    exact ⟨_, register_eq_ok_none.mpr ⟨s, hs, (hpq.catalog.globals _).trans hfree, rfl, rfl⟩, hpq.declare s d'⟩
  swap := by
    intro p d p₁ d' e p₂ e' _ hne _ _ hone htwo
    obtain ⟨s, hs, hfree, rfl, rfl⟩ := register_eq_ok_none.mp hone
    obtain ⟨t, ht, hfree', rfl, rfl⟩ := register_eq_ok_none.mp htwo
    have hnames : s.name ≠ t.name := fun h => hne (by rw [name?_of_symbol hs, name?_of_symbol ht, h])
    rw [Progress.lookupGlobal_declare, Option.or_eq_none_iff] at hfree'
    refine ⟨_, _, register_eq_ok_none.mpr ⟨t, ht, hfree'.1, rfl, rfl⟩,
      register_eq_ok_none.mpr ⟨s, hs, ?_, rfl, rfl⟩, Progress.alike_declare hnames (name?_of_symbol hs) (name?_of_symbol ht)⟩
    rw [Progress.lookupGlobal_declare, hfree, if_neg (Ne.symm hnames)]
    rfl

/-! ## Resolution in another order -/

/-- A step that keeps names, sorts and kinds knows the kinds behind itself that are known in front of it. -/
theorem Commutes.of_kinds {step : Step}
    (hname : ∀ p d p' d' problem, step p d = .ok (p', d', problem) → d'.name? = d.name?)
    (hconst : ∀ {p d p' d'}, step p d = .ok (p', d', none) → d'.isConst = d.isConst)
    (hkind : ∀ {p d p' d'}, step p d = .ok (p', d', none) → ∀ name,
      (p'.catalog.lookupGlobal name).map Symbol.kind = (p.catalog.lookupGlobal name).map Symbol.kind)
    (halike : ∀ {p q d p' d'}, p.Alike q → step p d = .ok (p', d', none) →
      ∃ q', step q d = .ok (q', d', none) ∧ p'.Alike q')
    (hswap : ∀ {p d p₁ d' e p₂ e'}, d.isConst = false ∨ e.isConst = false → d.name? ≠ e.name? →
      p.KnowsKind d → p.KnowsKind e → step p d = .ok (p₁, d', none) → step p₁ e = .ok (p₂, e', none) →
      ∃ q₁ q₂, step p e = .ok (q₁, e', none) ∧ step q₁ d = .ok (q₂, d', none) ∧ p₂.Alike q₂) : step.Commutes where
  name h := hname _ _ _ _ _ h
  isConst := hconst
  kind h hk := hk.of_kinds (hname _ _ _ _ _ h) (hconst h) (hkind h)
  otherKind h _ hk := hk.of_kinds rfl rfl (hkind h)
  alike := halike
  swap := hswap

theorem ignores_constant (h : d.isConst = false) : Ignores constant d := by
  cases d with
  | const d => cases h
  | var _ | struct _ | func _ | foreign _ => exact fun _ => rfl

theorem commutes_constant : Commutes constant := by
  refine .of_kinds keepsName_constant.name ?_ ?_ ?_ ?_
  · intro p d p' d' h
    cases d with
    | const d =>
      obtain ⟨i, -, -, rfl⟩ := constant_eq_ok.mp h
      rfl
    | var _ | struct _ | func _ | foreign _ => rw [((ignores_constant rfl).eq h).2]
  · intro p d p' d' h name
    cases d with
    | const d =>
      obtain ⟨i, -, rfl, -⟩ := constant_eq_ok.mp h
      rw [Progress.lookupGlobal_evaluate,
        Progress.map_kind_ite (f := fun s => { s with ty := some i.ty, value := i.constant }) fun _ => rfl]
    | var _ | struct _ | func _ | foreign _ => rw [((ignores_constant rfl).eq h).1]
  · intro p q d p' d' hpq h
    cases d with
    | const d =>
      obtain ⟨i, hi, rfl, rfl⟩ := constant_eq_ok.mp h
      exact ⟨_, constant_eq_ok.mpr ⟨i, (hpq.catalog.initializer d).trans hi, rfl, rfl⟩, hpq.evaluate d.name i⟩
    | var _ | struct _ | func _ | foreign _ =>
      obtain ⟨rfl, rfl⟩ := (ignores_constant rfl).eq h
      exact ⟨q, rfl, hpq⟩
  · intro p d p₁ d' e p₂ e' hconst _ _ _ hone htwo
    exact swap_of_ignores (hconst.imp ignores_constant ignores_constant) hone htwo

theorem commutes_fields : Commutes fields := by
  refine .of_kinds keepsDecl_fields.keepsName.name ?_ ?_ ?_ ?_
  · intro p d p' d' h
    rw [keepsDecl_fields _ _ _ _ _ h]
  · intro p d p' d' h name
    cases d with
    | struct d =>
      obtain ⟨known, -, rfl, -⟩ := fields_eq_ok.mp h
      rfl
    | const _ | var _ | func _ | foreign _ => rw [((show Ignores fields _ from fun _ => rfl).eq h).1]
  · intro p q d p' d' hpq h
    cases d with
    | struct d =>
      obtain ⟨known, hknown, rfl, rfl⟩ := fields_eq_ok.mp h
      refine ⟨_, fields_eq_ok.mpr ⟨known, ?_, rfl, rfl⟩, hpq.complete d.name known⟩
      rw [hpq.catalog.onTypes.resolveFields, hknown]
    | const _ | var _ | func _ | foreign _ =>
      obtain ⟨rfl, rfl⟩ := (show Ignores fields _ from fun _ => rfl).eq h
      exact ⟨q, rfl, hpq⟩
  · intro p d p₁ d' e p₂ e' _ hne _ _ hone htwo
    cases d with
    | struct d =>
      cases e with
      | struct e =>
        obtain ⟨known, hknown, rfl, rfl⟩ := fields_eq_ok.mp hone
        obtain ⟨known', hknown', rfl, rfl⟩ := fields_eq_ok.mp htwo
        have hnames : d.name ≠ e.name := fun h => hne (congrArg some h)
        rw [(p.agreesOnTypes_complete d.name known).resolveFields] at hknown'
        rw [Progress.complete_comm hnames]
        refine ⟨_, _, fields_eq_ok.mpr ⟨known', hknown', rfl, rfl⟩, fields_eq_ok.mpr ⟨known, ?_, rfl, rfl⟩, .refl _⟩
        rw [(p.agreesOnTypes_complete e.name known').resolveFields, hknown]
      | const _ | var _ | func _ | foreign _ => exact swap_of_ignores (.inr fun _ => rfl) hone htwo
    | const _ | var _ | func _ | foreign _ => exact swap_of_ignores (.inl fun _ => rfl) hone htwo

/-- Where no struct is found inside itself, the search changes nothing. -/
theorem containment_eq (h : containment p d = .ok (p₁, d', none)) : p₁ = p ∧ d' = d := by
  cases d with
  | struct d =>
    obtain ⟨-, rfl, rfl⟩ := containment_eq_ok.mp h
    exact ⟨rfl, rfl⟩
  | const _ | var _ | func _ | foreign _ => exact (show Ignores containment _ from fun _ => rfl).eq h

theorem commutes_containment : Commutes containment := by
  refine .of_kinds keepsDecl_containment.keepsName.name ?_ ?_ ?_ ?_
  · intro p d p' d' h
    rw [keepsDecl_containment _ _ _ _ _ h]
  · intro p d p' d' h name
    rw [(containment_eq h).1]
  · intro p q d p' d' hpq h
    obtain ⟨rfl, rfl⟩ := containment_eq h
    refine ⟨q, ?_, hpq⟩
    cases d' with
    | struct d =>
      obtain ⟨hcycle, -, -⟩ := containment_eq_ok.mp h
      refine containment_eq_ok.mpr ⟨?_, rfl, rfl⟩
      rwa [hpq.onCycle, hpq.catalog.cycle?]
    | const _ | var _ | func _ | foreign _ => rfl
  · intro p d p₁ d' e p₂ e' _ _ _ _ hone htwo
    obtain ⟨rfl, rfl⟩ := containment_eq hone
    obtain ⟨rfl, rfl⟩ := containment_eq htwo
    exact ⟨p₂, p₂, htwo, hone, .refl p₂⟩

theorem ignores_header {c : Catalog} (h : d.header? c = none) : Ignores header d := by
  cases d with
  | var _ | func _ => cases h
  | const _ | struct _ | foreign _ => exact fun _ => rfl

theorem commutes_header : Commutes header := by
  refine .of_kinds keepsDecl_header.keepsName.name ?_ ?_ ?_ ?_
  · intro p d p' d' h
    rw [keepsDecl_header _ _ _ _ _ h]
  · intro p d p' d' h x
    obtain ⟨-, rfl, -⟩ | ⟨name, t, s, -, rfl, -⟩ := header_eq_ok.mp h
    · rfl
    · rw [Progress.lookupGlobal_settle, Progress.map_kind_ite (f := fun g => { g with ty := some t }) fun _ => rfl]
  · intro p q d p' d' hpq h
    obtain ⟨hnone, rfl, rfl⟩ | ⟨name, t, s, hsome, rfl, rfl⟩ := header_eq_ok.mp h
    · exact ⟨q, header_eq_ok.mpr (.inl ⟨(d'.header?_eq hpq.catalog.onTypes).trans hnone, rfl, rfl⟩), hpq⟩
    · exact ⟨_, header_eq_ok.mpr (.inr ⟨name, t, s, (d'.header?_eq hpq.catalog.onTypes).trans hsome, rfl, rfl⟩),
        hpq.settle name t s⟩
  · intro p d p₁ d' e p₂ e' _ hne hkd hke hone htwo
    obtain ⟨hnone, -, -⟩ | ⟨name, t, s, hsome, rfl, rfl⟩ := header_eq_ok.mp hone
    · exact swap_of_ignores (.inl (ignores_header hnone)) hone htwo
    · obtain ⟨hnone, -, -⟩ | ⟨name', u, s', hsome', rfl, rfl⟩ := header_eq_ok.mp htwo
      · exact swap_of_ignores (.inr (ignores_header hnone)) hone htwo
      · obtain ⟨hname, hd⟩ := Decl.name?_of_header? hsome
        obtain ⟨hname', he⟩ := Decl.name?_of_header? hsome'
        have hnames : name ≠ name' := fun h => hne (by rw [hname, hname', h])
        rw [e'.header?_eq (Progress.agreesOnTypes_settle hkd hd hname t s)] at hsome'
        rw [Progress.settle_comm hnames]
        refine ⟨_, _, header_eq_ok.mpr (.inr ⟨name', u, s', hsome', rfl, rfl⟩),
          header_eq_ok.mpr (.inr ⟨name, t, s, ?_, rfl, rfl⟩), .refl _⟩
        rw [d'.header?_eq (Progress.agreesOnTypes_settle hke he hname' u s'), hsome]

/-- A body is entered behind another one as it is in front of it. -/
theorem body_enter_eq_ok {b : Builtins} {f : FuncDecl} {name : String} {x : Entered} :
    body b (p.enter name x) (.func f) = .ok (p₁, d', none)
      ↔ (p.function? f.name).bind FunctionInfo.signature = none ∧ p₁ = p.enter name x ∧ d' = .func f
        ∨ ∃ s f' e, (p.function? f.name).bind FunctionInfo.signature = some s
          ∧ f.resolveBody b p.catalog s = .ok (f', e) ∧ p₁ = (p.enter name x).enter f.name e ∧ d' = .func f'
          ∧ none = e.problem := by
  have hagrees : p.catalog.Agrees (p.enter name x).catalog := ⟨fun _ => rfl, fun _ => rfl, rfl⟩
  rw [body_eq_ok, p.signature_enter]
  simp only [hagrees.resolveBody, and_true]

theorem commutes_body (b : Builtins) : Commutes (body b) := by
  refine .of_kinds ?_ ?_ ?_ ?_ ?_
  · intro p d p' d' problem h
    cases d with
    | func f =>
      obtain ⟨-, -, rfl, -⟩ | ⟨s, f', e, -, he, -, rfl, -⟩ := body_eq_ok.mp h
      · rfl
      · exact congrArg some (FuncDecl.name_of_resolveBody he).1
    | const _ | var _ | struct _ | foreign _ => rw [(done_eq_ok h).2.1]
  · intro p d p' d' h
    cases d with
    | func f =>
      obtain ⟨-, -, rfl, -⟩ | ⟨s, f', e, -, -, -, rfl, -⟩ := body_eq_ok.mp h <;> rfl
    | const _ | var _ | struct _ | foreign _ => rw [(done_eq_ok h).2.1]
  · intro p d p' d' h name
    cases d with
    | func f =>
      obtain ⟨-, rfl, -, -⟩ | ⟨s, f', e, -, -, rfl, -, -⟩ := body_eq_ok.mp h <;> rfl
    | const _ | var _ | struct _ | foreign _ => rw [(done_eq_ok h).1]
  · intro p q d p' d' hpq h
    cases d with
    | func f =>
      obtain ⟨hs, rfl, rfl, -⟩ | ⟨s, f', e, hs, he, rfl, rfl, hproblem⟩ := body_eq_ok.mp h
      · exact ⟨q, body_eq_ok.mpr (.inl ⟨by rw [hpq.function, hs], rfl, rfl, rfl⟩), hpq⟩
      · exact ⟨_, body_eq_ok.mpr (.inr ⟨s, f', e, by rw [hpq.function, hs], by rw [hpq.catalog.resolveBody, he], rfl, rfl,
          hproblem⟩), hpq.enter f.name e⟩
    | const _ | var _ | struct _ | foreign _ =>
      obtain ⟨rfl, rfl⟩ := (show Ignores (body b) _ from fun _ => rfl).eq h
      exact ⟨q, rfl, hpq⟩
  · intro p d p₁ d' e p₂ e' _ hne _ _ hone htwo
    cases d with
    | func f =>
      cases e with
      | func g =>
        have hnames : f.name ≠ g.name := fun h => hne (congrArg some h)
        obtain ⟨hs, rfl, rfl, -⟩ | ⟨s, f', x, hs, hx, rfl, rfl, hproblem⟩ := body_eq_ok.mp hone
        · obtain ⟨hs', rfl, rfl, -⟩ | ⟨s', g', y, hs', hy, rfl, rfl, hproblem'⟩ := body_eq_ok.mp htwo
          · exact ⟨_, _, htwo, hone, .refl _⟩
          · exact ⟨_, _, htwo, body_enter_eq_ok.mpr (.inl ⟨hs, rfl, rfl⟩), .refl _⟩
        · obtain ⟨hs', rfl, rfl⟩ | ⟨s', g', y, hs', hy, rfl, rfl, hproblem'⟩ := body_enter_eq_ok.mp htwo
          · exact ⟨_, _, body_eq_ok.mpr (.inl ⟨hs', rfl, rfl, rfl⟩), hone, .refl _⟩
          · exact ⟨_, _, body_eq_ok.mpr (.inr ⟨s', g', y, hs', hy, rfl, rfl, hproblem'⟩),
              body_enter_eq_ok.mpr (.inr ⟨s, f', x, hs, hx, rfl, rfl, hproblem⟩),
              Progress.alike_enter hnames (FuncDecl.name_of_resolveBody hx).2 (FuncDecl.name_of_resolveBody hy).2⟩
      | const _ | var _ | struct _ | foreign _ => exact swap_of_ignores (.inr fun _ => rfl) hone htwo
    | const _ | var _ | struct _ | foreign _ => exact swap_of_ignores (.inl fun _ => rfl) hone htwo

/-- Every phase goes through declarations in either order. -/
theorem commutes_ofPhase (b : Builtins) (phase : Phase) : Commutes (ofPhase b phase) := by
  cases phase with
  | registration => exact commutes_register
  | constants => exact commutes_constant
  | fields => exact commutes_fields
  | containment => exact commutes_containment
  | headers => exact commutes_header
  | bodies => exact commutes_body b

end Step

end FlatScope
