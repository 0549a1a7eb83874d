/-
  Texts of types as sources. The text of a type is the source of a written type (`Ty.source_written`), which stands for the type
  wherever its structs are known (`Ty.resolve_written`). A source declares a variable of one type only, so types of the same
  text are the same (`Ty.eq_of_text_eq`).
-/
import FlatScope.Proofs.Allocation.Check
import FlatScope.Proofs.Delimiting.Unit
import FlatScope.Proofs.Notes.Basic

namespace FlatScope

namespace Ty

/-! ## Written types -/

mutual

/-- A type as it is written, nowhere in particular. -/
def written : Ty → TypeExpr
  | .primitive p => .named p.text {}
  | .void => .named "void" {}
  | .pointer t => .pointer t.written {}
  | .array t n => .array t.written (.int n) {}
  | .struct name => .named name {}
  | .func ps r => .func r.written (writtenAll ps) {}

def writtenAll : List Ty → List TypeExpr
  | [] => []
  | t :: ts => t.written :: writtenAll ts

end

mutual

theorem source_written : (t : Ty) → t.written.source = t.text
  | .primitive _ | .void | .struct _ => rfl
  | .pointer t => by rw [written, TypeExpr.source, text, source_written t]
  | .array t n => by rw [written, TypeExpr.source, text, source_written t, ArraySize.source]
  | .func ps r => by rw [written, TypeExpr.source, text, source_written r, sources_writtenAll ps]

theorem sources_writtenAll : (ts : List Ty) → TypeExpr.sources (writtenAll ts) = texts ts
  | [] => rfl
  | t :: ts => by rw [writtenAll, TypeExpr.sources, texts, source_written t, sources_writtenAll ts]

end

variable {structs : List String}

mutual

/-- A type whose structs have names can be written down. -/
theorem isWellFormed_written (hnames : ∀ name ∈ structs, IsName name) :
    (t : Ty) → t.IsWellFormed structs ∨ t = .void → t.written.IsWellFormed
  | .primitive p, _ => .inl (isTypeWord_iff.mpr (.inr ⟨p, Primitive.ofName?_eq_some_iff.mpr rfl⟩))
  | .void, _ => .inl (isTypeWord_iff.mpr (.inl rfl))
  | .pointer t, h => isWellFormed_written hnames t (.inl (h.resolve_right nofun))
  | .array t _, h => ⟨isWellFormed_written hnames t (.inl (h.resolve_right nofun).2), trivial⟩
  | .struct name, h => .inr (hnames name (h.resolve_right nofun))
  | .func ps r, h =>
    have h := h.resolve_right nofun
    ⟨isWellFormed_written hnames r h.2.symm, areWellFormed_writtenAll hnames ps h.1⟩

theorem areWellFormed_writtenAll (hnames : ∀ name ∈ structs, IsName name) :
    (ts : List Ty) → AreWellFormed structs ts → TypeExpr.AreWellFormed (writtenAll ts)
  | [], _ => trivial
  | t :: ts, h => ⟨isWellFormed_written hnames t (.inl h.1), areWellFormed_writtenAll hnames ts h.2⟩

end

end Ty

/-! ## What they stand for -/

/-- Names are those of structs. -/
def Catalog.HasStructs (structs : List String) (c : Catalog) : Prop :=
  ∀ name ∈ structs, IsName name ∧ ∃ s, c.lookupGlobal name = some s ∧ s.kind = .struct

namespace Catalog.HasStructs

variable {structs : List String} {c : Catalog} {name : String}

theorem isName (h : c.HasStructs structs) : ∀ name ∈ structs, IsName name := fun name hname => (h name hname).1

theorem namedType (h : c.HasStructs structs) (hname : name ∈ structs) (allowVoid : Bool) :
    c.namedType allowVoid name = .ok (.struct name) := by
  obtain ⟨hisName, s, hs, hkind⟩ := h name hname
  have hword := mt isTypeWord_iff.mpr hisName.not_isTypeWord
  rw [not_or, not_exists] at hword
  have hprimitive : Primitive.ofName? name = none := Option.eq_none_iff_forall_ne_some.mpr hword.2
  rw [Catalog.namedType, if_neg hword.1, hprimitive]
  simp only [hs, hkind, if_true]

end Catalog.HasStructs

namespace Ty

variable {structs : List String} {c : Catalog}

theorem namedType_text (c : Catalog) (allowVoid : Bool) (p : Primitive) : c.namedType allowVoid p.text = .ok (.primitive p) := by
  cases p <;> rfl

mutual

/-- A written type stands for the type wherever its structs are known. -/
theorem resolve_written (hc : c.HasStructs structs) (at? : Option Int) : (t : Ty) → (allowVoid : Bool) →
    t.IsWellFormed structs ∨ allowVoid = true ∧ t = .void → t.written.resolve c at? allowVoid = .ok t
  | .primitive p, allowVoid, _ => by
    rw [written, TypeExpr.resolve, namedType_text]
    rfl
  | .void, allowVoid, h => by
    obtain ⟨rfl, -⟩ := h.resolve_left id
    rfl
  | .pointer t, _, h => by
    have ht := resolve_written hc at? t false (.inl (h.resolve_right nofun))
    rw [written, TypeExpr.resolve, ht]
    rfl
  | .array t n, _, h => by
    obtain ⟨hn, ht⟩ : 0 < n ∧ _ := h.resolve_right nofun
    have ht := resolve_written hc at? t false (.inl ht)
    have hsize : c.arraySize at? (.int n) = .ok n := if_pos hn
    rw [written, TypeExpr.resolve, ht, hsize]
    rfl
  | .struct name, allowVoid, h => by
    rw [written, TypeExpr.resolve, hc.namedType (h.resolve_right nofun) allowVoid]
    rfl
  | .func ps r, _, h => by
    obtain ⟨hps, hr⟩ : AreWellFormed structs ps ∧ _ := h.resolve_right nofun
    have hr := resolve_written hc at? r true (hr.symm.imp_right fun hvoid => ⟨rfl, hvoid⟩)
    rw [written, TypeExpr.resolve, resolveAll_writtenAll hc at? ps hps]
    exact Except.bind_eq_ok.mpr ⟨ps, rfl, Except.bind_eq_ok.mpr ⟨r, hr, rfl⟩⟩

theorem resolveAll_writtenAll (hc : c.HasStructs structs) (at? : Option Int) :
    (ts : List Ty) → AreWellFormed structs ts → TypeExpr.resolveAll c at? (writtenAll ts) = .ok ts
  | [], _ => rfl
  | t :: ts, h => by
    have ht := resolve_written hc at? t false (.inl h.1)
    rw [writtenAll, TypeExpr.resolveAll, ht, resolveAll_writtenAll hc at? ts h.2]
    rfl

end

end Ty

/-! ## Declarations of variables -/

open Grammar in
/-- A text that prints a type declares a variable of the type behind the name of the variable. -/
theorem TypeExpr.exists_ofSource {t : TypeExpr} {text : String} (h : Prints (.n .type) false text.toList true [] t) {x : String}
    (hx : IsName x) (file : Option String) : ∃ (q : Program) (v : VarDecl), Program.ofSource ("var " ++ x ++ " " ++ text) file = .ok q
      ∧ q.decls = [.var v] ∧ v.name = x ∧ v.type.unplaced = t.unplaced := by
  have htext : ("var " ++ x ++ " " ++ text).toList = (['v', 'a', 'r'] ++ [' ']) ++ (x.toList ++ (' ' :: text.toList)) := by
    simp only [String.toList_append, List.append_assoc]
    rfl
  have hvar : Prints (.n .varDecl) false ("var " ++ x ++ " " ++ text).toList true [] ⟨x, t, {}⟩ :=
    htext ▸ ((prints_typed hx h).node .varTyped rfl).alike (congrArg (VarDecl.mk · t.unplaced {}) String.ofList_toList)
  obtain ⟨q, hq, hbare⟩ := Program.ofSource_of_prints (prints_alone ((hvar.last.node .declVar rfl).alike rfl)) file
  obtain ⟨d, hdecls, hd⟩ := List.map_eq_singleton_iff.mp hbare
  cases d with
  | var v =>
    have hv : v.strip = VarDecl.strip ⟨x, t, {}⟩ := Decl.var.inj hd
    exact ⟨q, v, hq, hdecls, (VarDecl.mk.inj hv).1, (VarDecl.mk.inj hv).2.1⟩
  | const _ | struct _ | func _ | foreign _ => cases hd

/-- A well-formed declaration of a variable is read back. -/
theorem VarDecl.exists_ofSource {d : VarDecl} (h : d.IsWellFormed) (file : Option String) :
    ∃ (q : Program) (e : VarDecl), Program.ofSource d.source file = .ok q ∧ q.decls = [.var e] ∧ e.name = d.name
      ∧ e.type.unplaced = d.type.unplaced :=
  TypeExpr.exists_ofSource (d.type.prints h.2 [] Lexeme.ends_nil) h.1 file

namespace Ty

variable {structs : List String} {t u : Ty}

/-- The declaration of a variable by the text of a type. -/
def declared (t : Ty) (name : String) : VarDecl := { name, type := t.written }

theorem source_declared (t : Ty) (name : String) : (t.declared name).source = "var " ++ name ++ " " ++ t.text := by
  rw [declared, VarDecl.source, source_written]

/-- Types that are written alike are the same. -/
theorem eq_of_text_eq (hnames : ∀ name ∈ structs, IsName name) (ht : t.IsWellFormed structs ∨ t = .void)
    (hu : u.IsWellFormed structs ∨ u = .void) (h : t.text = u.text) : t = u := by
  let c : Catalog := { globals := structs.map fun name => { name, kind := .struct, level := .global } }
  have hc : c.HasStructs structs := by
    intro name hname
    have hfind : (c.lookupGlobal name).isSome = true :=
      List.find?_isSome.mpr ⟨_, List.mem_map_of_mem hname, decide_eq_true rfl⟩
    obtain ⟨s, hs⟩ := Option.isSome_iff_exists.mp hfind
    obtain ⟨_, -, rfl⟩ := List.mem_map.mp (List.mem_of_find?_eq_some hs)
    exact ⟨hnames name hname, _, hs, rfl⟩
  have hx : IsName "x" := ⟨rfl, rfl⟩
  obtain ⟨q, d, hq, hd, -, hdt⟩ := VarDecl.exists_ofSource (d := t.declared "x") ⟨hx, isWellFormed_written hnames t ht⟩ none
  obtain ⟨q', e, hq', he, -, heu⟩ := VarDecl.exists_ofSource (d := u.declared "x") ⟨hx, isWellFormed_written hnames u hu⟩ none
  rw [source_declared, h, ← source_declared, hq'] at hq
  obtain rfl := Except.ok.inj hq
  obtain rfl := Decl.var.inj (List.cons.inj (hd.symm.trans he)).1
  have hdt := TypeExpr.resolve_of_unplaced hdt (resolve_written hc none t true (ht.imp_right fun hvoid => ⟨rfl, hvoid⟩))
  have hdu := TypeExpr.resolve_of_unplaced heu (resolve_written hc none u true (hu.imp_right fun hvoid => ⟨rfl, hvoid⟩))
  exact Except.ok.inj (hdt.symm.trans hdu)

end Ty

end FlatScope
