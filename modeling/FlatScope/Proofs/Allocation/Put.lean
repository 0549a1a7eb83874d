/-
  One statement in the place of another. `Stmt.Puts` says of two statements that they differ only in one of the statements
  inside, wherever it is. If these are single statements that declare nothing, everything around them has its number in both
  (`Stmt.AllPut.get`), declares the same (`Stmt.AllPut.declareAlike`), and is typed if they are (`Stmt.AllPut.areTyped_iff`).
-/
import FlatScope.Proofs.Notes.Stmt
import FlatScope.Proofs.Totality.Numbers
import FlatScope.Proofs.Typing.Rules

namespace FlatScope

namespace Stmt

mutual

/-- The second statement is what the first one is with `new` in the place of a statement `old`. The place is the number
of the statement in it, where the first statement has number 0. -/
inductive Puts (old new : Stmt) : Nat → Stmt → Stmt → Prop
  | here : Puts old new 0 old new
  | inIf {k : Nat} {c : Expr} {body body' : List Stmt} {braces : Braces} {o : Option Stmt} {span : Span}
      (h : AllPut old new k body body') : Puts old new (k + 1) (.ifThen c body braces o span) (.ifThen c body' braces o span)
  | inElse {k : Nat} {c : Expr} {body : List Stmt} {braces : Braces} {o o' : Option Stmt} {span : Span}
      (h : ElsePut old new k o o') :
    Puts old new (sizes body + k + 1) (.ifThen c body braces o span) (.ifThen c body braces o' span)
  | inWhile {k : Nat} {c : Expr} {body body' : List Stmt} {braces : Braces} {span : Span} (h : AllPut old new k body body') :
    Puts old new (k + 1) (.whileDo c body braces span) (.whileDo c body' braces span)
  | inBlock {k : Nat} {body body' : List Stmt} {span : Span} (h : AllPut old new k body body') :
    Puts old new (k + 1) (.block body span) (.block body' span)

/-- The same of what follows an `else`. A block there has no number of its own. -/
inductive ElsePut (old new : Stmt) : Nat → Option Stmt → Option Stmt → Prop
  | elseIf {k : Nat} {s s' : Stmt} (hs : s.isIf = true) (hs' : s'.isIf = true) (h : Puts old new k s s') :
    ElsePut old new k (some s) (some s')
  | block {k : Nat} {body body' : List Stmt} {span : Span} (h : AllPut old new k body body') :
    ElsePut old new k (some (.block body span)) (some (.block body' span))

/-- The same of one of the statements in a row. -/
inductive AllPut (old new : Stmt) : Nat → List Stmt → List Stmt → Prop
  | head {k : Nat} {s s' : Stmt} {ss : List Stmt} (h : Puts old new k s s') : AllPut old new k (s :: ss) (s' :: ss)
  | tail {k : Nat} {s : Stmt} {ss ss' : List Stmt} (h : AllPut old new k ss ss') :
    AllPut old new (s.size + k) (s :: ss) (s :: ss')

end

variable {old new s s' : Stmt} {o o' : Option Stmt} {ss ss' : List Stmt} {k : Nat}

theorem AllPut.append_right (rest : List Stmt) : {k : Nat} → {ss ss' : List Stmt} → AllPut old new k ss ss' →
    AllPut old new k (ss ++ rest) (ss' ++ rest)
  | _, _, _, .head h => .head h
  | _, _, _, .tail h => .tail (h.append_right rest)

theorem AllPut.append_left (h : AllPut old new k ss ss') (before : List Stmt) :
    AllPut old new (sizes before + k) (before ++ ss) (before ++ ss') := by
  induction before with
  | nil => rwa [sizes, Nat.zero_add]
  | cons s before ih =>
    rw [sizes, Nat.add_assoc]
    exact .tail ih

theorem Puts.isIf (h : Puts old new k s s') (hnew : new.isIf = false) (hs' : s'.isIf = true) {new' s'' : Stmt}
    (h' : Puts new new' k s' s'') : s''.isIf = true := by
  cases h' with
  | here =>
    cases h with
    | here => exact absurd hs' (Bool.eq_false_iff.mp hnew)
  | inIf | inElse => rfl
  | inWhile | inBlock => cases hs'

mutual

theorem Puts.exists_put (hnew : new.isIf = false) (new' : Stmt) : {k : Nat} → {s s' : Stmt} → Puts old new k s s' →
    ∃ s'', Puts new new' k s' s''
  | _, _, _, .here => ⟨new', .here⟩
  | _, _, _, .inIf h => (h.exists_put hnew new').elim fun _ h => ⟨_, .inIf h⟩
  | _, _, _, .inElse h => (h.exists_put hnew new').elim fun _ h => ⟨_, .inElse h⟩
  | _, _, _, .inWhile h => (h.exists_put hnew new').elim fun _ h => ⟨_, .inWhile h⟩
  | _, _, _, .inBlock h => (h.exists_put hnew new').elim fun _ h => ⟨_, .inBlock h⟩

theorem ElsePut.exists_put (hnew : new.isIf = false) (new' : Stmt) : {k : Nat} → {o o' : Option Stmt} → ElsePut old new k o o' →
    ∃ o'', ElsePut new new' k o' o''
  | _, _, _, .elseIf _ hs' h => (h.exists_put hnew new').elim fun _ h' => ⟨_, .elseIf hs' (h.isIf hnew hs' h') h'⟩
  | _, _, _, .block h => (h.exists_put hnew new').elim fun _ h => ⟨_, .block h⟩

/-- What has been put into a row can be replaced once more. -/
theorem AllPut.exists_put (hnew : new.isIf = false) (new' : Stmt) : {k : Nat} → {ss ss' : List Stmt} → AllPut old new k ss ss' →
    ∃ ss'', AllPut new new' k ss' ss''
  | _, _, _, .head h => (h.exists_put hnew new').elim fun _ h => ⟨_, .head h⟩
  | _, _, _, .tail h => (h.exists_put hnew new').elim fun _ h => ⟨_, .tail h⟩

end

/-! ## Numbers -/

/-- A statement comes first in reading order. -/
theorem getElem?_flatten_zero (s : Stmt) : s.flatten[0]? = some s := by
  cases s <;> rfl

mutual

theorem Puts.get : {k : Nat} → {s s' : Stmt} → Puts old new k s s' → s.flatten[k]? = some old ∧ s'.flatten[k]? = some new
  | _, _, _, .here => ⟨getElem?_flatten_zero old, getElem?_flatten_zero new⟩
  | _, _, _, .inIf h => by
    obtain ⟨hold, hnew⟩ := h.get
    rw [flatten, flatten, List.cons_append, List.cons_append, List.getElem?_cons_succ, List.getElem?_cons_succ,
      List.getElem?_append_left (List.getElem?_eq_some_iff.mp hold).1,
      List.getElem?_append_left (List.getElem?_eq_some_iff.mp hnew).1]
    exact ⟨hold, hnew⟩
  | _, _, _, .inElse h => by
    obtain ⟨hold, hnew⟩ := h.get
    rw [flatten, flatten, List.cons_append, List.cons_append, List.getElem?_cons_succ, List.getElem?_cons_succ,
      ← length_flattenAll, List.getElem?_append_right (Nat.le_add_right _ _), List.getElem?_append_right (Nat.le_add_right _ _),
      Nat.add_sub_cancel_left]
    exact ⟨hold, hnew⟩
  | _, _, _, .inWhile h => by
    rw [flatten, flatten, List.getElem?_cons_succ, List.getElem?_cons_succ]
    exact h.get
  | _, _, _, .inBlock h => by
    rw [flatten, flatten, List.getElem?_cons_succ, List.getElem?_cons_succ]
    exact h.get

theorem ElsePut.get : {k : Nat} → {o o' : Option Stmt} → ElsePut old new k o o' →
    (flattenElse o)[k]? = some old ∧ (flattenElse o')[k]? = some new
  | _, _, _, .elseIf hs hs' h => by
    rw [flattenElse_of_isIf hs, flattenElse_of_isIf hs']
    exact h.get
  | _, _, _, .block h => h.get

/-- The two statements have the number of the place. -/
theorem AllPut.get : {k : Nat} → {ss ss' : List Stmt} → AllPut old new k ss ss' →
    (flattenAll ss)[k]? = some old ∧ (flattenAll ss')[k]? = some new
  | _, _, _, .head h => by
    obtain ⟨hold, hnew⟩ := h.get
    rw [flattenAll, flattenAll, List.getElem?_append_left (List.getElem?_eq_some_iff.mp hold).1,
      List.getElem?_append_left (List.getElem?_eq_some_iff.mp hnew).1]
    exact ⟨hold, hnew⟩
  | _, _, _, .tail (s := s) h => by
    obtain ⟨hold, hnew⟩ := h.get
    rw [flattenAll, flattenAll, ← length_flatten, List.getElem?_append_right (Nat.le_add_right _ _),
      List.getElem?_append_right (Nat.le_add_right _ _), Nat.add_sub_cancel_left]
    exact ⟨hold, hnew⟩

end

/-! ## Sizes -/

theorem elseSize_of_isIf (h : s.isIf = true) : elseSize (some s) = s.size := by
  cases s with
  | ifThen => rw [elseSize, size]
  | _ => cases h

mutual

theorem Puts.size_eq (hsize : old.size = new.size) : {k : Nat} → {s s' : Stmt} → Puts old new k s s' → s.size = s'.size
  | _, _, _, .here => hsize
  | _, _, _, .inIf h => by rw [size, size, h.sizes_eq hsize]
  | _, _, _, .inElse h => by rw [size, size, h.size_eq hsize]
  | _, _, _, .inWhile h => by rw [size, size, h.sizes_eq hsize]
  | _, _, _, .inBlock h => by rw [size, size, h.sizes_eq hsize]

theorem ElsePut.size_eq (hsize : old.size = new.size) : {k : Nat} → {o o' : Option Stmt} → ElsePut old new k o o' →
    elseSize o = elseSize o'
  | _, _, _, .elseIf hs hs' h => by rw [elseSize_of_isIf hs, elseSize_of_isIf hs', h.size_eq hsize]
  | _, _, _, .block h => h.sizes_eq hsize

theorem AllPut.sizes_eq (hsize : old.size = new.size) : {k : Nat} → {ss ss' : List Stmt} → AllPut old new k ss ss' →
    sizes ss = sizes ss'
  | _, _, _, .head h => by rw [sizes, sizes, h.size_eq hsize]
  | _, _, _, .tail h => by rw [sizes, sizes, h.sizes_eq hsize]

end

/-! ## Types -/

theorem elseTyped_of_isIf {Γ : Context} {inLoop : Bool} {n : Nat} (h : s.isIf = true) :
    ElseTyped Γ inLoop n (some s) ↔ s.IsTyped Γ inLoop n := by
  cases s with
  | ifThen => rw [ElseTyped, IsTyped]
  | _ => cases h

variable {Γ : Context} {m : Nat}

mutual

theorem Puts.isTyped_iff (hsize : old.size = new.size)
    (htyped : ∀ inLoop, old.IsTyped Γ inLoop m ↔ new.IsTyped Γ inLoop m) : {k : Nat} → {s s' : Stmt} →
    Puts old new k s s' → (inLoop : Bool) → (n : Nat) → n + k = m → (s.IsTyped Γ inLoop n ↔ s'.IsTyped Γ inLoop n)
  | _, _, _, .here, inLoop, n, hn => by
    obtain rfl : n = m := hn
    exact htyped inLoop
  | _, _, _, .inIf h, inLoop, n, hn => by
    rw [IsTyped, IsTyped, h.areTyped_iff hsize htyped inLoop (n + 1) (by omega), h.sizes_eq hsize]
  | _, _, _, .inElse h, inLoop, n, hn => by
    rw [IsTyped, IsTyped, h.elseTyped_iff hsize htyped inLoop _ (by omega)]
  | _, _, _, .inWhile h, inLoop, n, hn => by
    rw [IsTyped, IsTyped, h.areTyped_iff hsize htyped true (n + 1) (by omega)]
  | _, _, _, .inBlock h, inLoop, n, hn => by
    rw [IsTyped, IsTyped, h.areTyped_iff hsize htyped inLoop (n + 1) (by omega)]

theorem ElsePut.elseTyped_iff (hsize : old.size = new.size)
    (htyped : ∀ inLoop, old.IsTyped Γ inLoop m ↔ new.IsTyped Γ inLoop m) : {k : Nat} → {o o' : Option Stmt} →
    ElsePut old new k o o' → (inLoop : Bool) → (n : Nat) → n + k = m → (ElseTyped Γ inLoop n o ↔ ElseTyped Γ inLoop n o')
  | _, _, _, .elseIf hs hs' h, inLoop, n, hn => by
    rw [elseTyped_of_isIf hs, elseTyped_of_isIf hs']
    exact h.isTyped_iff hsize htyped inLoop n hn
  | _, _, _, .block h, inLoop, n, hn => by
    rw [ElseTyped, ElseTyped]
    exact h.areTyped_iff hsize htyped inLoop n hn

/-- Statements are typed if they are with a statement in the place of another that is typed where this one is. -/
theorem AllPut.areTyped_iff (hsize : old.size = new.size)
    (htyped : ∀ inLoop, old.IsTyped Γ inLoop m ↔ new.IsTyped Γ inLoop m) : {k : Nat} → {ss ss' : List Stmt} →
    AllPut old new k ss ss' → (inLoop : Bool) → (n : Nat) → n + k = m → (AreTyped Γ inLoop n ss ↔ AreTyped Γ inLoop n ss')
  | _, _, _, .head h, inLoop, n, hn => by
    rw [AreTyped, AreTyped, h.isTyped_iff hsize htyped inLoop n hn, h.size_eq hsize]
  | _, _, _, .tail h, inLoop, n, hn => by
    rw [AreTyped, AreTyped, h.areTyped_iff hsize htyped inLoop _ (by omega)]

end

/-! ## Declarations -/

/-- Two statements declare the same: they are the same statement, or they declare nothing. -/
def DeclareAlike (s s' : Stmt) : Prop := s = s' ∨ s.declared? = none ∧ s'.declared? = none

theorem forall₂_declareAlike_self (ss : List Stmt) : List.Forall₂ DeclareAlike ss ss :=
  List.forall₂_same.mpr fun _ _ => .inl rfl

mutual

theorem Puts.declareAlike (h : List.Forall₂ DeclareAlike old.flatten new.flatten) : {k : Nat} → {s s' : Stmt} →
    Puts old new k s s' → List.Forall₂ DeclareAlike s.flatten s'.flatten
  | _, _, _, .here => h
  | _, _, _, .inIf hb => .cons (.inr ⟨rfl, rfl⟩) (List.rel_append (hb.declareAlike h) (forall₂_declareAlike_self _))
  | _, _, _, .inElse ho => .cons (.inr ⟨rfl, rfl⟩) (List.rel_append (forall₂_declareAlike_self _) (ho.declareAlike h))
  | _, _, _, .inWhile hb => .cons (.inr ⟨rfl, rfl⟩) (hb.declareAlike h)
  | _, _, _, .inBlock hb => .cons (.inr ⟨rfl, rfl⟩) (hb.declareAlike h)

theorem ElsePut.declareAlike (h : List.Forall₂ DeclareAlike old.flatten new.flatten) : {k : Nat} → {o o' : Option Stmt} →
    ElsePut old new k o o' → List.Forall₂ DeclareAlike (flattenElse o) (flattenElse o')
  | _, _, _, .elseIf hs hs' hput => by
    rw [flattenElse_of_isIf hs, flattenElse_of_isIf hs']
    exact hput.declareAlike h
  | _, _, _, .block hb => hb.declareAlike h

/-- Statements declare the same if the two statements do. -/
theorem AllPut.declareAlike (h : List.Forall₂ DeclareAlike old.flatten new.flatten) : {k : Nat} → {ss ss' : List Stmt} →
    AllPut old new k ss ss' → List.Forall₂ DeclareAlike (flattenAll ss) (flattenAll ss')
  | _, _, _, .head hs => List.rel_append (hs.declareAlike h) (forall₂_declareAlike_self _)
  | _, _, _, .tail hs => List.rel_append (forall₂_declareAlike_self _) (hs.declareAlike h)

end

theorem filterMap_declared? (h : List.Forall₂ DeclareAlike ss ss') : ss.filterMap declared? = ss'.filterMap declared? := by
  induction h with
  | nil => rfl
  | cons hs _ ih =>
    obtain rfl | ⟨hs, hs'⟩ := hs
    · rw [List.filterMap_cons, List.filterMap_cons, ih]
    · rw [List.filterMap_cons_none hs, List.filterMap_cons_none hs', ih]

/-- What declares the same adds the same to what is declared before. -/
theorem Declare.of_declareAlike {Γ : Context} {function : String} {before locals : List Symbol} {n : Nat}
    (h : Declare Γ function before n ss locals) (halike : List.Forall₂ DeclareAlike ss ss') :
    Declare Γ function before n ss' locals := by
  induction h generalizing ss' with
  | nil =>
    cases halike
    exact .nil
  | var ht _ ih =>
    obtain _ | ⟨rfl | ⟨hs, -⟩, hss⟩ := halike
    · exact .var ht (ih hss)
    · cases hs
  | label _ ih =>
    obtain _ | ⟨rfl | ⟨hs, -⟩, hss⟩ := halike
    · exact .label (ih hss)
    · cases hs
  | other hs _ ih =>
    obtain _ | ⟨rfl | ⟨-, hs'⟩, hss⟩ := halike
    · exact .other hs (ih hss)
    · exact .other hs' (ih hss)

end Stmt

/-- A function is typed if it is with a statement in the place of another, where neither declares anything, and the one is typed
where the other is. -/
theorem FuncDecl.isTyped_of_allPut {b : Builtins} {c : Catalog} {s : Signature} {d : FuncDecl} {body : List Stmt} {old new : Stmt}
    {k : Nat} (h : Stmt.AllPut old new k d.body body) (halike : List.Forall₂ Stmt.DeclareAlike old.flatten new.flatten)
    (htyped : ∀ locals, Stmt.Declare ⟨b, c.globals, c.structs, []⟩ d.name (d.headLocals s) 0 (Stmt.flattenAll d.body) locals →
      ∀ inLoop, old.IsTyped ⟨b, c.globals, c.structs, locals⟩ inLoop k ↔ new.IsTyped ⟨b, c.globals, c.structs, locals⟩ inLoop k) :
    d.IsTyped b c s ↔ FuncDecl.IsTyped b c s { d with body } := by
  have hsize : old.size = new.size := by
    rw [← Stmt.length_flatten, ← Stmt.length_flatten, halike.length_eq]
  have hflat := h.declareAlike halike
  have hback : List.Forall₂ Stmt.DeclareAlike (Stmt.flattenAll body) (Stmt.flattenAll d.body) :=
    hflat.flip.imp fun _ _ hs => hs.imp Eq.symm And.symm
  have hnames : d.localNames s = FuncDecl.localNames { d with body } s := by
    rw [localNames, Stmt.filterMap_declared? hflat]
    rfl
  constructor
  · rintro ⟨hdistinct, locals, hdeclare, hbody⟩
    exact ⟨hnames ▸ hdistinct, locals, hdeclare.of_declareAlike hflat,
      (h.areTyped_iff hsize (htyped locals hdeclare) false 0 (Nat.zero_add k)).mp hbody⟩
  · rintro ⟨hdistinct, locals, hdeclare, hbody⟩
    have hdeclare := hdeclare.of_declareAlike hback
    exact ⟨hnames ▸ hdistinct, locals, hdeclare,
      (h.areTyped_iff hsize (htyped locals hdeclare) false 0 (Nat.zero_add k)).mpr hbody⟩

end FlatScope
