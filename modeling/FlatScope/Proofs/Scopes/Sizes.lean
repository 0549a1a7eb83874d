/-
  Lengths of arrays in the types of variables. While the scope of a function is filled, the type of a variable is resolved among
  what stands in front of it (`FuncDecl.Collects.read`). A length there is a global constant, and in the finished scope its name
  stands for the same constant unless the variable itself or a label further on has the name; such a declaration hides the
  constant only when the scope is complete (`FuncDecl.Collects.isSized`).
-/
import FlatScope.Proofs.Resolution.Types
import FlatScope.Proofs.Scopes.Collected

namespace FlatScope

/-! ## Scopes as they are filled -/

/-- A scope as it is in front of the statement with number `n`. -/
def LocalScope.before (scope : LocalScope) (n : Nat) : LocalScope :=
  { scope with symbols := scope.symbols.filter fun s => s.order < n }

/-- A scope that goes on from another one with what is declared from the statement with number `n` on. -/
theorem LocalScope.before_eq {scope front : LocalScope} {rest : List Symbol} {n : Nat} (h : scope.symbols = front.symbols ++ rest)
    (hfunction : scope.function = front.function) (hfront : ∀ x ∈ front.symbols, x.order < (n : Int))
    (hrest : ∀ x ∈ rest, (n : Int) ≤ x.order) : scope.before n = front := by
  have hkept : front.symbols.filter (fun s => decide (s.order < (n : Int))) = front.symbols :=
    List.filter_eq_self.mpr fun x hx => decide_eq_true (hfront x hx)
  have hdropped : rest.filter (fun s => decide (s.order < (n : Int))) = [] :=
    List.filter_eq_nil_iff.mpr fun x hx hlt => absurd (hrest x hx) (Int.not_le.mpr (of_decide_eq_true hlt))
  unfold before
  rw [h, List.filter_append, hkept, hdropped, List.append_nil, hfunction]

/-- What stands in front of a statement is seen by it. -/
theorem LocalScope.get?_before_eq_none {scope : LocalScope} {n : Nat} {name : String}
    (h : ∀ x, (scope.before n).get? name = some x → x.isVisible (some n) = false) : (scope.before n).get? name = none := by
  by_contra hsome
  obtain ⟨x, hx⟩ := Option.ne_none_iff_exists'.mp hsome
  have hlt : x.order < (n : Int) := of_decide_eq_true (List.mem_filter.mp (List.mem_of_find?_eq_some hx)).2
  have hvisible : x.isVisible (some n) = true := Catalog.isVisible_iff.mpr (.inr (Int.le_of_lt hlt))
  exact Bool.false_ne_true ((h x hx).symm.trans hvisible)

/-- A symbol is declared by a statement, the number of which is one of `m` numbers from `n` on. -/
structure Symbol.IsAmong (s : Symbol) (n m : Nat) : Prop where
  from_le : (n : Int) ≤ s.order
  lt : s.order < n + m
  kind : s.kind = .var ∨ s.kind = .label

namespace Stmt

variable {c : Catalog} {scope : LocalScope} {n : Nat}

theorem isAmong_of_symbol? {s : Stmt} {symbol : Symbol} (h : s.symbol? c n = .ok (some symbol)) : symbol.IsAmong n 1 := by
  cases s with
  | var d =>
    obtain ⟨t, -, h⟩ := Except.bind_eq_ok.mp h
    obtain rfl := Option.some.inj (Except.ok.inj h)
    exact ⟨Int.le_refl _, Int.lt_succ n, .inl rfl⟩
  | label name index span =>
    obtain rfl := Option.some.inj (Except.ok.inj h)
    exact ⟨Int.le_refl _, Int.lt_succ n, .inr rfl⟩
  | ifThen _ _ braces _ _ | whileDo _ _ braces _ => cases braces <;> exact nomatch h
  | assign _ _ _ | call _ _ | breakLoop _ | continueLoop _ | goto _ _ _ | block _ _ | foreign _ => exact nomatch h

/-- Reading declarations adds to a scope what the statements declare, by their numbers. -/
theorem symbols_collect (c : Catalog) (scope : LocalScope) (n : Nat) (ss : List Stmt) :
    ∃ rest, (collect c scope n ss).scope.symbols = scope.symbols ++ rest ∧ ∀ x ∈ rest, x.IsAmong n ss.length := by
  induction ss generalizing scope n with
  | nil => exact ⟨[], (List.append_nil _).symm, List.forall_mem_nil _⟩
  | cons s ss ih =>
    have hlater {x : Symbol} (hx : x.IsAmong (n + 1) ss.length) : x.IsAmong n (s :: ss).length := by
      obtain ⟨hfrom, hlt, hkind⟩ := hx
      rw [List.length_cons]
      exact ⟨by omega, by omega, hkind⟩
    rw [collect]
    split
    · exact ⟨[], (List.append_nil _).symm, List.forall_mem_nil _⟩
    · obtain ⟨rest, hrest, hamong⟩ := ih scope (n + 1)
      exact ⟨rest, hrest, fun x hx => hlater (hamong x hx)⟩
    · rename_i symbol hsymbol
      obtain ⟨-, hadd⟩ | ⟨-, halt, hadd, -⟩ := scope.add_cases symbol
      · rw [hadd]
        obtain ⟨rest, hrest, hamong⟩ := ih (scope.extend [symbol]) (n + 1)
        refine ⟨symbol.owned scope.function :: rest, ?_, List.forall_mem_cons.mpr ⟨?_, fun x hx => hlater (hamong x hx)⟩⟩
        · dsimp only
          rw [hrest, LocalScope.extend, List.append_assoc]
          rfl
        · obtain ⟨hfrom, hlt, hkind⟩ := isAmong_of_symbol? hsymbol
          rw [List.length_cons]
          exact ⟨hfrom, show symbol.order < _ by omega, hkind⟩
      · rw [hadd]
        exact ⟨[], (List.append_nil _).symm, List.forall_mem_nil _⟩

/-- Where declarations are read without a halt, each statement declares nothing or a symbol of a new name. -/
theorem collect_cons {s : Stmt} {ss : List Stmt} (h : (collect c scope n (s :: ss)).halt = none) :
    (s.symbol? (c.within scope) n = .ok none ∧ collect c scope n (s :: ss) = collect c scope (n + 1) ss)
      ∨ ∃ symbol, s.symbol? (c.within scope) n = .ok (some symbol) ∧ scope.add symbol = .ok (scope.extend [symbol])
        ∧ collect c scope n (s :: ss) = collect c (scope.extend [symbol]) (n + 1) ss := by
  rw [collect] at h ⊢
  cases hs : s.symbol? (c.within scope) n with
  | error halt =>
    rw [hs] at h
    cases h
  | ok symbol? =>
    rw [hs] at h
    cases symbol? with
    | none => exact .inl ⟨rfl, rfl⟩
    | some symbol =>
      dsimp only at h ⊢
      obtain ⟨-, hadd⟩ | ⟨-, halt, hadd, -⟩ := scope.add_cases symbol
      · exact .inr ⟨symbol, rfl, hadd, by rw [hadd]⟩
      · rw [hadd] at h
        cases h

/-- Declarations that are read without a halt are read one part after the other. -/
theorem collect_append {xs ys : List Stmt} (h : (collect c scope n (xs ++ ys)).halt = none) :
    (collect c scope n xs).halt = none
      ∧ collect c scope n (xs ++ ys) = collect c (collect c scope n xs).scope (n + xs.length) ys := by
  induction xs generalizing scope n with
  | nil => exact ⟨rfl, rfl⟩
  | cons s xs ih =>
    have hcount : n + (s :: xs).length = n + 1 + xs.length := by
      rw [List.length_cons, Nat.add_assoc, Nat.add_comm 1]
    rw [List.cons_append] at h ⊢
    rw [hcount]
    obtain ⟨hs, hrest⟩ | ⟨symbol, hs, hadd, hrest⟩ := collect_cons h
    · rw [hrest] at h ⊢
      rw [collect, hs]
      exact ih h
    · rw [hrest] at h ⊢
      rw [collect, hs]
      dsimp only
      rw [hadd]
      exact ih h

end Stmt

/-! ## What a name stands for -/

/-- A symbol is one that the statement with number `n` declares, or a label further on. -/
def Symbol.Hides (s : Symbol) (n : Nat) : Prop := s.order = n ∨ s.kind = .label ∧ (n : Int) < s.order

namespace Catalog

variable {c : Catalog} {scope : LocalScope} {n : Nat} {name : String} {s x : Symbol}

/-- A constant that is seen in a scope of a function is a global one, and the scope has no symbol of its name that is seen. -/
theorem lookup_within_of_const (hown : scope.IsOwn) (h : (c.within scope).lookup name (some n) = some s) (hs : s.kind = .const) :
    c.lookupGlobal name = some s ∧ ∀ x, scope.get? name = some x → x.isVisible (some n) = false := by
  have hvisible (x : Symbol) (hx : scope.get? name = some x) : x.isVisible (some n) = false := by
    by_contra hv
    rw [Bool.not_eq_false] at hv
    have hfilter : (((c.within scope).current.bind fun scope => scope.get? name).filter fun s => s.isVisible (some n)) = some x :=
      Option.filter_eq_some_iff.mpr ⟨hx, hv⟩
    rw [lookup, hfilter] at h
    obtain rfl := Option.some.inj h
    exact hown x (List.mem_of_find?_eq_some hx) hs
  refine ⟨?_, hvisible⟩
  have hnone : (((c.within scope).current.bind fun scope => scope.get? name).filter fun s => s.isVisible (some n)) = none :=
    Option.filter_eq_none_iff.mpr fun x hx => by simp [hvisible x hx]
  rw [lookup, hnone] at h
  exact h

theorem lookup_within_of_visible (hx : scope.get? name = some x) (hv : x.isVisible (some n) = true) :
    (c.within scope).lookup name (some n) = some x := by
  have hfilter : (((c.within scope).current.bind fun scope => scope.get? name).filter fun s => s.isVisible (some n)) = some x :=
    Option.filter_eq_some_iff.mpr ⟨hx, hv⟩
  rw [lookup, hfilter]

theorem lookup_within_of_hidden (h : ∀ x, scope.get? name = some x → x.isVisible (some n) = false) :
    (c.within scope).lookup name (some n) = c.lookupGlobal name := by
  have hnone : (((c.within scope).current.bind fun scope => scope.get? name).filter fun s => s.isVisible (some n)) = none :=
    Option.filter_eq_none_iff.mpr fun x hx => by simp [h x hx]
  rw [lookup, hnone]
  rfl

end Catalog

/-- How a variable with number `i` has got its type, among the global symbols and structs of `c`, and what the lengths in the
type stand for when the scope is complete. -/
structure VarDecl.IsSized (c : Catalog) (scope : LocalScope) (i : Nat) (v : VarDecl) (t : Ty) : Prop where
  /-- The type is resolved in the scope as it is in front of the variable. -/
  read : v.type.resolve (c.within (scope.before i)) (some i) false = .ok t
  declared : v.symbol scope.function i t ∈ scope.symbols
  /-- Each length is a constant there, and in the complete scope its name stands for the same one unless it is hidden. -/
  constant : ∀ name ∈ v.type.sizeNames, ∃ s k, (c.within (scope.before i)).lookup name (some i) = some s
    ∧ s.kind = .const ∧ s.ty = some .int ∧ s.value = some (.int k) ∧ 0 < k
    ∧ ((c.within scope).lookup name (some i) = some s ↔ ∀ x ∈ scope.symbols, x.name = name → ¬x.Hides i)
    ∧ ∀ x ∈ scope.symbols, x.name = name → x.Hides i → (c.within scope).lookup name (some i) = some x
  /-- The complete scope gives the type again exactly if no length is hidden. -/
  again : v.type.resolve (c.within scope) (some i) false = .ok t
    ↔ ∀ x ∈ scope.symbols, x.name ∈ v.type.sizeNames → ¬x.Hides i

namespace FuncDecl

variable {c : Catalog} {s : Signature} {d : FuncDecl} {scope : LocalScope} {i : Nat}

/-- This is the scope of a function when the first `n` of its statements have been read, without a halt so far. -/
def Reads (c : Catalog) (s : Signature) (d : FuncDecl) (n : Nat) (scope : LocalScope) : Prop :=
  ∃ head, LocalScope.addAll { function := d.name } (d.headSymbols s) = (head, none)
    ∧ Stmt.collect c head 0 ((Stmt.flattenAll d.body).take n) = { scope, count := n }

/-- What a function declares before its body has no number. -/
theorem order_of_mem_head {head : LocalScope} {halt : Option Halt}
    (h : LocalScope.addAll { function := d.name } (d.headSymbols s) = (head, halt)) {x : Symbol} (hx : x ∈ head.symbols) :
    x.order = -1 ∧ (x.kind = .result ∨ x.kind = .param) := by
  rw [← show (LocalScope.addAll { function := d.name } (d.headSymbols s)).1 = head by rw [h]] at hx
  obtain hx | ⟨y, owner, hy, rfl⟩ := LocalScope.mem_addAll hx
  · cases hx
  · obtain ⟨-, hkind, horder⟩ := mem_headSymbols hy
    exact ⟨horder, hkind⟩

/-- In front of the statement with number `i` the scope is what the complete scope was there, and it goes on from this. -/
theorem Collects.read (h : d.Collects c s scope) {stmt : Stmt} (hi : (Stmt.flattenAll d.body)[i]? = some stmt) :
    d.Reads c s i (scope.before i)
      ∧ (∃ ss, Stmt.collect c (scope.before i) i (stmt :: ss) = { scope, count := (Stmt.flattenAll d.body).length })
      ∧ ∃ rest, scope.symbols = (scope.before i).symbols ++ rest
        ∧ ∀ x ∈ rest, (i : Int) ≤ x.order ∧ (x.kind = .var ∨ x.kind = .label) := by
  obtain ⟨head, hadd, hcollect⟩ := h
  obtain ⟨hlt, rfl⟩ := List.getElem?_eq_some_iff.mp hi
  generalize hss : (Stmt.flattenAll d.body)[i] :: (Stmt.flattenAll d.body).drop (i + 1) = ss
  have hsplit : (Stmt.flattenAll d.body).take i ++ ss = Stmt.flattenAll d.body := by
    rw [← hss, ← List.drop_eq_getElem_cons hlt, List.take_append_drop]
  have hlength : ((Stmt.flattenAll d.body).take i).length = i := List.length_take_of_le hlt.le
  have hhalt : (Stmt.collect c head 0 ((Stmt.flattenAll d.body).take i ++ ss)).halt = none := by rw [hsplit, hcollect]
  obtain ⟨hnone, hgoesOn⟩ := Stmt.collect_append hhalt
  rw [hsplit, hcollect, hlength, Nat.zero_add] at hgoesOn
  obtain ⟨first, hfirst, hfront⟩ := Stmt.symbols_collect c head 0 ((Stmt.flattenAll d.body).take i)
  have hcount := Stmt.count_collect hnone
  rw [hlength] at hfront
  rw [hlength, Nat.zero_add] at hcount
  generalize hmid : Stmt.collect c head 0 ((Stmt.flattenAll d.body).take i) = mid at hnone hgoesOn hcount hfirst
  obtain ⟨front, count, halt⟩ := mid
  obtain rfl : halt = none := hnone
  obtain rfl : count = i := hcount
  have hfirst : front.symbols = head.symbols ++ first := hfirst
  have hgoesOn : Stmt.collect c front count ss = { scope, count := (Stmt.flattenAll d.body).length } := hgoesOn.symm
  obtain ⟨rest, hrest, hbehind⟩ := Stmt.symbols_collect c front count ss
  have hfunction := Stmt.function_collect c front count ss
  rw [hgoesOn] at hrest hfunction
  have hbefore : scope.before count = front := by
    refine LocalScope.before_eq hrest hfunction ?_ fun x hx => (hbehind x hx).from_le
    rw [hfirst]
    refine List.forall_mem_append.mpr ⟨fun x hx => ?_, fun x hx => ?_⟩
    · have horder := (order_of_mem_head hadd hx).1
      omega
    · have hlt := (hfront x hx).lt
      omega
  rw [hbefore]
  subst hss
  exact ⟨⟨head, hadd, hmid⟩, ⟨_, hgoesOn⟩, rest, hrest, fun x hx => ⟨(hbehind x hx).from_le, (hbehind x hx).kind⟩⟩

/-- A function declares no constants. -/
theorem Collects.isOwn (h : d.Collects c s scope) : scope.IsOwn := by
  obtain ⟨head, hadd, hcollect⟩ := h
  obtain ⟨rest, hrest, hamong⟩ := Stmt.symbols_collect c head 0 (Stmt.flattenAll d.body)
  rw [hcollect] at hrest
  have hrest : scope.symbols = head.symbols ++ rest := hrest
  rw [LocalScope.IsOwn, hrest]
  refine List.forall_mem_append.mpr ⟨fun x hx hconst => ?_, fun x hx hconst => ?_⟩
  · obtain ⟨-, hkind | hkind⟩ := order_of_mem_head hadd hx <;> cases hkind.symm.trans hconst
  · obtain hkind | hkind := (hamong x hx).kind <;> cases hkind.symm.trans hconst

/-- A symbol of a name in the complete scope is seen by the variable with number `i` exactly if it hides what is seen without it,
unless there is a symbol of the name in front. -/
theorem Collects.isVisible_iff (h : d.Collects c s scope) {v : VarDecl} (hi : (Stmt.flattenAll d.body)[i]? = some (.var v))
    {name : String} (hnone : ∀ x, (scope.before i).get? name = some x → x.isVisible (some i) = false) {x : Symbol}
    (hx : scope.get? name = some x) : x.isVisible (some i) = true ↔ x.Hides i := by
  obtain ⟨-, -, rest, hrest, hbehind⟩ := h.read hi
  have hfound := hx
  rw [LocalScope.get?, Symbol.find?, hrest, List.find?_append] at hx
  have hfree : (scope.before i).symbols.find? (fun s => s.name = name) = none := LocalScope.get?_before_eq_none hnone
  rw [hfree, Option.none_or] at hx
  obtain ⟨hle, hkind⟩ := hbehind x (List.mem_of_find?_eq_some hx)
  rw [Catalog.isVisible_iff, Symbol.IsSeen, Symbol.Hides]
  obtain hkind | hkind := hkind
  · simp only [hkind, ne_eq, not_true_eq_false, false_or, reduceCtorEq, false_and, or_false]
    omega
  · simp only [hkind, ne_eq, reduceCtorEq, not_false_eq_true, true_or, true_and, true_iff]
    omega

/-- The type of a variable whose function has read its declarations is resolved in front of the variable. -/
theorem Collects.exists_type (h : d.Collects c s scope) {v : VarDecl} (hi : (Stmt.flattenAll d.body)[i]? = some (.var v)) :
    ∃ t, v.type.resolve (c.within (scope.before i)) (some i) false = .ok t ∧ v.symbol scope.function i t ∈ scope.symbols := by
  obtain ⟨-, ⟨ss, hcollect⟩, -⟩ := h.read hi
  obtain ⟨hsymbol, -⟩ | ⟨symbol, hsymbol, -, hrest⟩ := Stmt.collect_cons (congrArg Collected.halt hcollect)
  · obtain ⟨t, -, hnone⟩ := Except.bind_eq_ok.mp hsymbol
    cases hnone
  · obtain ⟨t, ht, hsymbol⟩ := Except.bind_eq_ok.mp hsymbol
    obtain rfl := Option.some.inj (Except.ok.inj hsymbol)
    refine ⟨t, ht, ?_⟩
    obtain ⟨rest, hsymbols, -⟩ := Stmt.symbols_collect c ((scope.before i).extend [_]) (i + 1) ss
    rw [← hrest, hcollect] at hsymbols
    have hsymbols : scope.symbols = ((scope.before i).symbols ++ [v.symbol scope.function i t]) ++ rest := hsymbols
    rw [hsymbols]
    exact List.mem_append_left _ (List.mem_append_right _ (List.mem_singleton.mpr rfl))

/-- Lengths of arrays stand for the same constants when the scope is complete, unless they are hidden. -/
theorem Collects.isSized (h : d.Collects c s scope) (hnames : scope.names.Nodup) {v : VarDecl}
    (hi : (Stmt.flattenAll d.body)[i]? = some (.var v)) : ∃ t, v.IsSized c scope i t := by
  obtain ⟨t, ht, hdeclared⟩ := h.exists_type hi
  have hown := h.isOwn
  have hownBefore : (scope.before i).IsOwn := fun x hx => hown x (List.mem_of_mem_filter hx)
  have hfound {x : Symbol} {name : String} : scope.get? name = some x ↔ x ∈ scope.symbols ∧ x.name = name :=
    Symbol.find?_eq_some_iff hnames
  -- What a length stands for in front of the variable, and what its name stands for in the end.
  have hlength (name : String) (hname : name ∈ v.type.sizeNames) : ∃ s k, (c.within (scope.before i)).lookup name (some i) = some s
      ∧ (s.kind = .const ∧ s.ty = some .int ∧ s.value = some (.int k) ∧ 0 < k)
      ∧ ((∀ x ∈ scope.symbols, x.name = name → ¬x.Hides i) → (c.within scope).lookup name (some i) = some s)
      ∧ ∀ x ∈ scope.symbols, x.name = name → x.Hides i → (c.within scope).lookup name (some i) = some x := by
    obtain ⟨k, hk, hpositive⟩ := TypeExpr.exists_intConstant? v.type ht name hname
    obtain ⟨s, hs, hkind, hty, hvalue⟩ := Catalog.intConstant?_eq_some hk
    obtain ⟨hglobal, hhidden⟩ := Catalog.lookup_within_of_const hownBefore hs hkind
    refine ⟨s, k, hs, ⟨hkind, hty, hvalue, hpositive⟩, fun hnone => ?_, fun x hx hxname hhides => ?_⟩
    · rw [Catalog.lookup_within_of_hidden fun x hx => ?_, hglobal]
      obtain ⟨hmem, hxname⟩ := hfound.mp hx
      exact Bool.eq_false_iff.mpr fun hv => hnone x hmem hxname ((h.isVisible_iff hi hhidden hx).mp hv)
    · have hx := hfound.mpr ⟨hx, hxname⟩
      exact Catalog.lookup_within_of_visible hx ((h.isVisible_iff hi hhidden hx).mpr hhides)
  refine ⟨t, ht, hdeclared, fun name hname => ?_, fun hagain x hx hname hhides => ?_, fun hnone => ?_⟩
  · obtain ⟨s, k, hs, ⟨hkind, hty, hvalue, hpositive⟩, hsame, hother⟩ := hlength name hname
    refine ⟨s, k, hs, hkind, hty, hvalue, hpositive, ⟨fun hl x hx hxname hhides => ?_, hsame⟩, hother⟩
    obtain rfl := Option.some.inj (hl.symm.trans (hother x hx hxname hhides))
    exact hown _ hx hkind
  · obtain ⟨-, -, -, -, -, hother⟩ := hlength x.name hname
    obtain ⟨k, hk, -⟩ := TypeExpr.exists_intConstant? v.type hagain x.name hname
    obtain ⟨s, hs, hkind, -⟩ := Catalog.intConstant?_eq_some hk
    obtain rfl := Option.some.inj (hs.symm.trans (hother x hx rfl hhides))
    exact hown _ hx hkind
  · have hnamed (allowVoid : Bool) (name : String) :
        (c.within scope).namedType allowVoid name = (c.within (scope.before i)).namedType allowVoid name := rfl
    rw [← ht]
    refine TypeExpr.resolve_congr hnamed v.type (fun name hname => ?_) false
    obtain ⟨s, k, hs, -, hsame, -⟩ := hlength name hname
    refine Catalog.intConstant?_eq_of_lookup ((hsame fun x hx hxname => ?_).trans hs.symm)
    exact hnone x hx (hxname ▸ hname)

end FuncDecl

end FlatScope
