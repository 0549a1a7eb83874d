/-
  Allocations in a source. Where a `continue` can stand, `x := _alloc(T)` can stand too, exactly if the type `T` can be told from an
  expression or is a name with nothing but lengths behind it. It allocates the type that `T` stands for in the declaration of a
  variable of the function, and makes no function fail that holds a pointer to this type in `x` (`Program.exists_allocation`).
  A struct with lengths and a star behind these is a type in a declaration only (`Program.alloc_pointer_refused`).
-/
import FlatScope.Proofs.Allocation.Check
import FlatScope.Proofs.Allocation.Refused
import FlatScope.Proofs.Scopes.Entered

namespace FlatScope

open Grammar in
/-- The tokens of a statement in the place of a `continue` are parsed as what was there, with the statement put in. -/
theorem Program.ofTokens_put {file : Option String} {front back : List Token} {t : Token} (ht : t.kind = .continueKw)
    {p₀ : Program} (h : ofTokens file (front ++ t :: back) = .ok p₀) (s : Derivation (.n .stmt)) (hs : s.fault? = none) :
    ∃ p i k, ofTokens file (front ++ s.tokens ++ back) = .ok p
      ∧ Decl.AllPut (.continueLoop t.span) s.value i k p₀.decls p.decls := by
  obtain ⟨u, hu, hfault, rfl⟩ := exists_derivation h
  obtain hunit | hunit | ⟨u', htokens, hfault', i, k, hput⟩ := Derivation.exists_put ht s hs u front back hu
  · cases hunit
  · cases hunit
  · refine ⟨{ decls := u'.value, file }, i, k, ?_, hput⟩
    rw [← htokens, ofTokens_tokens, hfault' hfault]

/-- Statement `k` of a function, which has come to `e`, allocates the type `t` of its variable `v` with number `n`,
where it is the allocation `stmt` of a type `w` for `x`. -/
structure Entered.Allocates (e : Entered) (b : Builtins) (c : Catalog) (d : FuncDecl) (s : Signature) (k : Nat) (stmt : Stmt)
    (x : String) (w : TypeExpr) (n : Nat) (v : VarDecl) (t : Ty) : Prop where
  declared : v.symbol d.name n t ∈ e.scope.symbols
  /-- A variable in front whose type is written like a pointer to `w` holds a pointer to `t`. -/
  target : ∀ j y, (Stmt.flattenAll d.body)[j]? = some (.var y) → j < k → y.name = x → y.type.unplaced = .pointer w.unplaced {} →
    Site.Stores ⟨b, c.within e.scope, k⟩ x (.pointer t)
  /-- The check of the statement goes through, however many loops are around it. -/
  checked : Site.Stores ⟨b, c.within e.scope, k⟩ x (.pointer t) → ∀ loops, ∃ stmt',
    stmt.check ⟨b, c.within e.scope, d.name⟩ loops k = .ok stmt' ∧ stmt'.IsAllocationOf x w t
  /-- In a function without a problem the statement carries its notes. -/
  noted : Site.Stores ⟨b, c.within e.scope, k⟩ x (.pointer t) → e.problem = none → ∃ stmt',
    e.statements[k]? = some stmt' ∧ stmt'.IsAllocationOf x w t
  /-- The function has no problem exactly if it is typed with an empty block in the place of the statement. -/
  harmless : Site.Stores ⟨b, c.within e.scope, k⟩ x (.pointer t) → ∃ body, Stmt.AllPut stmt (.block [] {}) k d.body body
    ∧ (e.problem = none ↔ FuncDecl.IsTyped b c s { d with body })

namespace FuncDecl

variable {b : Builtins} {c : Catalog} {s : Signature} {d d' : FuncDecl} {e : Entered} {k : Nat} {old stmt : Stmt} {x : String}
  {w : TypeExpr} {t : Ty}

/-- A statement that was put into a body and is checked with success makes no problem, and is found with its notes. -/
theorem Collects.harmless (h : d.Collects c s e.scope) (hd : d.IsWellFormed) (hs : s.params.length = d.params.length)
    (hbody : d.resolveBody b c s = .ok (d', e)) {body : List Stmt} (hput : Stmt.AllPut old stmt k body d.body)
    (hstmt : stmt.IsAllocation x w)
    (hcheck : ∀ loops, ∃ stmt', stmt.check ⟨b, c.within e.scope, d.name⟩ loops k = .ok stmt') :
    ∃ body, Stmt.AllPut stmt (.block [] {}) k d.body body ∧ (e.problem = none ↔ FuncDecl.IsTyped b c s { d with body }) := by
  obtain ⟨hdeclare, hnames, -⟩ := h.declare hd hs b
  have hassign : stmt.isIf = false ∧ stmt.flatten = [stmt] ∧ stmt.declared? = none := by
    obtain ⟨_, _, _, _, _, -, rfl⟩ := hstmt
    exact ⟨rfl, rfl, rfl⟩
  obtain ⟨hif, hflat, hnothing⟩ := hassign
  obtain ⟨body', hput'⟩ := hput.exists_put hif (.block [] {})
  refine ⟨body', hput', ?_⟩
  have halike : List.Forall₂ Stmt.DeclareAlike stmt.flatten (Stmt.block [] {}).flatten := by
    rw [hflat]
    exact .cons (.inr ⟨hnothing, rfl⟩) .nil
  have hdistinct : (c.within e.scope).IsDistinct := hnames
  have htyped (inLoop : Bool) : stmt.IsTyped ⟨b, c.globals, c.structs, e.scope.symbols⟩ inLoop k := by
    have hstmt := (Stmt.check_iff (s := ⟨b, c.within e.scope, d.name⟩) hdistinct inLoop.toNat k stmt).mp (hcheck inLoop.toNat)
    cases inLoop <;> exact hstmt
  obtain ⟨d'', e', hresolve, -, hiff⟩ := d.resolveBody_iff hd hs b c
  obtain ⟨-, rfl⟩ := Prod.mk.inj (Except.ok.inj (hbody.symm.trans hresolve))
  rw [hiff]
  refine isTyped_of_allPut hput' halike fun locals hlocals inLoop => ?_
  obtain rfl := (hdeclare locals).mp hlocals
  exact iff_of_true (htyped inLoop) trivial

/-- A statement of a function without a problem is found as what the check has made of it. -/
theorem exists_checked (hbody : d.resolveBody b c s = .ok (d', e)) (hproblem : e.problem = none)
    (hk : (Stmt.flattenAll d.body)[k]? = some stmt) :
    ∃ loops stmt', (stmt.number (Stmt.flattenAll d.body).length k).check ⟨b, c.within e.scope, d.name⟩ loops k = .ok stmt'
      ∧ e.statements[k]? = some stmt' := by
  obtain ⟨-, hstatements, hchecked⟩ := resolveBody_eq_done hbody hproblem
  have hnumbered : (Stmt.flattenAll (Stmt.numberAll (Stmt.flattenAll d.body).length 0 d.body))[k]?
      = some (stmt.number (Stmt.flattenAll d.body).length k) := by
    rw [Stmt.flattenAll_numberAll, List.getElem?_map, List.getElem?_zipIdx, hk, Nat.zero_add]
    rfl
  obtain ⟨loops, stmt', hstmt', hget⟩ := (Stmt.areChecked_checkAll 0 0 _ hchecked).get hnumbered
  rw [Nat.zero_add] at hstmt'
  exact ⟨loops, stmt', hstmt', hstatements ▸ hget⟩

/-- The allocation of the type of a variable. -/
theorem Collects.allocates (h : d.Collects c s e.scope) (hd : d.IsWellFormed) (hs : s.params.length = d.params.length)
    (hbody : d.resolveBody b c s = .ok (d', e)) {body : List Stmt} (hput : Stmt.AllPut old stmt k body d.body)
    (hstmt : stmt.IsAllocation x w) {n : Nat} {v : VarDecl} (hv : (Stmt.flattenAll d.body)[n]? = some (.var v))
    (htype : v.type.unplaced = w.unplaced)
    (hfree : ∀ name ∈ w.sizeNames, name ∉ (Stmt.flattenAll d.body).filterMap Stmt.declared?) :
    ∃ t, e.Allocates b c d s k stmt x w n v t := by
  obtain ⟨-, -, hfunction⟩ := h.declare hd hs b
  obtain ⟨t, hdeclared, hresolve⟩ := h.exists_resolve hd hs hv (TypeExpr.sizeNames_congr htype ▸ hfree)
  have hw (at? : Option Int) : w.resolve (c.within e.scope) at? false = .ok t :=
    TypeExpr.resolve_of_unplaced htype.symm (hresolve at?)
  have hcheck (hx : Site.Stores ⟨b, c.within e.scope, k⟩ x (.pointer t)) (loops : Nat) :
      ∃ stmt', stmt.check ⟨b, c.within e.scope, d.name⟩ loops k = .ok stmt' ∧ stmt'.IsAllocationOf x w t :=
    Stmt.IsAllocation.check hstmt (s := ⟨b, c.within e.scope, d.name⟩) hx (hw (some k)) loops
  refine ⟨t, ?_, fun j y hy hjk hname hpointer => ?_, hcheck, fun hx hproblem => ?_, fun hx => ?_⟩
  · rw [← hfunction]
    exact hdeclared
  · have hlike : y.type.unplaced = (TypeExpr.pointer w {}).unplaced := hpointer
    obtain ⟨u, hy, hu⟩ := h.exists_resolve hd hs hy (TypeExpr.sizeNames_congr hlike ▸ hfree)
    have hu : (TypeExpr.pointer w {}).resolve (c.within e.scope) (some k) false = .ok u :=
      TypeExpr.resolve_of_unplaced hlike.symm (hu (some k))
    rw [TypeExpr.resolve, hw] at hu
    obtain rfl := Except.ok.inj hu
    subst hname
    exact ⟨_, h.lookup_var hd hs hy (Nat.le_of_lt hjk), rfl, rfl⟩
  · obtain ⟨loops, stmt', hstmt', hget⟩ := exists_checked hbody hproblem hput.get.2
    have hsame : stmt.number (Stmt.flattenAll d.body).length k = stmt := by
      obtain ⟨_, _, _, _, _, -, rfl⟩ := hstmt
      rfl
    rw [hsame] at hstmt'
    obtain ⟨stmt'', hstmt'', hof⟩ := hcheck hx loops
    obtain rfl := Except.ok.inj (hstmt'.symm.trans hstmt'')
    exact ⟨stmt', hget, hof⟩
  · refine h.harmless hd hs hbody hput hstmt fun loops => ?_
    obtain ⟨stmt', hstmt', -⟩ := hcheck hx loops
    exact ⟨stmt', hstmt'⟩

end FuncDecl

/-- The allocation `stmt` of a type `w` for `x`, which is statement `k` of declaration `i`, allocates the type of every variable
of the function whose type is written like `w`, unless something in the body has the name of a length. -/
def Resolution.Allocates (b : Builtins) (p : Program) (r : Resolution) (i k : Nat) (stmt : Stmt) (x : String) (w : TypeExpr) :
    Prop :=
  ∀ f e d d' s, r.Enters b p f e d d' s → p.decls[i]? = some (.func d) → d.Collects r.catalog s e.scope →
    ∀ n v, (Stmt.flattenAll d.body)[n]? = some (Stmt.var v) → v.type.unplaced = w.unplaced →
      (∀ name ∈ w.sizeNames, name ∉ (Stmt.flattenAll d.body).filterMap Stmt.declared?) →
      ∃ u, e.Allocates b r.catalog d s k stmt x w n v u

open Grammar in
/-- Types that are allocated. Where a `continue` is parsed, `x := _alloc(T)` is parsed exactly if the tokens of the type can be told
from an expression, or are a name with lengths at most behind it; and then it allocates the type of every variable of the function
whose type is written like `T`, unless something in the body has the name of a length. -/
theorem Program.exists_allocation {source : String} {file : Option String} (m : Allocation) (w : Derivation (.n .type))
    {front back : List Token} (hscan : (scan source file).toExcept = .ok (front ++ m.tokens w.tokens ++ back)) {t : Token}
    (ht : t.kind = .continueKw) {p₀ : Program} (h : ofTokens file (front ++ t :: back) = .ok p₀) (b : Builtins) :
    ((∃ p, ofSource source file = .ok p) ↔ w.value.IsTelling ∨ w.value.IsBare)
      ∧ ∀ p, ofSource source file = .ok p → ∃ stmt i k r, stmt.IsAllocation m.target.lexeme w.value
        ∧ Decl.AllPut (.continueLoop t.span) stmt i k p₀.decls p.decls ∧ p.resolve b = .ok r
        ∧ r.Allocates b p i k stmt m.target.lexeme w.value := by
  have hscanned (x : Token) (hx : x ∈ m.tokens w.tokens) : x.IsScanned :=
    Scan.isScanned_of_mem_scan hscan x (List.mem_append_left _ (List.mem_append_right _ hx))
  have hsource : ofSource source file = ofTokens file (front ++ m.tokens w.tokens ++ back) := by rw [ofSource, hscan]
  have hput (htype : w.value.IsTelling ∨ w.value.IsBare) : ∃ p stmt i k, ofSource source file = .ok p
      ∧ stmt.IsAllocation m.target.lexeme w.value ∧ Decl.AllPut (.continueLoop t.span) stmt i k p₀.decls p.decls := by
    obtain ⟨stmt, htokens, hfault, hstmt⟩ := m.exists_stmt w hscanned htype
    obtain ⟨p, i, k, hp, hput⟩ := ofTokens_put ht h stmt hfault
    exact ⟨p, stmt.value, i, k, by rw [hsource, ← hp, htokens], hstmt, hput⟩
  have htype {p : Program} (hp : ofSource source file = .ok p) : w.value.IsTelling ∨ w.value.IsBare :=
    isTelling_or_isBare m w (fun x hx => hscanned x (m.mem_tokens hx)) (hsource ▸ hp)
  refine ⟨⟨?_, fun h => ?_⟩, fun p hp => ?_⟩
  · rintro ⟨p, hp⟩
    exact htype hp
  · obtain ⟨p, -, -, -, hp, -⟩ := hput h
    exact ⟨p, hp⟩
  obtain ⟨p', stmt, i, k, hp', hstmt, hput⟩ := hput (htype hp)
  obtain rfl := Except.ok.inj (hp.symm.trans hp')
  obtain ⟨r, -, hr, -⟩ := exists_resolve (isWellFormed_of_ofSource hp) b
  refine ⟨stmt, i, k, r, hstmt, hput, hr, fun f e d d' s henters hi hcollects n v hv hlike hfree => ?_⟩
  obtain ⟨d₀, body, hd₀, hbody, hdecls⟩ := hput
  have hlt := (List.getElem?_eq_some_iff.mp hd₀).1
  rw [hdecls, List.getElem?_set_self hlt] at hi
  obtain rfl := Decl.func.inj (Option.some.inj hi)
  exact hcollects.allocates henters.wellFormed henters.arity henters.body hbody hstmt hv hlike hfree

/-- The types of allocations in statements. -/
def Stmt.allocated (ss : List Stmt) : List Ty := ss.filterMap fun
  | .assign _ (.call _ [.typeArg _ _] info) _ => info.ty
  | _ => none

/-- The types of the allocations in the functions of a source that has no structs inside themselves. -/
def allocatedOf (source : String) : Option (List Ty) := do
  let p ← (Program.ofSource source).toOption
  let r ← p.resolveFlat.toOption
  return r.functions.flatMap fun f => Stmt.allocated (f.entered.toList.flatMap Entered.statements)

/-- A function that allocates an array of structs, the length of which is a constant. -/
def allocating : String :=
  "const n 3 struct S [var x int] fun f void() \x7b var v S[n] var p S[n]* p := _alloc(S[n]) \x7d"

/-- A token of it by its number. -/
def allocatingToken (n : Nat) : Token := (scan allocating).tokens[n]?.getD { kind := .name, lexeme := "", start := {}, stop := {} }

theorem allocatingToken_eq (k : Nat) {kind : Kind} {lexeme : String}
    (h : [(Kind.name, "p"), (.assign, ":="), (.builtin, "_alloc"), (.paren, "("), (.name, "S"), (.bracket, "["), (.name, "n"),
      (.closeBracket, "]"), (.closeParen, ")"), (.closeBrace, "\x7d")][k]? = some (kind, lexeme)) :
    (allocatingToken (29 + k)).kind = kind ∧ (allocatingToken (29 + k)).lexeme = lexeme := by
  have hrest : ((scan allocating).tokens.drop 29).map (fun t => (t.kind, t.lexeme)) = [(.name, "p"), (.assign, ":="),
      (.builtin, "_alloc"), (.paren, "("), (.name, "S"), (.bracket, "["), (.name, "n"), (.closeBracket, "]"), (.closeParen, ")"),
      (.closeBrace, "\x7d")] := by decide +kernel
  rw [← hrest, List.getElem?_map, List.getElem?_drop, Option.map_eq_some_iff] at h
  obtain ⟨t, ht, hpair⟩ := h
  obtain ⟨rfl, rfl⟩ := Prod.mk.inj hpair
  rw [allocatingToken, ht]
  exact ⟨rfl, rfl⟩

namespace Grammar

/-- The allocation in it, but for the type. -/
def allocation : Allocation where
  target := allocatingToken 29
  assign := allocatingToken 30
  callee := allocatingToken 31
  opening := allocatingToken 32
  closing := allocatingToken 37
  target_kind := (allocatingToken_eq 0 rfl).1
  assign_kind := (allocatingToken_eq 1 rfl).1
  callee_kind := (allocatingToken_eq 2 rfl).1
  callee_lexeme := (allocatingToken_eq 2 rfl).2
  opening_kind := (allocatingToken_eq 3 rfl).1
  closing_kind := (allocatingToken_eq 8 rfl).1

/-- The type that is allocated. -/
def allocatedType : Derivation (.n .type) :=
  .node .typeArray (.cons (.node .typeBase (.cons (.node .baseNamed (.cons (.ofToken (allocatingToken 33) (allocatingToken_eq 4 rfl).1)
    .nil)) .nil)) (.cons (.ofToken (allocatingToken 34) (allocatingToken_eq 5 rfl).1) (.cons (.node .sizeName (.cons
      (.ofToken (allocatingToken 35) (allocatingToken_eq 6 rfl).1) .nil)) (.cons
        (.ofToken (allocatingToken 36) (allocatingToken_eq 7 rfl).1) .nil))))

end Grammar

open Grammar in
theorem Program.exists_allocation_structs :
    ∃ front back t p₀ p stmt i k r, ofTokens none (front ++ t :: back) = .ok p₀ ∧ ofSource allocating = .ok p
      ∧ ((∃ p, ofSource allocating = .ok p) ↔ allocatedType.value.IsTelling ∨ allocatedType.value.IsBare)
      ∧ stmt.IsAllocation allocation.target.lexeme allocatedType.value
      ∧ Decl.AllPut (.continueLoop t.span) stmt i k p₀.decls p.decls ∧ p.resolve = .ok r
      ∧ (r.functions.flatMap fun f => Stmt.allocated (f.entered.toList.flatMap Entered.statements))
        = [.pointer (.array (.struct "S") 3)]
      ∧ r.Allocates Builtins.standard p i k stmt allocation.target.lexeme allocatedType.value := by
  have hscan : (scan allocating).error = none ∧ (scan allocating).tokens = (scan allocating).tokens.take 29
      ++ allocation.tokens allocatedType.tokens ++ (scan allocating).tokens.drop 38 := by decide +kernel
  have hparsed : (ofTokens none ((scan allocating).tokens.take 29 ++ { kind := .continueKw, lexeme := "", start := {}, stop := {} }
      :: (scan allocating).tokens.drop 38)).toOption.isSome = true := by decide +kernel
  have hallocated : allocatedOf allocating = some [.pointer (.array (.struct "S") 3)] := Program.bind_ofSource (by decide +kernel)
  obtain ⟨p₀, hparsed⟩ := Option.isSome_iff_exists.mp hparsed
  have hparsed := Except.toOption_eq_some_iff.mp hparsed
  have hall : (scan allocating).toExcept = .ok ((scan allocating).tokens.take 29
      ++ allocation.tokens allocatedType.tokens ++ (scan allocating).tokens.drop 38) := by
    rw [Scan.toExcept, hscan.1, ← hscan.2]
  obtain ⟨p, hp, hallocated⟩ := Option.bind_eq_some_iff.mp hallocated
  obtain ⟨r, hr, hallocated⟩ := Option.bind_eq_some_iff.mp hallocated
  have hp := Except.toOption_eq_some_iff.mp hp
  obtain ⟨hiff, hallocates⟩ := exists_allocation allocation allocatedType hall rfl hparsed Builtins.standard
  obtain ⟨stmt, i, k, r', hstmt, hput, hr', hallocates⟩ := hallocates p hp
  obtain rfl := Except.ok.inj (hr'.symm.trans (resolve_of_resolveFlat (Except.toOption_eq_some_iff.mp hr)))
  exact ⟨_, _, _, p₀, p, stmt, i, k, r', hparsed, hp, hiff, hstmt, hput, hr', Option.some.inj hallocated, hallocates⟩

/-- A source that the parser refuses. -/
def isRefused (source : String) : Bool :=
  match Program.ofSource source with
  | .error (.syntactic _) => true
  | _ => false

/-- The allocation of a pointer to an array of structs is refused by the parser, although this is a type in a declaration. -/
theorem Program.alloc_pointer_refused :
    problemKindsOf "struct S [var x int] fun f void() \x7b var v S[3]* var p S[3]** \x7d" = some []
      ∧ isRefused "struct S [var x int] fun f void() \x7b var v S[3]* var p S[3]** p := _alloc(S[3]*) \x7d" = true := by
  decide +kernel

end FlatScope
