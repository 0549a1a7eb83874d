/-
  Allocations that are checked. Written again in the body of its function, the type of a variable stands for the same type
  everywhere, unless the body declares the name of one of its lengths (`FuncDecl.Collects.exists_resolve`). The allocation of
  this type for something that holds a pointer to it goes through (`Stmt.IsAllocation.check`), and it is found with its notes
  under its number once the body has been checked to its end (`Stmt.AreChecked.get`).
-/
import FlatScope.Proofs.Allocation.Argument
import FlatScope.Proofs.Scopes.Sizes

namespace FlatScope

/-! ## Types that are written twice -/

namespace TypeExpr

variable {c : Catalog} {at? : Option Int} {w u : TypeExpr} {allowVoid : Bool} {t : Ty}

mutual

theorem sizeNames_unplaced : (w : TypeExpr) → w.unplaced.sizeNames = w.sizeNames
  | .array e (.name name) _ => by rw [unplaced, sizeNames, sizeNames, e.sizeNames_unplaced]
  | .array e (.int _) _ | .pointer e _ => by rw [unplaced, sizeNames, sizeNames, e.sizeNames_unplaced]
  | .func r ps _ => by rw [unplaced, sizeNames, sizeNames, r.sizeNames_unplaced, sizeNamesAll_unplacedAll ps]
  | .named .. | .foreign _ => rfl

theorem sizeNamesAll_unplacedAll : (ws : List TypeExpr) → sizeNamesAll (unplacedAll ws) = sizeNamesAll ws
  | [] => rfl
  | w :: ws => by rw [unplacedAll, sizeNamesAll, sizeNamesAll, w.sizeNames_unplaced, sizeNamesAll_unplacedAll ws]

end

/-- The same type in another place has the same lengths. -/
theorem sizeNames_congr (h : w.unplaced = u.unplaced) : w.sizeNames = u.sizeNames := by
  rw [← sizeNames_unplaced w, h, sizeNames_unplaced]

mutual

theorem toOption_resolve_unplaced (c : Catalog) (at? : Option Int) : (w : TypeExpr) → (allowVoid : Bool) →
    (w.unplaced.resolve c at? allowVoid).toOption = (w.resolve c at? allowVoid).toOption
  | .named name span, _ => by rw [unplaced, resolve, resolve, Except.toOption_mapError, Except.toOption_mapError]
  | .pointer e _, _ => by
    rw [unplaced, resolve, resolve, Except.toOption_bind, Except.toOption_bind, toOption_resolve_unplaced c at? e false]
  | .array e size _, _ => by
    rw [unplaced, resolve, resolve, Except.toOption_bind, Except.toOption_bind, toOption_resolve_unplaced c at? e false]
    simp only [Except.toOption_bind, Except.toOption_mapError]
  | .func r ps _, _ => by
    rw [unplaced, resolve, resolve, Except.toOption_bind, Except.toOption_bind, toOption_resolveAll_unplacedAll c at? ps]
    simp only [Except.toOption_bind, toOption_resolve_unplaced c at? r true]
  | .foreign _, _ => rfl

theorem toOption_resolveAll_unplacedAll (c : Catalog) (at? : Option Int) : (ws : List TypeExpr) →
    (resolveAll c at? (unplacedAll ws)).toOption = (resolveAll c at? ws).toOption
  | [] => rfl
  | w :: ws => by
    rw [unplacedAll, resolveAll, resolveAll, Except.toOption_bind, Except.toOption_bind, toOption_resolve_unplaced c at? w false]
    simp only [Except.toOption_bind, toOption_resolveAll_unplacedAll c at? ws]

end

/-- The same type in another place stands for the same. -/
theorem resolve_of_unplaced (h : w.unplaced = u.unplaced) (hu : u.resolve c at? allowVoid = .ok t) :
    w.resolve c at? allowVoid = .ok t := by
  rw [← Except.toOption_eq_some_iff, ← toOption_resolve_unplaced, h, toOption_resolve_unplaced, hu]
  rfl

end TypeExpr

/-! ## Types in a body -/

/-- Where a function declares no symbol of a name, the name stands for the global one. -/
theorem Catalog.lookup_within_of_none {c : Catalog} {scope : LocalScope} {name : String} (h : scope.get? name = none)
    (at? : Option Int) : (c.within scope).lookup name at? = c.lookupGlobal name := by
  have hnone : ((c.within scope).current.bind fun scope => scope.get? name) = none := h
  rw [lookup, hnone, Option.filter_none]
  rfl

theorem Stmt.mem_declared_of_mem_rows {n : Nat} {ss : List Stmt} {row : String × Symbol.Kind × Int} (h : row ∈ rows n ss) :
    row.1 ∈ ss.filterMap declared? := by
  obtain ⟨⟨s, k⟩, hs, hrow⟩ := List.mem_filterMap.mp h
  refine List.mem_filterMap.mpr ⟨s, List.fst_mem_of_mem_zipIdx hs, ?_⟩
  cases s with
  | var _ | label _ _ _ =>
    obtain rfl := Option.some.inj hrow
    rfl
  | _ => cases hrow

namespace FuncDecl

variable {b : Builtins} {c : Catalog} {s : Signature} {d : FuncDecl} {scope : LocalScope} {i j n : Nat} {t : Ty}

theorem order_of_mem_headRows {row : String × Symbol.Kind × Int} (h : row ∈ d.headRows s) : row.2.2 = -1 := by
  obtain hrow | hrow := List.mem_append.mp h
  · split at hrow
    · cases hrow
    · obtain rfl := List.mem_singleton.mp hrow
      rfl
  · obtain ⟨m, -, hrow⟩ := List.mem_filterMap.mp hrow
    obtain ⟨name, -, rfl⟩ := Option.map_eq_some_iff.mp hrow
    rfl

/-- The type of a variable is found again wherever it is written in the complete scope, if the body declares nothing that has the
name of one of its lengths. -/
theorem Collects.exists_resolve (h : d.Collects c s scope) (hd : d.IsWellFormed) (hs : s.params.length = d.params.length)
    {v : VarDecl} (hi : (Stmt.flattenAll d.body)[i]? = some (.var v))
    (hfree : ∀ name ∈ v.type.sizeNames, name ∉ (Stmt.flattenAll d.body).filterMap Stmt.declared?) :
    ∃ t, v.symbol scope.function i t ∈ scope.symbols ∧ ∀ at?, v.type.resolve (c.within scope) at? false = .ok t := by
  obtain ⟨t, ht, hdeclared⟩ := h.exists_type hi
  refine ⟨t, hdeclared, fun at? => ?_⟩
  rw [← ht]
  have hnamed (allowVoid : Bool) (name : String) :
      (c.within scope).namedType allowVoid name = (c.within (scope.before i)).namedType allowVoid name := rfl
  refine TypeExpr.resolve_congr hnamed v.type (fun name hname => ?_) false
  obtain ⟨k, hk, -⟩ := TypeExpr.exists_intConstant? v.type ht name hname
  obtain ⟨x, hx, hkind, -⟩ := Catalog.intConstant?_eq_some hk
  have hown : (scope.before i).IsOwn := fun y hy => h.isOwn y (List.mem_of_mem_filter hy)
  obtain ⟨hglobal, hhidden⟩ := Catalog.lookup_within_of_const hown hx hkind
  -- A symbol of the name could only be the result or a parameter, and then it would be seen in front of the variable.
  have hnone : scope.get? name = none := by
    refine LocalScope.get?_eq_none_iff.mpr fun hmem => ?_
    obtain ⟨y, hy, rfl⟩ := List.mem_map.mp hmem
    have hrow : y.row ∈ d.headRows s ++ Stmt.rows 0 (Stmt.flattenAll d.body) := h.rows hd hs ▸ List.mem_map_of_mem hy
    obtain hrow | hrow := List.mem_append.mp hrow
    · have horder : y.order = -1 := order_of_mem_headRows hrow
      have hbefore : y ∈ (scope.before i).symbols := List.mem_filter.mpr ⟨hy, decide_eq_true (by omega)⟩
      exact LocalScope.get?_eq_none_iff.mp (LocalScope.get?_before_eq_none hhidden) (List.mem_map_of_mem hbefore)
    · exact hfree y.name hname (Stmt.mem_declared_of_mem_rows hrow)
  refine Catalog.intConstant?_eq_of_lookup ?_
  rw [hx, Catalog.lookup_within_of_none hnone, hglobal]

/-- A variable is seen by the statements behind it. -/
theorem Collects.lookup_var (h : d.Collects c s scope) (hd : d.IsWellFormed) (hs : s.params.length = d.params.length)
    {v : VarDecl} (hv : v.symbol scope.function i t ∈ scope.symbols) (hn : i ≤ n) :
    (c.within scope).lookup v.name (some n) = some (v.symbol scope.function i t) := by
  obtain ⟨-, hnames, -⟩ := h.declare hd hs []
  have hfound : scope.get? v.name = some (v.symbol scope.function i t) := (Symbol.find?_eq_some_iff hnames).mpr ⟨hv, rfl⟩
  exact Catalog.lookup_within_of_visible hfound (Catalog.isVisible_iff.mpr (.inr (Int.ofNat_le.mpr hn)))

end FuncDecl

/-! ## Checked allocations -/

/-- An argument that is, or spells, a type has it written. -/
theorem Expr.IsSpelling.exists_writtenType? {e : Expr} {w : TypeExpr} (h : e.IsSpelling w) :
    ∃ info, e.writtenType? = some (w, info) := by
  obtain ⟨info, rfl⟩ | h := h
  · exact ⟨info, rfl⟩
  · refine ⟨{ span := e.span }, ?_⟩
    cases e with
    | typeArg => cases h
    | _ => exact congrArg (Option.map fun w => (w, _)) h

/-- A name stands for something that holds values of a type. -/
def Site.Stores (site : Site) (name : String) (t : Ty) : Prop :=
  ∃ s, site.lookup name = some s ∧ s.kind.isStorage = true ∧ s.ty = some t

/-- A statement is the checked allocation of a type for a variable, and the call in it has the type of a pointer to
`t`. -/
def Stmt.IsAllocationOf (x : String) (w : TypeExpr) (t : Ty) (s : Stmt) : Prop :=
  ∃ (symbol : Symbol) (target operand call : Info) (callee : Expr) (span : Span),
    s = .assign (.ident x (some symbol) target) (.call callee [.typeArg w operand] call) span
    ∧ target.ty = some (.pointer t) ∧ operand.ty = some t ∧ call.ty = some (.pointer t)

namespace Site

variable {site : Site} {x : String} {w : TypeExpr} {t : Ty} {e : Expr}

theorem Stores.checkTarget (h : site.Stores x t) (info : Info) :
    ∃ s, site.checkTarget (.ident x none info) = .ok (.ident x (some s) { info with ty := some t }, t) := by
  obtain ⟨s, hs, hstorage, hty⟩ := h
  have hvalue : site.value x = .ok (s, t) := by
    unfold value
    rw [hs]
    dsimp only
    rw [hty]
    cases hkind : s.kind with
    | var | param | result => rfl
    | const | func | struct | label => exact nomatch hkind ▸ hstorage
  have hallowed : (site.lookup x).filter (fun s => !s.kind.isStorage) = none := by
    rw [hs, Option.filter_some, hstorage]
    rfl
  refine ⟨s, ?_⟩
  have hroot : (Expr.ident x none info).root.rootName = .ok x := rfl
  rw [Site.checkTarget, hroot]
  dsimp only
  rw [hallowed, Expr.check, hvalue]

/-- An operand that spells a type is taken for it. -/
theorem typeOperand_of_isSpelling (he : e.IsSpelling w) (ht : w.resolve site.catalog (some site.index) false = .ok t) :
    ∃ info : Info, site.typeOperand e = .ok (.typeArg w { info with ty := some t }, t) := by
  obtain ⟨info, hwritten⟩ := he.exists_writtenType?
  refine ⟨info, ?_⟩
  rw [typeOperand_eq, hwritten]
  unfold writtenOperand
  dsimp only
  rw [ht]

/-- The call of an allocation has the type of a pointer to what is allocated. -/
theorem check_alloc (he : e.IsSpelling w) (ht : w.resolve site.catalog (some site.index) false = .ok t) (context : Option Ty)
    (name call : Info) : ∃ (callee : Expr) (operand : Info), (Expr.call (.ident SpecialForm.alloc.name none name) [e] call).check site context
      = .ok (.call callee [.typeArg w { operand with ty := some t }] { call with ty := some (.pointer t) }, .pointer t) := by
  obtain ⟨operand, hoperand⟩ := typeOperand_of_isSpelling he ht
  have hcallee : Expr.callee site call.span (.ident SpecialForm.alloc.name none name)
      = .ok (.ident SpecialForm.alloc.name none name, .alloc) := rfl
  have hslots : CallForm.alloc.slots [e].length = .ok [.allocated] := rfl
  have hoperand : site.operand .allocated e = .ok (.typeArg w { operand with ty := some t }, t) := hoperand
  have hargs : Expr.checkAll site [.allocated] [e] = .ok ([.typeArg w { operand with ty := some t }], [t]) := by
    rw [Expr.checkAll_cons, hoperand, Expr.checkAll_nil]
    rfl
  refine ⟨CallForm.noteCallee [t] (.ident SpecialForm.alloc.name none name) .alloc, operand, ?_⟩
  rw [Expr.check_call, hcallee]
  dsimp only
  rw [hslots]
  dsimp only
  rw [hargs]
  rfl

end Site

/-- The allocation of a type for something that holds a pointer to it goes through. -/
theorem Stmt.IsAllocation.check {stmt : Stmt} {x : String} {w : TypeExpr} (h : stmt.IsAllocation x w) {s : Surroundings} {n : Nat}
    {t : Ty} (hx : (s.site n).Stores x (.pointer t)) (ht : w.resolve s.catalog (some n) false = .ok t) (loops : Nat) :
    ∃ stmt', stmt.check s loops n = .ok stmt' ∧ stmt'.IsAllocationOf x w t := by
  obtain ⟨e, target, name, call, span, he, rfl⟩ := h
  obtain ⟨symbol, htarget⟩ := hx.checkTarget target
  obtain ⟨callee, operand, hvalue⟩ := (s.site n).check_alloc he ht (some (.pointer t)) name call
  refine ⟨.assign (.ident x (some symbol) { target with ty := some (.pointer t) })
    (.call callee [.typeArg w { operand with ty := some t }] { call with ty := some (.pointer t) }) span, ?_,
    symbol, _, _, _, callee, span, rfl, rfl, rfl, rfl⟩
  rw [Stmt.check, Site.checkAssign, htarget]
  dsimp only
  rw [hvalue]
  exact if_pos rfl

/-! ## Bodies that are checked to their end -/

namespace Stmt

/-- Each statement has been checked with its own number, inside some loops, where the first one has number `n`. -/
inductive AreChecked (s : Surroundings) : Nat → List Stmt → List Stmt → Prop
  | nil {n : Nat} : AreChecked s n [] []
  | cons {n loops : Nat} {stmt stmt' : Stmt} {ss ss' : List Stmt} (h : stmt.check s loops n = .ok stmt')
      (hs : AreChecked s (n + 1) ss ss') : AreChecked s n (stmt :: ss) (stmt' :: ss')

variable {s : Surroundings} {n : Nat} {xs xs' ys ys' : List Stmt}

theorem AreChecked.append (h : AreChecked s n xs xs') (hys : AreChecked s (n + xs.length) ys ys') :
    AreChecked s n (xs ++ ys) (xs' ++ ys') := by
  induction h with
  | nil => exact hys
  | @cons n _ _ _ xs _ hx _ ih =>
    rw [List.length_cons, Nat.add_comm xs.length, ← Nat.add_assoc] at hys
    exact .cons hx (ih hys)

/-- A statement that has been checked is found under its number. -/
theorem AreChecked.get (h : AreChecked s n xs xs') {k : Nat} {stmt : Stmt} (hk : xs[k]? = some stmt) :
    ∃ loops stmt', stmt.check s loops (n + k) = .ok stmt' ∧ xs'[k]? = some stmt' := by
  induction h generalizing k with
  | nil => exact nomatch hk
  | @cons n loops x x' xs xs' hx _ ih =>
    cases k with
    | zero =>
      obtain rfl := Option.some.inj hk
      exact ⟨loops, x', hx, rfl⟩
    | succ k =>
      obtain ⟨loops, stmt', hcheck, hget⟩ := ih hk
      rw [Nat.add_right_comm] at hcheck
      exact ⟨loops, stmt', hcheck, hget⟩

theorem isIf_of_check {c : Expr} {body : List Stmt} {braces : Braces} {otherwise : Option Stmt} {span : Span} {loops : Nat}
    {stmt' : Stmt} (h : check s loops n (.ifThen c body braces otherwise span) = .ok stmt') : stmt'.isIf = true := by
  rw [check] at h
  split at h
  · cases h
  · split at h
    · cases h
    · split at h
      · cases h
      · obtain rfl := Except.ok.inj h
        rfl

mutual

theorem areChecked_check (loops n : Nat) : (stmt : Stmt) → {stmt' : Stmt} → stmt.check s loops n = .ok stmt' →
    AreChecked s n stmt.flatten stmt'.flatten
  | .ifThen c body braces otherwise span, stmt', h => by
    have hself := h
    rw [check] at h
    split at h
    · cases h
    · split at h
      · cases h
      · rename_i hbody
        split at h
        · cases h
        · rename_i hotherwise
          obtain rfl := Except.ok.inj h
          have hafter := areChecked_checkElse loops _ otherwise hotherwise
          rw [← length_flattenAll] at hafter
          exact .cons hself ((areChecked_checkAll loops (n + 1) body hbody).append hafter)
  | .whileDo c body braces span, stmt', h => by
    have hself := h
    rw [check] at h
    split at h
    · cases h
    · split at h
      · cases h
      · rename_i hbody
        obtain rfl := Except.ok.inj h
        exact .cons hself (areChecked_checkAll (loops + 1) (n + 1) body hbody)
  | .block body span, stmt', h => by
    have hself := h
    rw [check] at h
    split at h
    · cases h
    · rename_i hbody
      obtain rfl := Except.ok.inj h
      exact .cons hself (areChecked_checkAll loops (n + 1) body hbody)
  | .assign target value span, stmt', h => by
    have hself := h
    rw [check] at h
    unfold Site.checkAssign at h
    split at h
    · cases h
    · split at h
      · cases h
      · split at h
        · obtain rfl := Except.ok.inj h
          exact .cons hself .nil
        · cases h
  | .call e span, stmt', h => by
    have hself := h
    rw [check] at h
    unfold Site.checkCall at h
    split at h
    · split at h
      · cases h
      · obtain rfl := Except.ok.inj h
        exact .cons hself .nil
    · cases h
  | .breakLoop span, stmt', h | .continueLoop span, stmt', h => by
    have hself := h
    rw [check] at h
    split at h
    · cases h
    · obtain rfl := Except.ok.inj h
      exact .cons hself .nil
  | .goto name target span, stmt', h => by
    have hself := h
    rw [check] at h
    unfold Surroundings.checkGoto at h
    split at h
    · cases h
    · obtain rfl := Except.ok.inj h
      exact .cons hself .nil
  | .var _, stmt', h | .label .., stmt', h => by
    have hself := h
    obtain rfl := Except.ok.inj h
    exact .cons hself .nil
  | .foreign _, _, h => nomatch h

theorem areChecked_checkElse (loops n : Nat) : (o : Option Stmt) → {o' : Option Stmt} → checkElse s loops n o = .ok o' →
    AreChecked s n (flattenElse o) (flattenElse o')
  | some (.ifThen c body braces otherwise span), o', h => by
    rw [checkElse_of_isIf rfl] at h
    split at h
    · cases h
    · rename_i branch hbranch
      obtain rfl := Except.ok.inj h
      rw [flattenElse_of_isIf rfl, flattenElse_of_isIf (isIf_of_check hbranch)]
      exact areChecked_check loops n (.ifThen c body braces otherwise span) hbranch
  | some (.block body span), o', h => by
    rw [checkElse] at h
    split at h
    · cases h
    · rename_i hbody
      obtain rfl := Except.ok.inj h
      exact areChecked_checkAll loops n body hbody
  | none, o', h => by
    obtain rfl := Except.ok.inj h
    exact .nil
  | some (.var _), _, h | some (.assign ..), _, h | some (.call ..), _, h | some (.whileDo ..), _, h | some (.breakLoop _), _, h
  | some (.continueLoop _), _, h | some (.label ..), _, h | some (.goto ..), _, h | some (.foreign _), _, h => nomatch h

/-- A body that is checked to its end has had each of its statements checked. -/
theorem areChecked_checkAll (loops n : Nat) : (ss : List Stmt) → {ss' : List Stmt} → checkAll s loops n ss = .ok ss' →
    AreChecked s n (flattenAll ss) (flattenAll ss')
  | [], ss', h => by
    obtain rfl := Except.ok.inj h
    exact .nil
  | stmt :: rest, ss', h => by
    rw [checkAll] at h
    split at h
    · cases h
    · rename_i hstmt
      split at h
      · cases h
      · rename_i hrest
        obtain rfl := Except.ok.inj h
        have hafter := areChecked_checkAll loops _ rest hrest
        rw [← length_flatten] at hafter
        exact (areChecked_check loops n stmt hstmt).append hafter

end

end Stmt

end FlatScope
