/-
  Allocations and variables of one text. What is allocated is found in the complete scope of a function, and the type of a variable
  among what stands in front of the variable; but a length is a global constant in both places, so a text that stands for a type in
  both stands for the same type (`TypeExpr.resolve_unique`). An expression of a parsed unit is read as a type exactly if its text is
  one, and an allocation and a variable that are written with one text have one type (`Program.spells_types`).
-/
import FlatScope.Proofs.Addressing
import FlatScope.Proofs.Allocation.Unit
import FlatScope.Proofs.Pointing.Body
import FlatScope.Proofs.Spelling.Expr

namespace FlatScope

/-! ## Types in two places -/

/-- Types that are written alike are the same wherever in the scopes of functions they are found, since these declare no constants. -/
theorem TypeExpr.resolve_unique {c : Catalog} {front scope : LocalScope} (hfront : front.IsOwn) (hscope : scope.IsOwn) {w u : TypeExpr}
    (halike : w.unplaced = u.unplaced) {n k : Nat} {t t' : Ty} (hw : w.resolve (c.within front) (some n) false = .ok t)
    (hu : u.resolve (c.within scope) (some k) false = .ok t') : t = t' := by
  have hu : w.resolve (c.within scope) (some k) false = .ok t' := resolve_of_unplaced halike hu
  have hnamed (allowVoid : Bool) (name : String) :
      (c.within front).namedType allowVoid name = (c.within scope).namedType allowVoid name := rfl
  rw [resolve_congr hnamed w (fun name hname => ?_) false, hu] at hw
  · exact (Except.ok.inj hw).symm
  · obtain ⟨i, hi, -⟩ := exists_intConstant? w hw name hname
    obtain ⟨j, hj, -⟩ := exists_intConstant? w hu name hname
    obtain ⟨x, hx, hkind, -⟩ := Catalog.intConstant?_eq_some hi
    obtain ⟨y, hy, hkind', -⟩ := Catalog.intConstant?_eq_some hj
    obtain ⟨hglobal, -⟩ := Catalog.lookup_within_of_const hfront hx hkind
    obtain ⟨hglobal', -⟩ := Catalog.lookup_within_of_const hscope hy hkind'
    exact Catalog.intConstant?_eq_of_lookup ((hx.trans hglobal.symm).trans (hglobal'.trans hy.symm))

/-! ## Checked allocations -/

/-- An expression is the checked call of an allocation of a type, with a type as its operand that is noted to be this
one. -/
def Expr.IsAllocationOf (t : Ty) (e : Expr) : Prop :=
  ∃ callee w operand rest info, e = .call callee (.typeArg w operand :: rest) info ∧ operand.ty = some t ∧ info.ty = some (.pointer t)

/-- The first operand of an allocation is a type. -/
theorem CallForm.exists_slots_of_alloc {count : Nat} {slots : List Slot} (h : CallForm.alloc.slots count = .ok slots) :
    ∃ more, slots = .allocated :: more := by
  dsimp only [CallForm.slots] at h
  split at h
  · exact ⟨_, (Except.ok.inj h).symm⟩
  · exact ⟨_, (Except.ok.inj h).symm⟩
  · cases h

namespace Site

variable {site : Site} {e : Expr} {w : TypeExpr} {t : Ty}

/-- The type that is taken for an operand that spells one is what it stands for. -/
theorem exists_resolve_of_typeOperand (he : e.IsSpelling w) {e' : Expr} (h : site.typeOperand e = .ok (e', t)) :
    ∃ info : Info, w.resolve site.catalog (some site.index) false = .ok t ∧ e' = .typeArg w { info with ty := some t } := by
  obtain ⟨info, hwritten⟩ := he.exists_writtenType?
  rw [typeOperand_eq, hwritten] at h
  unfold writtenOperand at h
  dsimp only at h
  split at h
  · cases h
  · rename_i ht
    obtain ⟨rfl, rfl⟩ := Prod.mk.inj (Except.ok.inj h)
    exact ⟨info, ht, rfl⟩

/-- An allocation that is checked with success is one of the type that its operand spells. -/
theorem isAllocationOf_of_check (he : e.IsSpelling w) {symbol : Option Symbol} {name call : Info} {rest : List Expr}
    {context : Option Ty} {checked : Expr} {u : Ty}
    (h : (Expr.call (.ident SpecialForm.alloc.name symbol name) (e :: rest) call).check site context = .ok (checked, u)) :
    ∃ t, w.resolve site.catalog (some site.index) false = .ok t ∧ u = .pointer t ∧ checked.IsAllocationOf t := by
  have hcallee : Expr.callee site call.span (.ident SpecialForm.alloc.name symbol name)
      = .ok (.ident SpecialForm.alloc.name symbol name, .alloc) := rfl
  rw [Expr.check_call, hcallee] at h
  dsimp only at h
  split at h
  · cases h
  rename_i slots hslots
  obtain ⟨more, rfl⟩ := CallForm.exists_slots_of_alloc hslots
  rw [Expr.checkAll_cons] at h
  cases hoperand : site.operand .allocated e with
  | error left =>
    rw [hoperand] at h
    cases h
  | ok r =>
    obtain ⟨e', t⟩ := r
    obtain ⟨operand, ht, rfl⟩ := exists_resolve_of_typeOperand he hoperand
    rw [hoperand] at h
    dsimp only at h
    split at h
    · cases h
    · rename_i args types hargs
      obtain ⟨rfl, rfl⟩ := Prod.mk.inj (Except.ok.inj h)
      split at hargs
      · cases hargs
      · split at hargs
        · cases hargs
        · obtain ⟨rfl, rfl⟩ := Prod.mk.inj (Except.ok.inj hargs)
          exact ⟨t, ht, rfl, _, w, _, _, _, rfl, rfl, rfl⟩

end Site

/-! ## Statements -/

namespace Stmt

/-- The expression that a statement assigns, or calls. -/
def value? : Stmt → Option Expr
  | assign _ value _ => some value
  | call e _ => some e
  | _ => none

variable {s : Surroundings} {stmt stmt' : Stmt} {loops n : Nat} {e : Expr}

/-- The expression of a statement that is checked with success is checked with success. -/
theorem exists_check_of_value? (h : stmt.check s loops n = .ok stmt') (he : stmt.value? = some e) :
    ∃ context checked t, e.check (s.site n) context = .ok (checked, t) ∧ stmt'.value? = some checked := by
  cases stmt with
  | assign target value span =>
    obtain rfl := Option.some.inj he
    rw [check, Site.checkAssign] at h
    split at h
    · cases h
    · split at h
      · cases h
      · rename_i hvalue
        split at h
        · obtain rfl := Except.ok.inj h
          exact ⟨_, _, _, hvalue, rfl⟩
        · cases h
  | call e span =>
    obtain rfl := Option.some.inj he
    rw [check] at h
    cases e with
    | call callee args info =>
      rw [Site.checkCall] at h
      split at h
      · cases h
      · rename_i hcall
        obtain rfl := Except.ok.inj h
        exact ⟨_, _, _, hcall, rfl⟩
    | _ => cases h
  | _ => cases he

theorem value?_number (bound n : Nat) (stmt : Stmt) : (stmt.number bound n).value? = stmt.value? := by
  cases stmt <;> rfl

end Stmt

/-! ## Texts of nodes -/

/-- What stands in a source where a node is. -/
def Node.textIn (source : String) (n : Node) : Option (List Char) := do
  let span ← n.span?
  let start ← span.start.offset
  let stop ← span.stop.offset
  return slice source.toList start.toNat stop.toNat

namespace Program

variable {source : String} {file : Option String} {p : Program}

open Grammar in
/-- A node that is read off tokens of a source has a text there, and this prints what the tokens are read as. -/
theorem exists_textIn (hscan : (scan source file).error = none) {n : Node} {front ts back : List Token} (hn : n.IsReadOff ts)
    (htokens : (scan source file).tokens = front ++ (ts ++ back)) {x : Nonterminal} (hx : x ∈ Nonterminal.ofNodes) {v : x.Value}
    (hread : Reads x ts v) :
    ∃ text : String, n.textIn source = some text.toList ∧ Prints (.n x) false text.toList true [] v := by
  have hspelled : ∀ t ∈ ts, t.IsSpelled := fun t ht =>
    (Scan.isScanned_of_mem_scanFrom file {} none source.toList t
      (htokens ▸ List.mem_append_right _ (List.mem_append_left _ ht))).spelled
  obtain ⟨first, last, hfirst, hlast, hspan, -⟩ := hn.stands hspelled
  obtain ⟨ts, rfl⟩ := List.head?_eq_some_iff.mp hfirst
  refine ⟨String.ofList (slice source.toList first.start.offset last.stop.offset), ?_, ?_⟩
  · rw [Node.textIn, hspan, String.toList_ofList]
    rfl
  · rw [String.toList_ofList]
    exact hread.prints hx hscan htokens hlast Lexeme.closes_nil

open Grammar in
/-- An expression in a parsed unit is well formed, or a type among arguments, and its text prints it. -/
theorem exists_text_expr (h : ofSource source file = .ok p) {e : Expr} (he : (Node.program p).Contains (.expr e)) :
    (e.IsWellFormed ∨ e.IsTypeArgument)
      ∧ ∃ text : String, (Node.expr e).textIn source = some text.toList ∧ Prints (.n .arg) false text.toList true [] e := by
  obtain ⟨hscan, d, htokens, -, hproper, rfl⟩ := exists_proper_of_ofSource h
  have hread : Node.AreReadOff d.tokens (d.value.map Decl.node) := d.areReadOff hproper
  obtain ⟨front, ts, back, hsplit, hreade⟩ := Node.AreReadOff.exists_of_contains (n := .program _) hread he
  refine ⟨?_, exists_textIn hscan hreade (htokens ▸ hsplit) (by decide) hreade⟩
  obtain ⟨a, rfl, rfl, ha⟩ := hreade
  refine a.isWellFormed_value (fun t ht => ?_) ha
  exact Scan.isScanned_of_mem_scanFrom file {} none source.toList t
    (htokens ▸ hsplit ▸ List.mem_append_right _ (List.mem_append_left _ ht))

open Grammar in
/-- The text of the type of a variable in a function prints the type. -/
theorem exists_text_type (h : ofSource source file = .ok p) {d : FuncDecl} (hd : .func d ∈ p.decls) {v : VarDecl}
    (hv : .var v ∈ Stmt.flattenAll d.body) :
    ∃ text : String, (Node.type v.type).textIn source = some text.toList
      ∧ Prints (.n .type) false text.toList true [] v.type := by
  obtain ⟨hscan, u, htokens, -, hproper, rfl⟩ := exists_proper_of_ofSource h
  have hread : Node.AreReadOff u.tokens (u.value.map Decl.node) := u.areReadOff hproper
  obtain ⟨front, ts, back, hsplit, hreadd⟩ := hread.exists_of_mem (List.mem_map_of_mem hd)
  have hplace : Node.stmt (.var v) ∈ d.places :=
    List.mem_cons_of_mem _ (List.mem_append_right _ (List.mem_flatMap_of_mem hv (List.mem_singleton.mpr rfl)))
  obtain ⟨front', us, back', rfl, hreadv⟩ := (d.areReadOff_places hreadd).exists_of_mem hplace
  obtain ⟨front'', ws, back'', rfl, hreadw⟩ := hreadv.children.exists_of_mem (List.mem_singleton.mpr rfl)
  have hsplit : (scan source file).tokens = (front ++ (front' ++ front'')) ++ (ws ++ (back'' ++ (back' ++ back))) := by
    rw [← htokens, hsplit]
    simp only [List.append_assoc]
  exact exists_textIn hscan hreadw hsplit (by decide) hreadw

end Program

/-- An argument is written like a type, in a source or as they are printed. -/
def Expr.IsWrittenLike (source : String) (a : Expr) (t : TypeExpr) : Prop :=
  (Node.expr a).textIn source = (Node.type t).textIn source ∨ a.source = t.source

/-- An expression is an allocation with the first operand `a`. -/
def Expr.IsAllocationBy (e a : Expr) : Prop :=
  ∃ symbol name rest info, e = .call (.ident SpecialForm.alloc.name symbol name) (a :: rest) info

namespace Program

variable {source : String} {file : Option String} {p : Program}

/-- An argument in a parsed unit that is written like the type of a variable is, or spells, this type. -/
theorem exists_isSpelling (h : ofSource source file = .ok p) {a : Expr} (ha : (Node.program p).Contains (.expr a)) {d : FuncDecl}
    (hd : .func d ∈ p.decls) {v : VarDecl} (hv : .var v ∈ Stmt.flattenAll d.body) (hlike : a.IsWrittenLike source v.type) :
    ∃ w, a.IsSpelling w ∧ w.unplaced = v.type.unplaced := by
  obtain ⟨hwf, text, htext, hprints⟩ := exists_text_expr h ha
  obtain hlike | hlike := hlike
  · obtain ⟨text', htext', hprints'⟩ := exists_text_type h hd hv
    obtain rfl := String.toList_inj.mp (Option.some.inj ((htext.symm.trans hlike).trans htext'))
    exact Expr.exists_isSpelling_of_prints hprints hprints'
  · have hfunc : d.IsWellFormed := isWellFormed_of_ofSource h _ hd
    have hvar : v.IsWellFormed := Stmt.isWellFormed_of_mem_flattenAll d.body hfunc.2.2.2.1 _ hv
    have hprints := Expr.printsArguments [a] ⟨hwf, trivial⟩ a List.mem_cons_self [] Lexeme.ends_nil
    exact Expr.exists_isSpelling_of_prints hprints (hlike ▸ v.type.prints hvar.2 [] Lexeme.ends_nil)

/-- Types that are written as expressions. An expression of a parsed unit without names of builtins is read as a type exactly if its
text, behind `var` and any name, is parsed, and then this declares a variable of the type. What the parser has read as a type among
arguments is left out there, since it is never read as one again (`Grammar.isTypeArg`); its text declares a variable of that type
all the same. And where the declarations of a function are read without a halt, the operand of an allocation that is checked with
success stands for the type that a variable of the function has if it is written like the type of the variable, in whatever
statements the two stand. -/
theorem spells_types (h : ofSource source file = .ok p) (b : Builtins) :
    (∀ e, (Node.program p).Contains (.expr e) → (∀ y ∈ e.parts, ¬y.IsBuiltinName) → ∀ x, IsName x → ∀ file' : Option String,
      (Grammar.isTypeArg e = false → ((∃ w, e.asType? = some w) ↔ ∃ q, ofSource ("var " ++ x ++ " " ++ e.source) file' = .ok q))
        ∧ ∀ w, e.asType? = some w ∨ (∃ info, e = .typeArg w info) → ∃ (q : Program) (v : VarDecl),
          ofSource ("var " ++ x ++ " " ++ e.source) file' = .ok q ∧ q.decls = [.var v] ∧ v.name = x
            ∧ v.type.unplaced = w.unplaced)
    ∧ ∃ r, p.resolve b = .ok r ∧ ∀ f ∈ r.functions, ∀ e, f.entered = some e →
      ∃ d d' s, r.Enters b p f e d d' s ∧ (e.problem = none → d.Collects r.catalog s e.scope)
        ∧ (d.Collects r.catalog s e.scope → ∀ n v, (Stmt.flattenAll d.body)[n]? = some (Stmt.var v) →
          ∃ t, v.symbol d.name n t ∈ e.scope.symbols
            ∧ ∀ call a, (Node.program p).Contains (.expr call) → call.IsAllocationBy a → a.IsWrittenLike source v.type →
              (∀ k context checked u, call.check (r.site b e.scope k) context = .ok (checked, u) →
                u = .pointer t ∧ checked.IsAllocationOf t)
              ∧ (e.problem = none → ∀ (k : Nat) stmt, (Stmt.flattenAll d.body)[k]? = some stmt → stmt.value? = some call →
                ∃ stmt' checked, e.statements[k]? = some stmt' ∧ stmt'.value? = some checked ∧ checked.IsAllocationOf t)) := by
  have hp := isWellFormed_of_ofSource h
  obtain ⟨r, -, hr, -⟩ := exists_resolve hp b
  refine ⟨fun e he hnames x hx file' => ?_, r, hr, fun f hf e he => ?_⟩
  · obtain ⟨hwf, -⟩ := exists_text_expr h he
    obtain ⟨hparsed, hdeclared⟩ := Expr.isSpelling_iff_ofSource hwf hnames hx file'
    exact ⟨fun hexpr => (exists_congr fun _ => (Expr.isSpelling_iff_asType? hexpr).symm).trans hparsed,
      fun w hw => hdeclared w hw.symm⟩
  obtain ⟨d, d', s, henters⟩ := exists_hasCollected hp hr hf he
  refine ⟨d, d', s, henters.toEnters, henters.collects, fun hcollects n v hv => ?_⟩
  obtain ⟨t, ht, hdeclared⟩ := hcollects.exists_type hv
  obtain ⟨-, -, hfunction⟩ := hcollects.declare henters.wellFormed henters.arity b
  refine ⟨t, hfunction ▸ hdeclared, ?_⟩
  rintro call a hcall ⟨symbol, name, rest, info, rfl⟩ hlike
  have hd : Decl.func d ∈ p.decls := by
    obtain ⟨i, hi, -⟩ := henters.decl
    exact List.mem_of_getElem? hi
  have ha : (Node.program p).Contains (.expr a) :=
    .deeper hcall (List.mem_cons_of_mem _ (List.mem_map_of_mem List.mem_cons_self))
  obtain ⟨w, hw, hplaces⟩ := exists_isSpelling h ha hd (List.mem_of_getElem? hv) hlike
  -- The variable's type is found in what is in front of it, the operand in the whole scope: neither has constants of its own.
  have hown : (e.scope.before n).IsOwn := fun y hy => hcollects.isOwn y (List.mem_of_mem_filter hy)
  have hcheck (k : Nat) (context : Option Ty) (checked : Expr) (u : Ty)
      (hcheck : (Expr.call (.ident SpecialForm.alloc.name symbol name) (a :: rest) info).check (r.site b e.scope k) context
        = .ok (checked, u)) : u = .pointer t ∧ checked.IsAllocationOf t := by
    obtain ⟨t', ht', rfl, hallocation⟩ := Site.isAllocationOf_of_check hw hcheck
    obtain rfl := TypeExpr.resolve_unique hown hcollects.isOwn hplaces.symm ht ht'
    exact ⟨rfl, hallocation⟩
  refine ⟨hcheck, fun hproblem k stmt hk hvalue => ?_⟩
  obtain ⟨loops, stmt', hstmt, hget⟩ := FuncDecl.exists_checked henters.body hproblem hk
  obtain ⟨context, checked, u, hchecked, hvalue'⟩ :=
    Stmt.exists_check_of_value? hstmt ((Stmt.value?_number _ k stmt).trans hvalue)
  exact ⟨stmt', checked, hget, hvalue', (hcheck k context checked u hchecked).2⟩

/-- A variable and an allocation with its first operand, if they are in the first and the third statement of a function behind a
constant and a struct. -/
def allocationIn (p : Program) : Option (VarDecl × Expr × Expr) :=
  match p.decls with
  | [.const _, .struct _, .func ⟨_, _, _, [.var v, .var _, .assign _ (.call (.ident name symbol note) (a :: rest) info) _], .around _, _⟩] =>
    if name = SpecialForm.alloc.name then some (v, .call (.ident name symbol note) (a :: rest) info, a) else none
  | _ => none

theorem allocationIn_eq_some {call a : Expr} {v : VarDecl} (h : p.allocationIn = some (v, call, a)) :
    call.IsAllocationBy a ∧ (Node.program p).Contains (.expr call) ∧ ∃ c s d y target span,
      p.decls = [.const c, .struct s, .func d] ∧ Stmt.flattenAll d.body = [.var v, .var y, .assign target call span] := by
  unfold allocationIn at h
  split at h
  · rename_i c s _ _ _ _ y target name symbol note a' rest info span braces _ hdecls
    split at h
    · rename_i hname
      obtain ⟨rfl, hrest⟩ := Prod.mk.inj (Option.some.inj h)
      obtain ⟨rfl, rfl⟩ := Prod.mk.inj hrest
      subst hname
      refine ⟨⟨symbol, note, rest, info, rfl⟩, ?_, c, s, _, y, target, span, hdecls, rfl⟩
      have hfunc : (Node.program p).Contains (.func _) :=
        .child (List.mem_map_of_mem (hdecls ▸ List.mem_cons_of_mem _ (List.mem_cons_of_mem _ List.mem_cons_self)))
      have hbody := hfunc.deeper (List.mem_cons_of_mem _ (List.mem_append_right _ List.mem_cons_self))
      have hassign : (Node.program p).Contains (.stmt (.assign target _ span)) :=
        hbody.deeper (List.mem_map_of_mem (List.mem_cons_of_mem _ (List.mem_cons_of_mem _ List.mem_cons_self)))
      exact hassign.deeper (List.mem_cons_of_mem _ List.mem_cons_self)
    · cases h
  · cases h

/-- The text of the variable's type is read as the type, and what is allocated by the same text has this type. -/
theorem spells_types_structs : ∃ p r v call a w, ofSource allocating = .ok p ∧ p.resolve = .ok r
    ∧ p.allocationIn = some (v, call, a) ∧ v.type.source = "S[n]" ∧ a.source = "S[n]" ∧ a.asType? = some w
    ∧ (∃ q u, ofSource ("var " ++ "y" ++ " " ++ "S[n]") = .ok q ∧ q.decls = [.var u] ∧ u.type.unplaced = w.unplaced)
    ∧ ∃ f ∈ r.functions, ∃ e stmt checked, f.entered = some e ∧ v.symbol f.name 0 (.array (.struct "S") 3) ∈ e.scope.symbols
      ∧ e.statements[2]? = some stmt ∧ stmt.value? = some checked ∧ checked.IsAllocationOf (.array (.struct "S") 3) := by
  have hparsed : (ofSource allocating).toOption.bind (fun p => p.allocationIn.map fun x =>
      (x.1.name, x.1.type.source, x.2.2.source, Grammar.isTypeArg x.2.2, x.2.2.asType?.isSome,
        x.2.2.parts.all fun y => y.ident?.all fun name => !isBuiltinName name)) = some ("v", "S[n]", "S[n]", false, true, true) :=
    bind_ofSource (by decide +kernel)
  have hresolved : (do
      let p ← (ofSource allocating).toOption
      let r ← p.resolveFlat.toOption
      return r.functions.map fun f => (f.entered.filter fun e => e.problem.isNone).map fun e =>
        e.scope.symbols.map fun s => (s.name, s.ty))
      = some [some [("v", some (.array (.struct "S") 3)), ("p", some (.pointer (.array (.struct "S") 3)))]] :=
    bind_ofSource (by decide +kernel)
  obtain ⟨p, r, hp, hr, hresolved⟩ := exists_of_resolveFlat hresolved
  obtain ⟨p', hp', hparsed⟩ := Option.bind_eq_some_iff.mp hparsed
  obtain rfl := Except.ok.inj (hp.symm.trans (Except.toOption_eq_some_iff.mp hp'))
  obtain ⟨⟨v, call, a⟩, hin, hparsed⟩ := Option.map_eq_some_iff.mp hparsed
  simp only [Prod.mk.injEq] at hparsed
  obtain ⟨hname, htype, hsource, harg, hspells, hparts⟩ := hparsed
  obtain ⟨w, hw⟩ := Option.isSome_iff_exists.mp hspells
  obtain ⟨hcall, hcontains, c, s, d, y, target, span, hdecls, hbody⟩ := allocationIn_eq_some hin
  obtain ⟨symbol, name, rest, info, rfl⟩ := hcall
  have ha : (Node.program p).Contains (.expr a) :=
    .deeper hcontains (List.mem_cons_of_mem _ (List.mem_map_of_mem List.mem_cons_self))
  have hnames : ∀ y ∈ a.parts, ¬y.IsBuiltinName := fun y hy hbuiltin => by
    have hy := List.all_eq_true.mp hparts y hy
    cases y with
    | ident name _ _ =>
      rw [Expr.ident?, Option.all_some, show isBuiltinName name = true from hbuiltin] at hy
      cases hy
    | _ => exact hbuiltin
  obtain ⟨hspelled, r', hr', hallocated⟩ := spells_types hp Builtins.standard
  obtain rfl := Except.ok.inj (hr.symm.trans hr')
  obtain ⟨-, hdeclared⟩ := hspelled a ha hnames "y" (by decide) none
  obtain ⟨q, u, hq, hu, -, hplaces⟩ := hdeclared w (.inl hw)
  obtain ⟨f, hf, hentered⟩ := List.map_eq_singleton_iff.mp hresolved
  obtain ⟨e, he, hsymbols⟩ := Option.map_eq_some_iff.mp hentered
  obtain ⟨he, hnone⟩ := Option.filter_eq_some_iff.mp he
  have hf : f ∈ r.functions := hf ▸ List.mem_cons_self
  obtain ⟨d', d'', s', henters, hcollects, hallocates⟩ := hallocated f hf e he
  have hproblem : e.problem = none := Option.isNone_iff_eq_none.mp hnone
  have hd : d' = d := by
    obtain ⟨i, hi, -⟩ := henters.decl
    simpa [hdecls] using List.mem_of_getElem? hi
  subst hd
  obtain ⟨t, ht, hallocates⟩ := hallocates (hcollects hproblem) 0 v (by rw [hbody]; rfl)
  obtain ⟨-, hnoted⟩ := hallocates _ a hcontains ⟨symbol, name, rest, info, rfl⟩ (.inr (hsource.trans htype.symm))
  obtain ⟨stmt, checked, hstmt, hvalue, hallocation⟩ := hnoted hproblem 2 _ (by rw [hbody]; rfl) rfl
  have hvt : (v.name, some t) ∈ e.scope.symbols.map fun s => (s.name, s.ty) := List.mem_map_of_mem ht
  rw [hsymbols, hname] at hvt
  obtain rfl : t = .array (.struct "S") 3 := by simpa using hvt
  exact ⟨p, r, v, _, a, w, hp, hr, hin, htype, hsource, hw, ⟨q, u, hsource ▸ hq, hu, hplaces⟩, f, hf, e, stmt, checked, he,
    henters.name ▸ ht, hstmt, hvalue, hallocation⟩

end Program

end FlatScope
