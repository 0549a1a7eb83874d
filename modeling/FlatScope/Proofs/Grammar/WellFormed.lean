/-
  What is parsed is well formed. Every rule makes a well-formed tree of well-formed parts (`Production.isWellFormed_read`),
  where a name has to be scanned as one, a literal has to be in its range, and a target and a call that stands alone
  have to be what their rules ask for; so every tree that is parsed from a source is well formed.
-/
import FlatScope.Proofs.Grammar.Proper
import FlatScope.Proofs.Number.Text
import FlatScope.Proofs.Parsing
import FlatScope.Proofs.Token.Scan
import FlatScope.Proofs.Tree.WellFormed

namespace FlatScope

namespace Token.IsScanned

variable {t : Token}

theorem isName (h : t.IsScanned) (hk : t.kind = .name) : IsName t.lexeme := by
  have hs := h.spelled
  unfold IsSpelled at hs
  rw [hk] at hs
  exact ⟨hs, h.keyword hk⟩

theorem isBuiltin (h : t.IsScanned) (hk : t.kind = .builtin) : IsBuiltin t.lexeme := by
  have hs := h.spelled
  unfold IsSpelled at hs
  rwa [hk] at hs

/-- Whatever is no mark but spells the kind of a keyword is a keyword. -/
theorem ofKeyword? (h : t.IsScanned) (hk : t.kind = .intKw ∨ t.kind = .floatKw ∨ t.kind = .byteKw ∨ t.kind = .voidKw) :
    Kind.ofKeyword? t.lexeme = some t.kind := by
  have hs := h.spelled
  have hmark : ∀ {cs : List Char} {kind : Kind} {n : Nat}, Lexeme.mark? cs = some (kind, n) →
      ¬(kind = .intKw ∨ kind = .floatKw ∨ kind = .byteKw ∨ kind = .voidKw) := by
    intro cs kind n hm
    unfold Lexeme.mark? at hm
    split at hm <;> cases hm <;> decide
  unfold IsSpelled at hs
  have hs : Kind.ofKeyword? (String.ofList t.lexeme.toList) = some t.kind
      ∨ Lexeme.mark? t.lexeme.toList = some (t.kind, t.lexeme.toList.length) := by
    obtain hk | hk | hk | hk := hk <;> rw [hk] at hs ⊢ <;> exact hs
  obtain hs | hs := hs
  · rwa [String.ofList_toList] at hs
  · exact absurd hk (hmark hs)

theorem isTypeWord (h : t.IsScanned) (hk : t.kind = .intKw ∨ t.kind = .floatKw ∨ t.kind = .byteKw ∨ t.kind = .voidKw) :
    IsTypeWord t.lexeme := by
  have hw := h.ofKeyword? hk
  generalize t.lexeme = s at hw
  obtain hk | hk | hk | hk := hk
  all_goals
    rw [hk] at hw
    unfold Kind.ofKeyword? at hw
    split at hw <;> cases hw
    simp [IsTypeWord]

theorem isFinite_realValue (h : t.IsScanned) (hk : t.kind = .real) : t.realValue.isFinite = true := by
  have hr := h.inRange
  rw [fault?, hk] at hr
  by_contra hf
  have hr : (if t.realValue.isFinite then none else some (LexFault.realOutOfRange t.lexeme)) = none := hr
  rw [if_neg hf] at hr
  cases hr

theorem byteValue_inRange (h : t.IsScanned) (hk : t.kind = .byte ∨ t.kind = .char) :
    0 ≤ t.byteValue ∧ t.byteValue ≤ 255 := by
  have hr := h.inRange
  have hs := h.spelled
  unfold IsSpelled at hs
  refine ⟨?_, ?_⟩
  · obtain hk | hk := hk
    · rw [hk] at hs
      have hb : Lexeme.IsByte t.lexeme.toList := by simpa using Lexeme.byte?_spelled hs
      generalize ht : t.lexeme.toList = cs at hb
      obtain @⟨ds, hd⟩ := hb
      rw [byteValue, readByte_of_isByte ht hd, Decimal.intOfChars_of_isDigits hd]
      exact Int.natCast_nonneg _
    · rw [hk] at hs
      obtain ⟨n, hn⟩ := readByte_of_char? hs
      rw [byteValue, hn]
      exact Int.natCast_nonneg n
  · by_contra hf
    have hr : (if t.byteValue ≤ 255 then none else some (LexFault.byteOutOfRange t.lexeme)) = none
        ∨ (if t.byteValue ≤ 255 then none else some (LexFault.wideCharacter t.lexeme)) = none := by
      rw [fault?] at hr
      obtain hk | hk := hk <;> rw [hk] at hr
      · exact .inl hr
      · exact .inr hr
    obtain hr | hr := hr <;> rw [if_neg hf] at hr <;> cases hr

end Token.IsScanned

namespace Grammar

/-! ## Well-formed values -/

def Suffix.IsWellFormed : Suffix → Prop
  | index i _ => i.IsWellFormed
  | call args _ => Expr.AreArguments args

/-- What a class of phrases is read as is well formed, and fit for the place of such phrases. -/
def Nonterminal.IsWellFormed : (x : Nonterminal) → x.Value → Prop
  | .unit, ds | .decls, ds => ∀ d ∈ (ds : List Decl), d.IsWellFormed
  | .decl, d => d.IsWellFormed
  | .constDecl, d => d.IsWellFormed
  | .constRef, e | .literal, e => e.IsConstant ∧ e.IsWellFormed
  | .varDecl, d => d.IsWellFormed
  | .structDecl, d => d.IsWellFormed
  | .fields, ds => ∀ d ∈ ds, d.IsWellFormed
  | .funDecl, d => d.IsWellFormed
  | .params, ps => ∀ p ∈ ps, p.IsWellFormed
  | .param, p => p.IsWellFormed
  | .type, t | .baseType, t => t.IsWellFormed
  | .primitive, t | .typeArg, t => t.IsWellFormed ∧ t.IsTelling
  | .types, ts => TypeExpr.AreWellFormed ts
  | .arraySize, size => size.IsWellFormed
  | .block, b => Stmt.AreWellFormed b.statements
  | .stmts, ss => Stmt.AreWellFormed ss
  | .stmt, s | .assignStmt, s | .callStmt, s | .whileStmt, s | .breakStmt, s | .continueStmt, s | .labelStmt, s
  | .gotoStmt, s => s.IsWellFormed
  | .ifStmt, s => s.IsBranch ∧ s.IsWellFormed
  | .expr, e | .composite, e => e.IsWellFormed
  | .chain, e => e.IsChain ∧ e.IsWellFormed
  | .suffixes, xs => ∀ x ∈ xs, x.IsWellFormed
  | .suffix, x | .indexSuffix, x | .callSuffix, x => x.IsWellFormed
  | .args, es => Expr.AreArguments es
  | .arg, e => e.IsWellFormed ∨ e.IsTypeArgument
  | .exprs, es => Expr.AreWellFormed es
  | .opener, _ => True

def Sym.IsWellFormed : (s : Sym) → s.Value → Prop
  | .t kind, word => word.kind = kind ∧ word.IsScanned
  | .n x, v => x.IsWellFormed v

def Values.AreWellFormed : {ss : List Sym} → Values ss → Prop
  | [], _ => True
  | s :: _, (v, vs) => s.IsWellFormed v ∧ AreWellFormed vs

/-- What a rule asks of the values of its parts. -/
def Production.Admits : (p : Production) → Values p.rhs → Prop
  | .assignTo, (target, _) => target.isPlace = true
  | .callChain, (e, ()) => e.isCall = true
  | _, _ => True

end Grammar

/-- A place among the well-formed expressions is a target. -/
theorem Expr.IsWellFormed.isTarget : (e : Expr) → e.IsWellFormed → e.isPlace = true → e.IsTarget
  | .ident name _ _, h, hp => by
    have hp : (!isBuiltinName name) = true := hp
    obtain h | h := (h : IsName name ∨ IsBuiltin name)
    · exact h
    · obtain ⟨xs, hx, -⟩ := Lexeme.builtin?_spelled h
      rw [List.take_length] at hx
      rw [isBuiltinName, hx] at hp
      cases hp
  | .index b _ _, h, hp => IsWellFormed.isTarget b h.2.1 hp
  | .int .., _, hp | .real .., _, hp | .byte .., _, hp | .field .., _, hp | .call .., _, hp | .composite .., _, hp
  | .addrOf .., _, hp | .typeArg .., _, hp | .foreign _, _, hp => Bool.noConfusion hp

namespace Grammar

/-- A suffix behind a chain makes a chain. -/
theorem Suffix.isWellFormed_applyTo {e : Expr} {x : Suffix} (he : e.IsChain ∧ e.IsWellFormed) (hx : x.IsWellFormed) :
    (x.applyTo e).IsChain ∧ (x.applyTo e).IsWellFormed := by
  cases x with
  | index i span => exact ⟨trivial, he.1, he.2, hx⟩
  | call args span =>
    by_cases ha : e.IsAddressForm args
    · obtain ⟨symbol, info, arg, rfl, rfl, harg⟩ := ha
      have happly : Suffix.applyTo (.ident SpecialForm.addr.name symbol info) (.call [arg] span)
          = .addrOf arg { span := .join info.span span } := by
        show (if SpecialForm.addr.name = SpecialForm.addr.name ∧ !isTypeArg arg then _ else _) = _
        rw [if_pos ⟨rfl, by rw [harg]; rfl⟩]
        rfl
      rw [happly]
      obtain hw | ht := (hx : (arg.IsWellFormed ∨ arg.IsTypeArgument) ∧ True).1
      · exact ⟨trivial, hw⟩
      · cases arg
        case typeArg => cases harg
        all_goals exact ht.elim
    · rw [Suffix.applyTo_call ha]
      exact ⟨trivial, he.1, he.2, hx, ha⟩

theorem isWellFormed_foldl {e : Expr} {xs : List Suffix} (he : e.IsChain ∧ e.IsWellFormed)
    (hxs : ∀ x ∈ xs, x.IsWellFormed) :
    (xs.foldl Suffix.applyTo e).IsChain ∧ (xs.foldl Suffix.applyTo e).IsWellFormed := by
  induction xs generalizing e with
  | nil => exact he
  | cons x xs ih =>
    obtain ⟨hx, hxs⟩ := List.forall_mem_cons.mp hxs
    exact ih (Suffix.isWellFormed_applyTo he hx) hxs

theorem isTelling_pointer {e : TypeExpr} (h : e.IsTelling) {span : Span} : (TypeExpr.pointer e span).IsTelling := by
  cases e
  case named => trivial
  all_goals exact h

variable {start name close : Token}

theorem isWellFormed_struct {ds : List VarDecl} (hn : IsName name.lexeme) (hne : ds ≠ [])
    (h : ∀ d ∈ ds, d.IsWellFormed) : (struct start name ds close).IsWellFormed :=
  ⟨hn, fun hm => hne (List.map_eq_nil_iff.mp hm), List.forall_mem_map.mpr fun d hd => ⟨d, rfl, h d hd⟩⟩

theorem isWellFormed_function {result : TypeExpr} {ps : List Param} {body : Body} (hn : IsName name.lexeme)
    (hr : result.IsWellFormed) (h : ∀ p ∈ ps, p.IsWellFormed) (hb : Stmt.AreWellFormed body.statements) :
    (function start name result ps body).IsWellFormed :=
  ⟨hn, hr, List.forall_mem_map.mpr fun p hp => ⟨p, rfl, h p hp⟩, hb, trivial⟩

/-- A rule makes a well-formed tree of well-formed parts. -/
theorem Production.isWellFormed_read (p : Production) (vs : Values p.rhs) (h : vs.AreWellFormed) (ha : p.Admits vs) :
    p.lhs.IsWellFormed (p.read vs) := by
  cases p
  -- rules that hand on what they are given
  case unitEmpty => exact List.forall_mem_nil _
  case unitDecls | declConst | declVar | declStruct | declFun | typeBase | stmtVar | stmtAssign | stmtCall | stmtWhile
    | stmtBreak | stmtContinue | stmtLabel | stmtGoto | stmtBlock | exprComposite | suffixIndex | suffixCall
    | typeArgPrimitive => exact h.1
  case basePrimitive => exact h.1.1
  case stmtIf | exprChain | exprLiteral => exact h.1.2
  case argExpr => exact .inl h.1
  case argType => exact .inr h.1
  case openSpaced | openAdjacent => trivial
  -- rules for lists
  case declsOne | suffixesOne => exact List.forall_mem_singleton.mpr h.1
  case fieldsOne | paramsOne => exact List.forall_mem_singleton.mpr h.2.1
  case declsMore | suffixesMore => exact List.forall_mem_append.mpr ⟨h.1, List.forall_mem_singleton.mpr h.2.1⟩
  case fieldsMore | paramsMore => exact List.forall_mem_append.mpr ⟨h.1, List.forall_mem_singleton.mpr h.2.2.1⟩
  case typesOne | argsOne | exprsOne => exact ⟨h.2.1, trivial⟩
  case stmtsOne | stmtsOneSemi => exact ⟨h.1, trivial⟩
  case typesMore =>
    have hts := TypeExpr.areWellFormed_iff.mp h.1
    exact TypeExpr.areWellFormed_iff.mpr (List.forall_mem_append.mpr ⟨hts, List.forall_mem_singleton.mpr h.2.2.1⟩)
  case argsMore =>
    have hes := Expr.areArguments_iff.mp h.1
    exact Expr.areArguments_iff.mpr (List.forall_mem_append.mpr ⟨hes, List.forall_mem_singleton.mpr h.2.2.1⟩)
  case exprsMore =>
    have hes := Expr.areWellFormed_iff.mp h.1
    exact Expr.areWellFormed_iff.mpr (List.forall_mem_append.mpr ⟨hes, List.forall_mem_singleton.mpr h.2.2.1⟩)
  case stmtsMore | stmtsMoreSemi =>
    have hss := Stmt.areWellFormed_iff.mp h.1
    exact Stmt.areWellFormed_iff.mpr (List.forall_mem_append.mpr ⟨hss, List.forall_mem_singleton.mpr h.2.1⟩)
  -- rules for types
  case primitiveInt => exact ⟨.inl (h.1.2.isTypeWord (.inl h.1.1)), h.1.2.isTypeWord (.inl h.1.1)⟩
  case primitiveFloat => exact ⟨.inl (h.1.2.isTypeWord (.inr (.inl h.1.1))), h.1.2.isTypeWord (.inr (.inl h.1.1))⟩
  case primitiveByte =>
    have hw := h.1.2.isTypeWord (.inr (.inr (.inl h.1.1)))
    exact ⟨.inl hw, hw⟩
  case primitiveVoid =>
    have hw := h.1.2.isTypeWord (.inr (.inr (.inr h.1.1)))
    exact ⟨.inl hw, hw⟩
  case baseNamed => exact .inr (h.1.2.isName h.1.1)
  case typePointer => exact h.1
  case typeArray => exact ⟨h.1, h.2.2.1⟩
  case typeFunMany => exact ⟨h.1, h.2.2.1, h.2.2.2.1⟩
  case typeFunOne => exact ⟨h.1, h.2.2.1, trivial⟩
  case typeFunNone => exact ⟨h.1, trivial⟩
  case sizeInteger => trivial
  case sizeName => exact h.1.2.isName h.1.1
  case typeArgNamedPointer => exact ⟨.inr (h.1.2.isName h.1.1), trivial⟩
  case typeArgPointer => exact ⟨h.1.1, isTelling_pointer h.1.2⟩
  case typeArgArray => exact ⟨⟨h.1.1, h.2.2.1⟩, h.1.2⟩
  case typeArgFunMany => exact ⟨⟨h.1.1, h.2.2.1, h.2.2.2.1⟩, h.1.2⟩
  case typeArgFunOne => exact ⟨⟨h.1.1, h.2.2.1, trivial⟩, h.1.2⟩
  case typeArgFunNone => exact ⟨⟨h.1.1, trivial⟩, h.1.2⟩
  -- rules for expressions
  case chainName => exact ⟨trivial, .inl (h.1.2.isName h.1.1)⟩
  case chainBuiltin => exact ⟨trivial, .inr (h.1.2.isBuiltin h.1.1)⟩
  case chainNameSuffixes => exact isWellFormed_foldl ⟨trivial, .inl (h.1.2.isName h.1.1)⟩ h.2.1
  case chainBuiltinSuffixes => exact isWellFormed_foldl ⟨trivial, .inr (h.1.2.isBuiltin h.1.1)⟩ h.2.1
  case constRefName => exact ⟨h.1.2.isName h.1.1, .inl (h.1.2.isName h.1.1)⟩
  case indexExpr => exact h.2.1
  case callMany => exact ⟨h.2.1, h.2.2.1⟩
  case callOne => exact ⟨h.2.1, trivial⟩
  case callNone | compositeNone | literalInt => trivial
  case compositeMany => exact ⟨h.2.1, h.2.2.1⟩
  case compositeOne => exact ⟨h.2.1, trivial⟩
  case literalReal => exact ⟨trivial, h.1.2.isFinite_realValue h.1.1⟩
  case literalByte => exact ⟨trivial, h.1.2.byteValue_inRange (.inl h.1.1)⟩
  case literalChar => exact ⟨trivial, h.1.2.byteValue_inRange (.inr h.1.1)⟩
  -- rules for statements
  case blockStmts => exact h.2.1
  case blockEmpty | breakWord | continueWord => trivial
  case assignTo => exact ⟨h.1.2.isTarget _ ha, h.1.2, h.2.2.1⟩
  case callChain => exact ⟨ha, h.1.2⟩
  case ifElseIf => exact ⟨trivial, h.2.1, h.2.2.1, trivial, h.2.2.2.2.1⟩
  case ifElse => exact ⟨trivial, h.2.1, h.2.2.1, trivial, trivial, h.2.2.2.2.1⟩
  case ifOnly => exact ⟨trivial, h.2.1, h.2.2.1, trivial, trivial⟩
  case whileLoop => exact ⟨h.2.1, h.2.2.1, trivial⟩
  case labelNamed => exact h.2.1.2.isName h.2.1.1
  case gotoLabel => exact h.2.2.1.2.isName h.2.2.1.1
  -- rules for declarations
  case constLiteral | constAlias => exact ⟨h.2.1.2.isName h.2.1.1, h.2.2.1⟩
  case varTyped | paramTyped => exact ⟨h.2.1.2.isName h.2.1.1, h.2.2.1⟩
  case structMany =>
    exact isWellFormed_struct (h.2.1.2.isName h.2.1.1) (List.cons_ne_nil _ _) (List.forall_mem_cons.mpr ⟨h.2.2.2.1, h.2.2.2.2.1⟩)
  case structOne =>
    exact isWellFormed_struct (h.2.1.2.isName h.2.1.1) (List.cons_ne_nil _ _) (List.forall_mem_singleton.mpr h.2.2.2.1)
  case funMany =>
    exact isWellFormed_function (h.2.1.2.isName h.2.1.1) h.2.2.1 (List.forall_mem_cons.mpr ⟨h.2.2.2.2.1, h.2.2.2.2.2.1⟩) h.2.2.2.2.2.2.2.1
  case funOne =>
    exact isWellFormed_function (h.2.1.2.isName h.2.1.1) h.2.2.1 (List.forall_mem_singleton.mpr h.2.2.2.2.1) h.2.2.2.2.2.2.1
  case funNone =>
    exact isWellFormed_function (h.2.1.2.isName h.2.1.1) h.2.2.1 (List.forall_mem_nil _) h.2.2.2.2.2.1

/-! ## Parsed trees -/

/-- A fault-free rule admits its parts. -/
theorem Production.admits_values {p : Production} {f : Forest p.rhs} (h : ∀ t ∈ f.tokens, t.IsSpelled) (ha : p.Allows f) :
    p.Admits f.values := by
  cases p
  case assignTo =>
    match f with
    | .cons target rest =>
      have ht : ∀ t ∈ target.tokens, t.IsSpelled := fun t hm => h t (List.mem_append_left _ hm)
      exact (isPlace_value ht).mpr ha
  case callChain =>
    match f with
    | .cons chain .nil => exact isCall_value.mpr ha
  all_goals trivial

mutual

/-- What is read of scanned tokens without a fault is well formed. -/
theorem Derivation.isWellFormed_value : {s : Sym} → (d : Derivation s) → (∀ t ∈ d.tokens, t.IsScanned) →
    d.IsProper → s.IsWellFormed d.value
  | _, .leaf t, h, _ => ⟨rfl, h t List.mem_cons_self⟩
  | _, .node p f, h, hp => by
    have hf := f.areWellFormed_values h hp.2
    exact p.isWellFormed_read f.values hf (Production.admits_values (fun t ht => (h t ht).spelled) hp.1)

theorem Forest.areWellFormed_values : {ss : List Sym} → (f : Forest ss) → (∀ t ∈ f.tokens, t.IsScanned) →
    f.IsProper → f.values.AreWellFormed
  | _, .nil, _, _ => trivial
  | _, .cons d f, h, hp => by
    have h : ∀ t ∈ d.tokens ++ f.tokens, t.IsScanned := h
    obtain ⟨hd, hf⟩ := List.forall_mem_append.mp h
    exact ⟨d.isWellFormed_value hd hp.1, f.areWellFormed_values hf hp.2⟩

end

end Grammar

open Grammar in
/-- What is parsed from a source has a derivation of its scanned tokens. -/
theorem Program.exists_derivation_of_ofSource {source : String} {file : Option String} {p : Program}
    (h : ofSource source file = .ok p) :
    ∃ d : Derivation (.n .unit), (∀ t ∈ d.tokens, t.IsScanned) ∧ d.fault? = none ∧ p = { decls := d.value, file } := by
  unfold ofSource at h
  split at h
  · cases h
  · rename_i tokens hscan
    obtain ⟨d, rfl, hf, rfl⟩ := exists_derivation h
    exact ⟨d, Scan.isScanned_of_mem_scan hscan, hf, rfl⟩

/-- What is parsed from a source is well formed. -/
theorem Program.isWellFormed_of_ofSource {source : String} {file : Option String} {p : Program}
    (h : ofSource source file = .ok p) : p.IsWellFormed := by
  obtain ⟨d, ht, hf, rfl⟩ := exists_derivation_of_ofSource h
  have hproper := (d.fault?_eq_none_iff fun t hm => (ht t hm).spelled).mp hf
  exact d.isWellFormed_value ht hproper

end FlatScope
