/-
  Types among arguments. The tokens of a type are those of an argument if the type can be told from an expression, or if it is a
  name with nothing but lengths behind it, which is an expression that spells the type (`Derivation.exists_argument`); a
  struct's name with lengths or parameters behind it and stars behind those is neither.
-/
import FlatScope.Proofs.Allocation.Phrase
import FlatScope.Proofs.Grammar.WellFormed
import FlatScope.Proofs.Renaming
import FlatScope.Proofs.Totality.Phrase
import FlatScope.Resolution.Value

namespace FlatScope

/-- A type that is a name, with nothing but lengths behind it. -/
def TypeExpr.IsBare : TypeExpr → Prop
  | named _ _ => True
  | array e _ _ => e.IsBare
  | _ => False

/-- A type with a star behind it that is more than a name can be told from an expression if it can itself. -/
theorem TypeExpr.isTelling_pointer {e : TypeExpr} (h : ∀ name span, e ≠ .named name span) (span : Span) :
    IsTelling (.pointer e span) ↔ e.IsTelling := by
  cases e with
  | named name span => exact absurd rfl (h name span)
  | _ => rfl

namespace Expr

/-- The type that an expression spells is where the expression is. -/
theorem span_asType? : (e : Expr) → {w : TypeExpr} → e.asType? = some w → w.span = e.span
  | .ident _ _ _, _, h => by
    obtain rfl := Option.some.inj h
    rfl
  | .index base i info, w, h => by
    obtain ⟨element, -, h⟩ := Option.bind_eq_some_iff.mp h
    obtain ⟨size, -, h⟩ := Option.bind_eq_some_iff.mp h
    obtain rfl := Option.some.inj h
    rfl
  | .int .., _, h | .real .., _, h | .byte .., _, h | .field .., _, h | .call .., _, h | .composite .., _, h | .addrOf .., _, h
  | .typeArg .., _, h | .foreign _, _, h => nomatch h

/-- Only a name spells a name. -/
theorem exists_ident_of_asType? {e : Expr} {name : String} {span : Span} (h : e.asType? = some (.named name span)) :
    ∃ symbol info, e = .ident name symbol info ∧ info.span = span := by
  cases e with
  | ident name symbol info =>
    obtain ⟨rfl, rfl⟩ := TypeExpr.named.inj (Option.some.inj h)
    exact ⟨symbol, info, rfl, rfl⟩
  | index base i info =>
    obtain ⟨element, -, h⟩ := Option.bind_eq_some_iff.mp h
    obtain ⟨size, -, h⟩ := Option.bind_eq_some_iff.mp h
    cases Option.some.inj h
  | _ => cases h

/-- The argument that is, or spells, a type. -/
def IsSpelling (w : TypeExpr) (e : Expr) : Prop := (∃ info, e = .typeArg w info) ∨ e.asType? = some w

end Expr

namespace Grammar

/-- A name spells a type with suffixes behind it, and these are the tokens of both. -/
structure Spells (word : Derivation (.t .name)) (xs : List (Derivation (.n .suffix))) (tokens : List Token) (w : TypeExpr) :
    Prop where
  tokens : word.tokens ++ xs.flatMap Derivation.tokens = tokens
  value : ((xs.map Derivation.value).foldl Suffix.applyTo (nameExpr word.value)).asType? = some w

/-- A phrase of types among arguments is read as a type, and these are its tokens. -/
structure Tells (a : Derivation (.n .typeArg)) (tokens : List Token) (w : TypeExpr) : Prop where
  tokens : a.tokens = tokens
  value : a.value = w

/-- What the parts of a type can be taken for among arguments. -/
def Derivation.IsArgument : {s : Sym} → Derivation s → Prop
  | .n .arraySize, d => ∃ i : Derivation (.n .expr), i.tokens = d.tokens ∧ i.value.size? = some d.value
  | .n .baseType, d => (∃ a, Tells a d.tokens d.value) ∨ ∃ word, Spells word [] d.tokens d.value ∧ ¬d.value.IsTelling
  | .n .type, d => (∃ a, Tells a d.tokens d.value) ∨ (∃ word xs, Spells word xs d.tokens d.value ∧ ¬d.value.IsTelling)
    ∨ ¬d.value.IsTelling ∧ ¬d.value.IsBare
  | _, _ => True

/-- A name alone is what spells a name. -/
theorem Spells.eq_nil_of_named {word : Derivation (.t .name)} {xs : List (Derivation (.n .suffix))} {tokens : List Token}
    {w : TypeExpr} (h : Spells word xs tokens w) {name : String} {span : Span} (hw : w = .named name span) : xs = [] := by
  obtain rfl | ⟨init, x, rfl⟩ := xs.eq_nil_or_concat
  · rfl
  · have hvalue := h.value
    rw [hw, List.concat_eq_append, List.map_append, List.foldl_append] at hvalue
    obtain ⟨symbol, info, hident, -⟩ := Expr.exists_ident_of_asType? hvalue
    exact absurd hident (Suffix.applyTo_ne_ident _ _ _ _ _)

/-- One more index behind a type that is spelled. -/
theorem Spells.index {word : Derivation (.t .name)} {xs : List (Derivation (.n .suffix))} {tokens : List Token} {w : TypeExpr}
    (h : Spells word xs tokens w) {x : Derivation (.n .suffix)} {i : Expr} {size : ArraySize} {span : Span}
    (hvalue : x.value = .index i span) (hi : i.size? = some size) (close : Token) (hspan : span.stop = close.span.stop) :
    Spells word (xs ++ [x]) (tokens ++ x.tokens) (arrayType w size close) := by
  refine ⟨?_, ?_⟩
  · rw [List.flatMap_append, List.flatMap_singleton, ← List.append_assoc, h.tokens]
  · have hbase := h.value
    rw [List.map_append, List.foldl_append]
    generalize (xs.map Derivation.value).foldl Suffix.applyTo (nameExpr word.value) = base at hbase
    show (Suffix.applyTo base x.value).asType? = _
    have hjoin : Span.join base.span span = Span.join w.span close.span := by
      rw [Span.join, hspan, ← base.span_asType? hbase]
      rfl
    rw [hvalue, arrayType, ← hjoin]
    show (do
      let element ← base.asType?
      let size ← i.size?
      return TypeExpr.array element size (.join base.span span)) = _
    rw [hbase, hi]
    rfl

/-- What a type can be taken for among arguments, from what its parts can. -/
theorem Production.isArgument (p : Production) (f : Forest p.rhs) (hscanned : ∀ t ∈ f.tokens, t.IsScanned)
    (h : f.All @Derivation.IsArgument) : (Derivation.node p f).IsArgument := by
  cases p
  all_goals try trivial
  case sizeInteger =>
    match f with
    | .cons n .nil =>
      exact ⟨.node .exprLiteral (.cons (.node .literalInt (.cons n .nil)) .nil), List.append_nil _, rfl⟩
  case sizeName =>
    match f with
    | .cons name .nil =>
      exact ⟨.node .exprChain (.cons (.node .chainName (.cons name .nil)) .nil), List.append_nil _, rfl⟩
  case basePrimitive =>
    match f with
    | .cons word .nil => exact .inl ⟨.node .typeArgPrimitive (.cons word .nil), rfl, rfl⟩
  case baseNamed =>
    match f with
    | .cons word .nil =>
      obtain ⟨t, hkind, htokens, hvalue⟩ := word.isFolded
      have hname : IsName t.lexeme :=
        (hscanned t (List.mem_append_left _ (htokens ▸ List.mem_singleton_self t))).isName hkind
      refine .inr ⟨word, ⟨rfl, rfl⟩, ?_⟩
      show ¬IsTypeWord (Token.lexeme word.value)
      rw [hvalue]
      exact hname.not_isTypeWord
  case typeBase =>
    match f, h with
    | .cons t .nil, ⟨h, _⟩ =>
      obtain ⟨a, ha⟩ | ⟨word, hword, htelling⟩ := h
      · exact .inl ⟨a, ha.tokens.trans (List.append_nil _).symm, ha.value⟩
      · exact .inr (.inl ⟨word, [], ⟨hword.tokens.trans (List.append_nil _).symm, hword.value⟩, htelling⟩)
  case typePointer =>
    match f, h with
    | .cons t (.cons star .nil), ⟨h, _⟩ =>
      obtain ⟨a, ha⟩ | ⟨word, xs, hword, htelling⟩ | ⟨htelling, hbare⟩ := h
      · exact .inl ⟨.node .typeArgPointer (.cons a (.cons star .nil)), congrArg (· ++ (star.tokens ++ [])) ha.tokens,
          congrArg (pointerType · star.value) ha.value⟩
      · by_cases hnamed : ∃ name span, t.value = .named name span
        · obtain ⟨name, span, hnamed⟩ := hnamed
          obtain rfl := hword.eq_nil_of_named hnamed
          have htokens : word.tokens = t.tokens := (List.append_nil _).symm.trans hword.tokens
          exact .inl ⟨.node .typeArgNamedPointer (.cons word (.cons star .nil)), congrArg (· ++ (star.tokens ++ [])) htokens,
            congrArg (pointerType · star.value) (Option.some.inj hword.value)⟩
        · refine .inr (.inr ⟨fun htells => htelling ?_, id⟩)
          exact (TypeExpr.isTelling_pointer (fun name span h => hnamed ⟨name, span, h⟩) _).mp htells
      · refine .inr (.inr ⟨fun htells => htelling ?_, id⟩)
        refine (TypeExpr.isTelling_pointer (fun name span h => hbare ?_) _).mp htells
        rw [h]
        trivial
  case typeArray =>
    match f, h with
    | .cons t (.cons o (.cons size (.cons close .nil))), ⟨h, _, ⟨i, hitokens, hivalue⟩, _⟩ =>
      obtain ⟨a, ha⟩ | ⟨word, xs, hword, htelling⟩ | hneither := h
      · exact .inl ⟨.node .typeArgArray (.cons a (.cons o (.cons size (.cons close .nil)))), congrArg (· ++ _) ha.tokens,
          congrArg (arrayType · size.value close.value) ha.value⟩
      · have hindex := hword.index (x := .node .suffixIndex (.cons (.node .indexExpr (.cons o (.cons i (.cons close .nil)))) .nil))
          rfl hivalue close.value rfl
        have htokens : t.tokens ++ ((o.tokens ++ (i.tokens ++ (close.tokens ++ []))) ++ [])
            = t.tokens ++ (o.tokens ++ (size.tokens ++ (close.tokens ++ []))) := by
          rw [hitokens, List.append_nil (o.tokens ++ _)]
        exact .inr (.inl ⟨word, _, ⟨hindex.tokens.trans htokens, hindex.value⟩, htelling⟩)
      · exact .inr (.inr hneither)
  case typeFunMany =>
    match f, h with
    | .cons t rest, ⟨h, _⟩ =>
      obtain ⟨a, ha⟩ | ⟨_, _, _, htelling⟩ | ⟨htelling, -⟩ := h
      · exact .inl ⟨.node .typeArgFunMany (.cons a rest), congrArg (· ++ rest.tokens) ha.tokens,
          congrArg (fun v => Production.read .typeFunMany (v, rest.values)) ha.value⟩
      · exact .inr (.inr ⟨htelling, id⟩)
      · exact .inr (.inr ⟨htelling, id⟩)
  case typeFunOne =>
    match f, h with
    | .cons t rest, ⟨h, _⟩ =>
      obtain ⟨a, ha⟩ | ⟨_, _, _, htelling⟩ | ⟨htelling, -⟩ := h
      · exact .inl ⟨.node .typeArgFunOne (.cons a rest), congrArg (· ++ rest.tokens) ha.tokens,
          congrArg (fun v => Production.read .typeFunOne (v, rest.values)) ha.value⟩
      · exact .inr (.inr ⟨htelling, id⟩)
      · exact .inr (.inr ⟨htelling, id⟩)
  case typeFunNone =>
    match f, h with
    | .cons t rest, ⟨h, _⟩ =>
      obtain ⟨a, ha⟩ | ⟨_, _, _, htelling⟩ | ⟨htelling, -⟩ := h
      · exact .inl ⟨.node .typeArgFunNone (.cons a rest), congrArg (· ++ rest.tokens) ha.tokens,
          congrArg (fun v => Production.read .typeFunNone (v, rest.values)) ha.value⟩
      · exact .inr (.inr ⟨htelling, id⟩)
      · exact .inr (.inr ⟨htelling, id⟩)

mutual

theorem Derivation.isArgument : {s : Sym} → (d : Derivation s) → (∀ t ∈ d.tokens, t.IsScanned) → d.IsArgument
  | _, .leaf t, _ => trivial
  | _, .node p f, hscanned => p.isArgument f hscanned (f.areArguments hscanned)

theorem Forest.areArguments : {ss : List Sym} → (f : Forest ss) → (∀ t ∈ f.tokens, t.IsScanned) → f.All @Derivation.IsArgument
  | _, .nil, _ => trivial
  | _, .cons d f, hscanned =>
    have hscanned := List.forall_mem_append.mp hscanned
    ⟨d.isArgument hscanned.1, f.areArguments hscanned.2⟩

end

/-- Suffixes in a row. -/
theorem exists_suffixes (xs : List (Derivation (.n .suffix))) (hne : xs ≠ []) :
    ∃ ss : Derivation (.n .suffixes), ss.tokens = xs.flatMap Derivation.tokens ∧ ss.value = xs.map Derivation.value := by
  induction xs using List.reverseRecOn with
  | nil => exact absurd rfl hne
  | append_singleton xs x ih =>
    rw [List.flatMap_append, List.flatMap_singleton, List.map_append]
    by_cases hnil : xs = []
    · subst hnil
      exact ⟨.node .suffixesOne (.cons x .nil), List.append_nil _, rfl⟩
    · obtain ⟨ss, htokens, hvalue⟩ := ih hnil
      refine ⟨.node .suffixesMore (.cons ss (.cons x .nil)), ?_, congrArg (· ++ [x.value]) hvalue⟩
      rw [← htokens, ← List.append_nil x.tokens]
      rfl

/-- What spells a type is a chain. -/
theorem Spells.exists_chain {word : Derivation (.t .name)} {xs : List (Derivation (.n .suffix))} {tokens : List Token}
    {w : TypeExpr} (h : Spells word xs tokens w) :
    ∃ chain : Derivation (.n .chain), chain.tokens = tokens ∧ chain.value.asType? = some w := by
  have htokens := h.tokens
  have hvalue := h.value
  by_cases hnil : xs = []
  · subst hnil
    exact ⟨.node .chainName (.cons word .nil), htokens, hvalue⟩
  · obtain ⟨ss, hss, hvalues⟩ := exists_suffixes xs hnil
    refine ⟨.node .chainNameSuffixes (.cons word (.cons ss .nil)), ?_, ?_⟩
    · rw [← htokens, ← hss, ← List.append_nil ss.tokens]
      rfl
    · rw [← hvalues] at hvalue
      exact hvalue

/-- The tokens of a type are those of an argument that is read as the type or spells it, if the type can be told from an
expression or is bare. -/
theorem Derivation.exists_argument (w : Derivation (.n .type)) (hscanned : ∀ t ∈ w.tokens, t.IsScanned)
    (hw : w.value.IsTelling ∨ w.value.IsBare) :
    ∃ a : Derivation (.n .arg), a.tokens = w.tokens ∧ a.value.IsSpelling w.value := by
  obtain ⟨a, ha⟩ | ⟨word, xs, hword, -⟩ | ⟨htelling, hbare⟩ := w.isArgument hscanned
  · exact ⟨.node .argType (.cons a .nil), (List.append_nil _).trans ha.tokens, .inl ⟨_, congrArg (Expr.typeArg · _) ha.value⟩⟩
  · obtain ⟨chain, htokens, hvalue⟩ := hword.exists_chain
    refine ⟨.node .argExpr (.cons (.node .exprChain (.cons chain .nil)) .nil), ?_, .inr hvalue⟩
    rw [← htokens, ← List.append_nil chain.tokens, ← List.append_nil (chain.tokens ++ [])]
    rfl
  · exact absurd hw (not_or.mpr ⟨htelling, hbare⟩)

/-! ## Allocations -/

/-- The tokens of `x := _alloc(T)`, but for those of the type. -/
structure Allocation where
  target : Token
  assign : Token
  callee : Token
  opening : Token
  closing : Token
  target_kind : target.kind = .name
  assign_kind : assign.kind = .assign
  callee_kind : callee.kind = .builtin
  callee_lexeme : callee.lexeme = SpecialForm.alloc.name
  opening_kind : opening.kind = .paren
  closing_kind : closing.kind = .closeParen

/-- A token as a derivation of its kind. -/
def Derivation.ofToken (t : Token) {kind : Kind} (h : t.kind = kind) : Derivation (.t kind) := h ▸ .leaf t

theorem Derivation.tokens_ofToken (t : Token) {kind : Kind} (h : t.kind = kind) : (ofToken t h).tokens = [t] := by
  subst h
  rfl

theorem Derivation.value_ofToken (t : Token) {kind : Kind} (h : t.kind = kind) : (ofToken t h).value = t := by
  subst h
  rfl

namespace Allocation

/-- The tokens of an allocation of a type. -/
def tokens (m : Allocation) (type : List Token) : List Token :=
  m.target :: m.assign :: m.callee :: m.opening :: (type ++ [m.closing])

/-- The target of an allocation. -/
def place (m : Allocation) : Derivation (.n .chain) := .node .chainName (.cons (.ofToken m.target m.target_kind) .nil)

/-- The call in an allocation, with an argument. -/
def call (m : Allocation) (a : Derivation (.n .arg)) : Derivation (.n .chain) :=
  .node .chainBuiltinSuffixes (.cons (.ofToken m.callee m.callee_kind) (.cons (.node .suffixesOne (.cons (.node .suffixCall
    (.cons (.node .callOne (.cons (.ofToken m.opening m.opening_kind) (.cons a (.cons (.ofToken m.closing m.closing_kind) .nil))))
      .nil)) .nil)) .nil))

/-- An allocation as a statement, with an argument. -/
def stmt (m : Allocation) (a : Derivation (.n .arg)) : Derivation (.n .stmt) :=
  .node .stmtAssign (.cons (.node .assignTo
    (.cons m.place (.cons (.ofToken m.assign m.assign_kind) (.cons (.node .exprChain (.cons (m.call a) .nil)) .nil)))) .nil)

variable (m : Allocation) (a : Derivation (.n .arg))

theorem mem_tokens {t : Token} {type : List Token} (h : t ∈ type) : t ∈ m.tokens type := by
  simp [tokens, h]

theorem tokens_stmt : (m.stmt a).tokens = m.tokens a.tokens := by
  simp [stmt, place, call, tokens, Derivation.tokens, Forest.tokens, Derivation.tokens_ofToken]

theorem value_place : m.place.value = nameExpr m.target := congrArg nameExpr (Derivation.value_ofToken _ _)

theorem value_call : ∃ info, (m.call a).value = .call (nameExpr m.callee) [a.value] info := by
  have hform : ¬(nameExpr m.callee).IsAddressForm [a.value] := by
    rintro ⟨symbol, info, arg, hcallee, -⟩
    have hname : m.callee.lexeme = SpecialForm.addr.name := (Expr.ident.inj hcallee).1
    rw [m.callee_lexeme] at hname
    exact absurd hname (by decide)
  have hcallee := congrArg (fun t => Suffix.applyTo (nameExpr t) (.call [a.value]
    (.join (Token.span (Derivation.ofToken m.opening m.opening_kind).value) (Token.span (Derivation.ofToken m.closing m.closing_kind).value))))
    (Derivation.value_ofToken m.callee m.callee_kind)
  exact ⟨_, hcallee.trans (Suffix.applyTo_call hform _)⟩

theorem fault?_stmt (h : ∀ t ∈ m.tokens a.tokens, t.IsSpelled) : (m.stmt a).fault? = none := by
  refine ((m.stmt a).fault?_eq_none_iff (m.tokens_stmt a ▸ h)).mpr ⟨trivial, ⟨⟨?_, List.forall_mem_nil _⟩, ?_⟩, trivial⟩
  · refine ⟨m.target, ?_, m.target_kind⟩
    show ((Derivation.ofToken m.target m.target_kind).tokens ++ []).head? = some m.target
    rw [Derivation.tokens_ofToken]
    rfl
  · exact Forest.isProper_of_isPure _ (by decide)

end Allocation

end Grammar

/-- A statement is the allocation of a type for a variable. -/
def Stmt.IsAllocation (x : String) (w : TypeExpr) (s : Stmt) : Prop :=
  ∃ e info info' info'' span, e.IsSpelling w
    ∧ s = .assign (.ident x none info) (.call (.ident SpecialForm.alloc.name none info') [e] info'') span

namespace Grammar

/-- The tokens of an allocation are a statement. -/
theorem Allocation.exists_stmt (m : Allocation) (w : Derivation (.n .type)) (hscanned : ∀ t ∈ m.tokens w.tokens, t.IsScanned)
    (hw : w.value.IsTelling ∨ w.value.IsBare) :
    ∃ s : Derivation (.n .stmt), s.tokens = m.tokens w.tokens ∧ s.fault? = none ∧ s.value.IsAllocation m.target.lexeme w.value := by
  have htype (t : Token) (ht : t ∈ w.tokens) : t.IsScanned := hscanned t (m.mem_tokens ht)
  obtain ⟨a, hatokens, havalue⟩ := w.exists_argument htype hw
  rw [← hatokens] at hscanned ⊢
  obtain ⟨info, hcall⟩ := m.value_call a
  refine ⟨m.stmt a, m.tokens_stmt a, m.fault?_stmt a (fun t ht => (hscanned t ht).spelled), a.value, { span := m.target.span },
    { span := m.callee.span }, info, .join (Expr.span m.place.value) (Expr.span (m.call a).value), havalue, ?_⟩
  show Stmt.assign m.place.value (m.call a).value (.join (Expr.span m.place.value) (Expr.span (m.call a).value)) = _
  rw [hcall, m.value_place, nameExpr, nameExpr, m.callee_lexeme]

end Grammar

end FlatScope
