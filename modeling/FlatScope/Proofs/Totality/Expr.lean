/-
  Building expressions. Literals that spell their kinds have values, and suffixes are put behind a name one after another,
  as the derivation nests them.
-/
import FlatScope.Proofs.Totality.Phrase

namespace FlatScope.Grammar

open Build

/-! ## Literals -/

section Literals

variable {t : Token}

theorem buildLiteral_int (h : t.IsSpelled) (hk : t.kind = .integer) :
    buildLiteral .intLit t.span [t] = .ok (.int t.intValue { span := t.span }) := by
  show literal t.readInt >>= (fun n => pure (Expr.int n { span := t.span })) = _
  rw [literal_readInt h hk]
  rfl

theorem buildLiteral_real (h : t.IsSpelled) (hk : t.kind = .real) :
    buildLiteral .floatLit t.span [t] = .ok (.real t.realValue { span := t.span }) := by
  show literal t.readReal >>= (fun x => pure (Expr.real x { span := t.span })) = _
  rw [literal_readReal h hk]
  rfl

theorem buildLiteral_byte {label : Label} (hl : label = .byteLit ∨ label = .charLit) (h : t.IsSpelled)
    (hk : t.kind = .byte ∨ t.kind = .char) :
    buildLiteral label t.span [t] = .ok (.byte t.byteValue { span := t.span }) := by
  obtain rfl | rfl := hl
  all_goals
    show literal t.readByte >>= (fun n => pure (Expr.byte n { span := t.span })) = _
    rw [literal_readByte h hk]
    rfl

end Literals

/-! ## Expressions -/

section Expressions

variable {span : Span} {tree : ParseTree} {trees : List ParseTree} {e : Expr} {es : List Expr}

theorem buildExprs_append (ts us : List ParseTree) :
    buildExprs (ts ++ us) = do
      let as ← buildExprs ts
      let bs ← buildExprs us
      return as ++ bs := by
  induction ts with
  | nil => simp [buildExprs]
  | cons t ts ih => simp [buildExprs, ih]

theorem buildExprs_nil : buildExprs [] = .ok [] := rfl

theorem buildExprs_cons (h : buildExpr tree = .ok e) (hs : buildExprs trees = .ok es) :
    buildExprs (tree :: trees) = .ok (e :: es) := by
  simp only [buildExprs, h, hs]
  rfl

theorem buildExprs_snoc (hs : buildExprs trees = .ok es) (h : buildExpr tree = .ok e) :
    buildExprs (trees ++ [tree]) = .ok (es ++ [e]) := by
  rw [buildExprs_append, hs, buildExprs_cons h buildExprs_nil]
  rfl

theorem buildArgs_append (ts us : List ParseTree) :
    buildArgs (ts ++ us) = do
      let as ← buildArgs ts
      let bs ← buildArgs us
      return as ++ bs := by
  induction ts with
  | nil => simp [buildArgs]
  | cons t ts ih => cases hl : t.label.isType <;> simp [buildArgs, hl, ih]

theorem buildArgs_cons (h : buildArgs [tree] = .ok [e]) (hs : buildArgs trees = .ok es) :
    buildArgs (tree :: trees) = .ok (e :: es) := by
  rw [← List.singleton_append, buildArgs_append, h, hs]
  rfl

theorem buildArgs_snoc (hs : buildArgs trees = .ok es) (h : buildArgs [tree] = .ok [e]) :
    buildArgs (trees ++ [tree]) = .ok (es ++ [e]) := by
  rw [buildArgs_append, hs, h]
  rfl

theorem buildArgs_expr (hl : tree.label.isType = false) (h : buildExpr tree = .ok e) : buildArgs [tree] = .ok [e] := by
  simp only [buildArgs, hl, h]
  rfl

theorem buildArgs_type {t : TypeExpr} (hl : tree.label.isType = true) (h : buildType tree = .ok t) :
    buildArgs [tree] = .ok [.typeArg t { span := tree.span }] := by
  simp only [buildArgs, hl, h]
  rfl

theorem buildSuffixes_append (e : Expr) (ts us : List ParseTree) :
    buildSuffixes e (ts ++ us) = buildSuffixes e ts >>= fun e => buildSuffixes e us := by
  induction ts generalizing e with
  | nil => rfl
  | cons t ts ih =>
    obtain ⟨label, span, front, trees, others⟩ := t
    rw [List.cons_append]
    cases label
    case indexSuffix =>
      cases trees with
      | nil => rfl
      | cons i trees => simp only [buildSuffixes, ih, bind_assoc]
    all_goals simp only [buildSuffixes, ih, bind_assoc]

/-- Arguments behind an expression cover it and themselves, also in the address form. -/
theorem span_applyTo_call (e : Expr) (args : List Expr) (span : Span) :
    (Suffix.applyTo e (.call args span)).span = .join e.span span := by
  unfold Suffix.applyTo
  dsimp only
  split
  · split <;> rfl
  · rfl

theorem buildSuffixes_call {parts : List Part} (h : buildArgs (Part.trees parts) = .ok es) (e : Expr) :
    buildSuffixes e [.ofParts .callSuffix span parts] = .ok (Suffix.applyTo e (.call es span)) := by
  simp only [ParseTree.ofParts, buildSuffixes, h]
  rfl

theorem buildExpr_composite {parts : List Part} (h : buildExprs (Part.trees parts) = .ok es) :
    buildExpr (.ofParts .composite span parts) = .ok (.composite es { span }) := by
  simp only [ParseTree.ofParts, buildExpr, h]
  rfl

end Expressions

/-- The phrases of expressions. -/
theorem Production.isBuilt_expr (p : Production) (f : Forest p.rhs) (h : f.All fun _ d => d.IsBuilt)
    (hp : p.lhs ∈ Nonterminal.ofExprs) : (Derivation.node p f).IsBuilt := by
  cases p
  case exprChain | exprComposite | suffixIndex | suffixCall =>
    obtain _ | ⟨e, _ | _⟩ := f
    obtain ⟨he, -⟩ := h
    exact he
  case exprLiteral =>
    obtain _ | ⟨e, _ | _⟩ := f
    obtain ⟨⟨hspan, tree, htree, hl, -, he⟩, -⟩ := h
    exact ⟨hspan, tree, htree, hl, he⟩
  case openSpaced | openAdjacent =>
    obtain _ | ⟨word, _ | _⟩ := f
    obtain ⟨hw, -⟩ := h
    exact ⟨hw.span_eq, fun hk => Kind.noConfusion (hw.kind_eq.symm.trans hk), hw.parts_eq⟩
  case constRefName =>
    obtain _ | ⟨name, _ | _⟩ := f
    obtain ⟨hn, -⟩ := h
    refine ⟨hn.span_eq.symm, _, parts_node hn.span_eq.symm hn.parts_eq rfl, ?_⟩
    simp [ParseTree.ofParts, buildConstant, firstName, hn.kind_eq]
    rfl
  case literalInt =>
    obtain _ | ⟨word, _ | _⟩ := f
    obtain ⟨hw, -⟩ := h
    have hb := buildLiteral_int hw.spelled hw.kind_eq
    exact ⟨hw.span_eq.symm, _, parts_node hw.span_eq.symm hw.parts_eq rfl, rfl, hb, hb⟩
  case literalReal =>
    obtain _ | ⟨word, _ | _⟩ := f
    obtain ⟨hw, -⟩ := h
    have hb := buildLiteral_real hw.spelled hw.kind_eq
    exact ⟨hw.span_eq.symm, _, parts_node hw.span_eq.symm hw.parts_eq rfl, rfl, hb, hb⟩
  case literalByte =>
    obtain _ | ⟨word, _ | _⟩ := f
    obtain ⟨hw, -⟩ := h
    have hb := buildLiteral_byte (.inl rfl) hw.spelled (.inl hw.kind_eq)
    exact ⟨hw.span_eq.symm, _, parts_node hw.span_eq.symm hw.parts_eq rfl, rfl, hb, hb⟩
  case literalChar =>
    obtain _ | ⟨word, _ | _⟩ := f
    obtain ⟨hw, -⟩ := h
    have hb := buildLiteral_byte (.inr rfl) hw.spelled (.inr hw.kind_eq)
    exact ⟨hw.span_eq.symm, _, parts_node hw.span_eq.symm hw.parts_eq rfl, rfl, hb, hb⟩
  case chainName | chainBuiltin =>
    obtain _ | ⟨word, _ | _⟩ := f
    obtain ⟨hw, -⟩ := h
    exact ⟨hw.span_eq.symm, _, parts_node hw.span_eq.symm hw.parts_eq rfl, rfl, rfl⟩
  case chainNameSuffixes | chainBuiltinSuffixes =>
    obtain _ | ⟨word, _ | ⟨xs, _ | _⟩⟩ := f
    obtain ⟨hw, ⟨ts, hts, hb⟩, -⟩ := h
    have hparts : Forest.parts (.cons word (.cons xs .nil)) = .token word.value :: ts.map .tree := by
      simp [Forest.parts, hw.parts_eq, hts]
    obtain ⟨hspan, hb⟩ := hb (nameExpr word.value)
    have hspan : (suffixed word.value xs.value).span = Span.join word.span xs.span := by
      rw [hw.span_eq]
      exact hspan
    refine ⟨hspan, _, parts_node hspan hparts rfl, rfl, ?_⟩
    simp [ParseTree.ofParts, Part.front_map, Part.trees_map]
    exact hb
  case suffixesOne =>
    obtain _ | ⟨x, _ | _⟩ := f
    obtain ⟨⟨t, ht, hb⟩, -⟩ := h
    exact ⟨[t], ht, hb⟩
  case suffixesMore =>
    obtain _ | ⟨xs, _ | ⟨x, _ | _⟩⟩ := f
    obtain ⟨⟨ts, hts, hbs⟩, ⟨t, ht, hb⟩, -⟩ := h
    have hparts : Forest.parts (.cons xs (.cons x .nil)) = (ts ++ [t]).map .tree := by
      simp [Forest.parts, hts, ht]
    refine ⟨_, hparts, fun e => ?_⟩
    show ((xs.value ++ [x.value]).foldl Suffix.applyTo e).span = .join e.span (.join xs.span x.span)
      ∧ buildSuffixes e (ts ++ [t]) = .ok ((xs.value ++ [x.value]).foldl Suffix.applyTo e)
    rw [List.foldl_append, buildSuffixes_append, (hbs e).2]
    refine ⟨?_, (hb _).2⟩
    have hspan := (hb (xs.value.foldl Suffix.applyTo e)).1
    rwa [(hbs e).1] at hspan
  case indexExpr =>
    obtain _ | ⟨o, _ | ⟨e, _ | ⟨c, _ | _⟩⟩⟩ := f
    obtain ⟨ho, ⟨-, tree, htree, -, he⟩, hc, -⟩ := h
    have hparts : Forest.parts (.cons o (.cons e (.cons c .nil))) = [.token o.value, .tree tree] := by
      simp [Forest.parts, ho.parts_eq, htree, hc.parts_eq]
    have hspan : Span.join o.value.span c.value.span = Forest.span (.cons o (.cons e (.cons c .nil))) := by
      rw [← ho.span_eq, ← hc.span_eq]
      rfl
    refine ⟨_, parts_node hspan hparts rfl, fun base => ⟨congrArg (Span.join base.span) hspan, ?_⟩⟩
    simp [ParseTree.ofParts, buildSuffixes, he]
    rfl
  case callMany =>
    obtain _ | ⟨o, _ | ⟨a, _ | ⟨as, _ | ⟨c, _ | _⟩⟩⟩⟩ := f
    obtain ⟨ho, ⟨arg, harg, ha⟩, ⟨args, hargs, has⟩, hc, -⟩ := h
    have hparts : Forest.parts (.cons o (.cons a (.cons as (.cons c .nil))))
        = .token o.value :: (arg :: args).map .tree := by
      simp [Forest.parts, ho.parts_eq, harg, hargs, hc.parts_eq]
    have hspan : Span.join o.value.span c.value.span = Forest.span (.cons o (.cons a (.cons as (.cons c .nil)))) := by
      rw [← ho.span_eq, ← hc.span_eq]
      rfl
    refine ⟨_, parts_node hspan hparts rfl, fun base => ⟨?_, ?_⟩⟩
    · exact (span_applyTo_call ..).trans (congrArg _ hspan)
    · exact buildSuffixes_call (by simp [Part.trees_map, buildArgs_cons ha has]) base
  case callOne =>
    obtain _ | ⟨o, _ | ⟨a, _ | ⟨c, _ | _⟩⟩⟩ := f
    obtain ⟨ho, ⟨arg, harg, ha⟩, hc, -⟩ := h
    have hparts : Forest.parts (.cons o (.cons a (.cons c .nil))) = [.token o.value, .tree arg] := by
      simp [Forest.parts, ho.parts_eq, harg, hc.parts_eq]
    have hspan : Span.join o.value.span c.value.span = Forest.span (.cons o (.cons a (.cons c .nil))) := by
      rw [← ho.span_eq, ← hc.span_eq]
      rfl
    have has : buildArgs (Part.trees [.token o.value, .tree arg]) = .ok [a.value] := ha
    refine ⟨_, parts_node hspan hparts rfl, fun base => ⟨?_, buildSuffixes_call has base⟩⟩
    exact (span_applyTo_call ..).trans (congrArg _ hspan)
  case callNone =>
    obtain _ | ⟨o, _ | ⟨c, _ | _⟩⟩ := f
    obtain ⟨ho, hc, -⟩ := h
    have hparts : Forest.parts (.cons o (.cons c .nil)) = [.token o.value] := by
      simp [Forest.parts, ho.parts_eq, hc.parts_eq]
    have hspan : Span.join o.value.span c.value.span = Forest.span (.cons o (.cons c .nil)) := by
      rw [← ho.span_eq, ← hc.span_eq]
      rfl
    refine ⟨_, parts_node hspan hparts rfl, fun base => ⟨?_, buildSuffixes_call rfl base⟩⟩
    exact (span_applyTo_call ..).trans (congrArg _ hspan)
  case argsOne =>
    obtain _ | ⟨comma, _ | ⟨a, _ | _⟩⟩ := f
    obtain ⟨hcomma, ⟨arg, harg, ha⟩, -⟩ := h
    have hparts := parts_listOne hcomma harg
    exact ⟨[arg], hparts, ha⟩
  case argsMore =>
    obtain _ | ⟨as, _ | ⟨comma, _ | ⟨a, _ | _⟩⟩⟩ := f
    obtain ⟨⟨args, hargs, has⟩, hcomma, ⟨arg, harg, ha⟩, -⟩ := h
    have hparts := parts_listMore hargs hcomma harg
    exact ⟨_, hparts, buildArgs_snoc has ha⟩
  case argExpr =>
    obtain _ | ⟨e, _ | _⟩ := f
    obtain ⟨⟨-, tree, htree, hl, he⟩, -⟩ := h
    exact ⟨tree, htree, buildArgs_expr hl he⟩
  case argType =>
    obtain _ | ⟨t, _ | _⟩ := f
    obtain ⟨⟨ht, tree, htree, hspan, hl, hb⟩, -⟩ := h
    refine ⟨tree, htree, ?_⟩
    rw [buildArgs_type hl hb, hspan, ← ht]
    rfl
  case compositeMany =>
    obtain _ | ⟨o, _ | ⟨e, _ | ⟨es, _ | ⟨c, _ | _⟩⟩⟩⟩ := f
    obtain ⟨⟨ho, -, hop⟩, ⟨-, tree, htree, -, he⟩, ⟨trees, htrees, hes⟩, hc, -⟩ := h
    have hparts : Forest.parts (.cons o (.cons e (.cons es (.cons c .nil))))
        = .token o.value :: (tree :: trees).map .tree := by
      simp [Forest.parts, hop, htree, htrees, hc.parts_eq]
    have hspan : Span.join o.value.span c.value.span = Forest.span (.cons o (.cons e (.cons es (.cons c .nil)))) := by
      rw [← ho, ← hc.span_eq]
      rfl
    refine ⟨hspan, _, parts_node hspan hparts rfl, rfl, ?_⟩
    exact buildExpr_composite (by simp [Part.trees_map, buildExprs_cons he hes])
  case compositeOne =>
    obtain _ | ⟨o, _ | ⟨e, _ | ⟨c, _ | _⟩⟩⟩ := f
    obtain ⟨⟨ho, -, hop⟩, ⟨-, tree, htree, -, he⟩, hc, -⟩ := h
    have hparts : Forest.parts (.cons o (.cons e (.cons c .nil))) = [.token o.value, .tree tree] := by
      simp [Forest.parts, hop, htree, hc.parts_eq]
    have hspan : Span.join o.value.span c.value.span = Forest.span (.cons o (.cons e (.cons c .nil))) := by
      rw [← ho, ← hc.span_eq]
      rfl
    exact ⟨hspan, _, parts_node hspan hparts rfl, rfl, buildExpr_composite (buildExprs_cons he buildExprs_nil)⟩
  case compositeNone =>
    obtain _ | ⟨o, _ | ⟨c, _ | _⟩⟩ := f
    obtain ⟨⟨ho, -, hop⟩, hc, -⟩ := h
    have hparts : Forest.parts (.cons o (.cons c .nil)) = [.token o.value] := by
      simp [Forest.parts, hop, hc.parts_eq]
    have hspan : Span.join o.value.span c.value.span = Forest.span (.cons o (.cons c .nil)) := by
      rw [← ho, ← hc.span_eq]
      rfl
    exact ⟨hspan, _, parts_node hspan hparts rfl, rfl, buildExpr_composite buildExprs_nil⟩
  case exprsOne =>
    obtain _ | ⟨comma, _ | ⟨e, _ | _⟩⟩ := f
    obtain ⟨hcomma, ⟨-, tree, htree, -, he⟩, -⟩ := h
    have hparts := parts_listOne hcomma htree
    exact ⟨[tree], hparts, buildExprs_cons he buildExprs_nil⟩
  case exprsMore =>
    obtain _ | ⟨es, _ | ⟨comma, _ | ⟨e, _ | _⟩⟩⟩ := f
    obtain ⟨⟨trees, htrees, hes⟩, hcomma, ⟨-, tree, htree, -, he⟩, -⟩ := h
    have hparts := parts_listMore htrees hcomma htree
    exact ⟨_, hparts, buildExprs_snoc hes he⟩
  all_goals exact absurd hp (by decide)

end FlatScope.Grammar
