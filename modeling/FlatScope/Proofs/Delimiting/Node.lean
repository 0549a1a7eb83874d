/-
  Nodes and their tokens. A node of a syntax tree is read off some tokens if these are derived as a phrase of its class and the
  phrase is read as the node (`Node.IsReadOff`). The nodes that stand directly in a node, in the order of the source
  (`Node.children`), are read off stretches of its tokens, one behind the other (`Node.IsReadOff.children`): a rule passes on the
  nodes of its parts as they are, and behind a name every suffix makes a node of what is in front of it.
-/
import FlatScope.Proofs.Allocation.Refused
import FlatScope.Tree.Node

namespace FlatScope

/-! ## Nodes in nodes -/

/-- The nodes that stand directly in a type. -/
def TypeExpr.nodes : TypeExpr → List Node
  | .pointer t _ | .array t _ _ => [.type t]
  | .func r ts _ => .type r :: ts.map .type
  | .named _ _ | .foreign _ => []

/-- The nodes that stand directly in an expression. -/
def Expr.nodes : Expr → List Node
  | .index base i _ => [.expr base, .expr i]
  | .field base _ _ => [.expr base]
  | .call callee args _ => .expr callee :: args.map .expr
  | .composite es _ => es.map .expr
  | .addrOf target _ => [.expr target]
  | .typeArg t _ => [.type t]
  | .int _ _ | .real _ _ | .byte _ _ | .ident _ _ _ | .foreign _ => []

/-- The block that a body makes together with its braces. -/
def Braces.block (body : List Stmt) : Braces → Node
  | around span => .stmt (.block body span)
  | missing _ => .absent

/-- The nodes that stand directly in a statement. -/
def Stmt.nodes : Stmt → List Node
  | .var d => [.type d.type]
  | .assign target value _ => [.expr target, .expr value]
  | .call e _ => [.expr e]
  | .ifThen c body braces otherwise _ => .expr c :: braces.block body :: otherwise.toList.map .stmt
  | .whileDo c body braces _ => [.expr c, braces.block body]
  | .block body _ => body.map .stmt
  | .breakLoop _ | .continueLoop _ | .label _ _ _ | .goto _ _ _ | .foreign _ => []

def Member.node : Member → Node
  | var d => .stmt (.var d)
  | param d => .param d
  | foreign _ _ => .absent

def Decl.node : Decl → Node
  | const d => .const d
  | var d => .stmt (.var d)
  | struct d => .struct d
  | func d => .func d
  | foreign _ => .absent

namespace Node

/-- The nodes that stand directly in a node, in the order of the source. -/
def children : Node → List Node
  | type t => t.nodes
  | expr e => e.nodes
  | stmt s => s.nodes
  | const d => [.expr d.value]
  | struct d => d.fields.map Member.node
  | param d => [.type d.type]
  | func d => .type d.result :: (d.params.map Member.node ++ [d.braces.block d.body])
  | program p => p.decls.map Decl.node
  | absent => []

/-- A node stands in another one, however deep. -/
inductive Contains (n : Node) : Node → Prop
  | child {c : Node} (h : c ∈ n.children) : Contains n c
  | deeper {m c : Node} (hm : Contains n m) (h : c ∈ m.children) : Contains n c

end Node

open Grammar

namespace Grammar

/-- Tokens are derived as a proper phrase of a class, and this is read as a value. -/
def Reads (x : Nonterminal) (ts : List Token) (v : x.Value) : Prop :=
  ∃ d : Derivation (.n x), d.tokens = ts ∧ d.value = v ∧ d.IsProper

/-- The node that a phrase is read as, if it is a node. -/
def Nonterminal.node? : (x : Nonterminal) → x.Value → Option Node
  | .decl, d => some d.node
  | .constDecl, d => some (.const d)
  | .varDecl, d => some (.stmt (.var d))
  | .structDecl, d => some (.struct d)
  | .funDecl, d => some (.func d)
  | .param, p => some (.param p)
  | .type, t | .baseType, t | .primitive, t | .typeArg, t => some (.type t)
  | .block, b => some (.stmt (.block b.statements b.braces))
  | .stmt, s | .assignStmt, s | .callStmt, s | .ifStmt, s | .whileStmt, s | .breakStmt, s | .continueStmt, s | .labelStmt, s
  | .gotoStmt, s => some (.stmt s)
  | .constRef, e | .expr, e | .chain, e | .arg, e | .composite, e | .literal, e => some (.expr e)
  | .unit, _ | .decls, _ | .fields, _ | .params, _ | .types, _ | .arraySize, _ | .stmts, _ | .suffixes, _ | .suffix, _
  | .indexSuffix, _ | .callSuffix, _ | .args, _ | .exprs, _ | .opener, _ => none

/-- The nodes in a suffix. -/
def Suffix.nodes : Suffix → List Node
  | index e _ => [.expr e]
  | call args _ => args.map .expr

/-- The nodes that a phrase passes on to the phrase around it. -/
def Nonterminal.nodes : (x : Nonterminal) → x.Value → List Node
  | .unit, ds | .decls, ds => ds.map Decl.node
  | .fields, ds => ds.map fun d => .stmt (.var d)
  | .params, ps => ps.map .param
  | .types, ts => ts.map .type
  | .stmts, ss => ss.map .stmt
  | .args, es | .exprs, es => es.map .expr
  | .suffix, x | .indexSuffix, x | .callSuffix, x => x.nodes
  | x, v => (x.node? v).toList

def Sym.nodes : (s : Sym) → s.Value → List Node
  | .t _, _ => []
  | .n x, v => x.nodes v

def Values.nodes : {ss : List Sym} → Values ss → List Node
  | [], () => []
  | s :: _, (v, vs) => s.nodes v ++ nodes vs

end Grammar

namespace Node

/-- A node is read off some tokens. Of a whole unit this is not asked. -/
def IsReadOff (ts : List Token) : Node → Prop
  | type t => Reads .type ts t
  | expr e => Reads .arg ts e
  | stmt s => Reads .stmt ts s
  | const d => Reads .constDecl ts d
  | struct d => Reads .structDecl ts d
  | param d => Reads .param ts d
  | func d => Reads .funDecl ts d
  | program _ | absent => False

/-- Nodes are read off stretches of some tokens, one behind the other. -/
inductive AreReadOff : List Token → List Node → Prop
  | nil {ts : List Token} : AreReadOff ts []
  | cons {front ts back : List Token} {n : Node} {ns : List Node} (h : n.IsReadOff ts) (hs : AreReadOff back ns) :
    AreReadOff (front ++ (ts ++ back)) (n :: ns)

namespace AreReadOff

variable {ts us : List Token} {n : Node} {ns ms : List Node}

theorem exists_of_mem (h : AreReadOff ts ns) (hn : n ∈ ns) : ∃ front us back, ts = front ++ (us ++ back) ∧ n.IsReadOff us := by
  induction h with
  | nil => cases hn
  | @cons front us back m ms hm _ ih =>
    obtain rfl | hn := List.mem_cons.mp hn
    · exact ⟨front, us, back, rfl, hm⟩
    · obtain ⟨front', us', back', hback, hread⟩ := ih hn
      refine ⟨front ++ (us ++ front'), us', back', ?_, hread⟩
      rw [hback]
      simp only [List.append_assoc]

theorem single (h : n.IsReadOff ts) : AreReadOff ts [n] := by
  have hs : AreReadOff ([] ++ (ts ++ [])) [n] := .cons h .nil
  rwa [List.nil_append, List.append_nil] at hs

theorem behind (h : AreReadOff ts ns) (front : List Token) : AreReadOff (front ++ ts) ns := by
  cases h with
  | nil => exact .nil
  | cons h hs =>
    rw [← List.append_assoc]
    exact .cons h hs

theorem append (h : AreReadOff ts ns) (hs : AreReadOff us ms) : AreReadOff (ts ++ us) (ns ++ ms) := by
  induction h with
  | nil => exact hs.behind _
  | cons h _ ih =>
    rw [List.append_assoc, List.append_assoc]
    exact .cons h ih

end AreReadOff

end Node

namespace Grammar

open Node

/-! ## Phrases that are nodes -/

/-- A phrase of a class whose values are nodes, other than declarations and names of constants, is a phrase of the class of
its nodes, or is made one by rules that pass it on. -/
theorem Nonterminal.isReadOff {x : Nonterminal} (d : Derivation (.n x)) (hx : x ≠ .decl ∧ x ≠ .constRef) (hd : d.IsProper)
    {n : Node} (hn : x.node? d.value = some n) : n.IsReadOff d.tokens := by
  cases x
  case decl | constRef => simp at hx
  case unit | decls | fields | params | types | arraySize | stmts | suffixes | suffix | indexSuffix | callSuffix | args
    | exprs | opener => cases hn
  all_goals obtain rfl := Option.some.inj hn
  case constDecl | structDecl | funDecl | param | type | stmt | arg => exact ⟨d, rfl, rfl, hd⟩
  case varDecl => exact ⟨.node .stmtVar (.cons d .nil), List.append_nil _, rfl, trivial, hd, trivial⟩
  case block => exact ⟨.node .stmtBlock (.cons d .nil), List.append_nil _, rfl, trivial, hd, trivial⟩
  case assignStmt => exact ⟨.node .stmtAssign (.cons d .nil), List.append_nil _, rfl, trivial, hd, trivial⟩
  case callStmt => exact ⟨.node .stmtCall (.cons d .nil), List.append_nil _, rfl, trivial, hd, trivial⟩
  case ifStmt => exact ⟨.node .stmtIf (.cons d .nil), List.append_nil _, rfl, trivial, hd, trivial⟩
  case whileStmt => exact ⟨.node .stmtWhile (.cons d .nil), List.append_nil _, rfl, trivial, hd, trivial⟩
  case breakStmt => exact ⟨.node .stmtBreak (.cons d .nil), List.append_nil _, rfl, trivial, hd, trivial⟩
  case continueStmt => exact ⟨.node .stmtContinue (.cons d .nil), List.append_nil _, rfl, trivial, hd, trivial⟩
  case labelStmt => exact ⟨.node .stmtLabel (.cons d .nil), List.append_nil _, rfl, trivial, hd, trivial⟩
  case gotoStmt => exact ⟨.node .stmtGoto (.cons d .nil), List.append_nil _, rfl, trivial, hd, trivial⟩
  case baseType => exact ⟨.node .typeBase (.cons d .nil), List.append_nil _, rfl, Derivation.isProper_of_isPure _ rfl⟩
  case primitive =>
    refine ⟨.node .typeBase (.cons (.node .basePrimitive (.cons d .nil)) .nil), ?_, rfl, Derivation.isProper_of_isPure _ rfl⟩
    exact (List.append_nil _).trans (List.append_nil _)
  case typeArg =>
    obtain ⟨w, htokens, hvalue⟩ := d.isTold
    exact ⟨w, htokens, hvalue, w.isProper_of_isPure rfl⟩
  case expr => exact ⟨.node .argExpr (.cons d .nil), List.append_nil _, rfl, Derivation.isProper_of_isPure _ rfl⟩
  case chain =>
    refine ⟨.node .argExpr (.cons (.node .exprChain (.cons d .nil)) .nil), ?_, rfl, Derivation.isProper_of_isPure _ rfl⟩
    exact (List.append_nil _).trans (List.append_nil _)
  case composite =>
    refine ⟨.node .argExpr (.cons (.node .exprComposite (.cons d .nil)) .nil), ?_, rfl, Derivation.isProper_of_isPure _ rfl⟩
    exact (List.append_nil _).trans (List.append_nil _)
  case literal =>
    refine ⟨.node .argExpr (.cons (.node .exprLiteral (.cons d .nil)) .nil), ?_, rfl, Derivation.isProper_of_isPure _ rfl⟩
    exact (List.append_nil _).trans (List.append_nil _)

/-- If a phrase is a node, this is read off its tokens. -/
def Derivation.IsNode : {s : Sym} → Derivation s → Prop
  | .n x, d => d.IsProper → ∀ n, x.node? d.value = some n → n.IsReadOff d.tokens
  | .t _, _ => True

theorem Derivation.isNode : {s : Sym} → (d : Derivation s) → d.IsNode := by
  refine Derivation.induct (fun _ => trivial) fun p f _ => ?_
  cases p
  case declConst | declVar | declStruct | declFun =>
    match f with
    | .cons d .nil =>
      intro hd n hn
      rw [Derivation.tokens, Forest.tokens, Forest.tokens, List.append_nil]
      exact Nonterminal.isReadOff d (by decide) hd.2.1 hn
  case constRefName =>
    match f with
    | .cons name .nil =>
      intro _ n hn
      obtain rfl := Option.some.inj hn
      refine ⟨.node .argExpr (.cons (.node .exprChain (.cons (.node .chainName (.cons name .nil)) .nil)) .nil), ?_, rfl,
        Derivation.isProper_of_isPure _ rfl⟩
      exact (List.append_nil _).trans (List.append_nil _)
  all_goals exact fun hd _ hn => Nonterminal.isReadOff _ (by decide) hd hn

/-! ## Nodes that are passed on -/

theorem Forest.areReadOff {ss : List Sym} : {f : Forest ss} →
    f.All (fun s d => d.IsProper → AreReadOff d.tokens (s.nodes d.value)) → f.IsProper → AreReadOff f.tokens f.values.nodes
  | .nil, _, _ => .nil
  | .cons _ _, h, hf => (h.1 hf.1).append (Forest.areReadOff h.2 hf.2)

/-- A rule that makes a list or a suffix of what it is given. -/
def Production.gathers (p : Production) : Bool :=
  match p.lhs with
  | .unit | .decls | .fields | .params | .types | .stmts | .args | .exprs | .suffix | .indexSuffix | .callSuffix => true
  | _ => false

/-- Such a rule passes on the nodes of its parts. -/
theorem Production.nodes_read (p : Production) (hp : p.gathers = true) (vs : Values p.rhs) :
    p.lhs.nodes (p.read vs) = vs.nodes := by
  cases p
  case unitEmpty | callNone => rfl
  case unitDecls => exact (List.append_nil _).symm
  case declsOne | stmtsOne | stmtsOneSemi | fieldsOne | paramsOne | typesOne | argsOne | exprsOne | indexExpr | callOne => rfl
  case suffixIndex | suffixCall => exact (List.append_nil _).symm
  case declsMore | stmtsMore | stmtsMoreSemi | fieldsMore | paramsMore | typesMore | argsMore | exprsMore => exact List.map_append
  case callMany => exact congrArg (_ :: ·) (List.append_nil _).symm
  all_goals cases hp

/-- The nodes that a phrase passes on are read off its tokens. -/
theorem Derivation.areReadOff {s : Sym} (d : Derivation s) : d.IsProper → AreReadOff d.tokens (s.nodes d.value) := by
  refine Derivation.induct (P := fun s d => d.IsProper → AreReadOff d.tokens (s.nodes d.value)) (fun _ _ => .nil)
    (fun p f h hd => ?_) d
  have hparts : AreReadOff f.tokens f.values.nodes := Forest.areReadOff h hd.2
  have hnode := Derivation.isNode (.node p f)
  by_cases hp : p.gathers = true
  · rw [← p.nodes_read hp] at hparts
    exact hparts
  · cases p
    case sizeInteger | sizeName | openSpaced | openAdjacent | suffixesOne | suffixesMore => exact .nil
    all_goals first | exact .single (hnode hd _ rfl) | exact absurd rfl hp

theorem Forest.areReadOff_nodes {ss : List Sym} : {f : Forest ss} → f.IsProper → AreReadOff f.tokens f.values.nodes
  | .nil, _ => .nil
  | .cons d _, hf => (d.areReadOff hf.1).append (Forest.areReadOff_nodes hf.2)

/-! ## Chains -/

/-- Behind an expression a suffix makes a node of both, unless it is the address form, which is not a node itself. -/
theorem Suffix.nodes_applyTo (e : Expr) (x : Suffix) : (x.applyTo e).nodes = .expr e :: x.nodes ∨ (x.applyTo e).nodes = x.nodes := by
  cases x with
  | index i span => exact .inl rfl
  | call args span =>
    unfold applyTo
    dsimp only
    split
    · split
      · exact .inr rfl
      · exact .inl rfl
    · exact .inl rfl

/-- Suffixes are a suffix, or others with a suffix behind them. -/
def Derivation.EndsInSuffix : {s : Sym} → Derivation s → Prop
  | .n .suffixes, d => ∃ x : Derivation (.n .suffix), d.tokens = x.tokens ∧ d.value = [x.value]
    ∨ ∃ front : Derivation (.n .suffixes), d.tokens = front.tokens ++ x.tokens ∧ d.value = front.value ++ [x.value]
  | _, _ => True

theorem Derivation.endsInSuffix : {s : Sym} → (d : Derivation s) → d.EndsInSuffix := by
  refine Derivation.induct (fun _ => trivial) fun p f _ => ?_
  cases p
  case suffixesOne =>
    match f with
    | .cons x .nil => exact ⟨x, .inl ⟨List.append_nil _, rfl⟩⟩
  case suffixesMore =>
    match f with
    | .cons front (.cons x .nil) => exact ⟨x, .inr ⟨front, congrArg (front.tokens ++ ·) (List.append_nil _), rfl⟩⟩
  all_goals trivial

/-- The nodes in a name with suffixes behind it: what is in front of the last one, and what is in this one. -/
theorem areReadOff_suffixed {name : Token} {ts : List Token} (xs : Derivation (.n .suffixes))
    (hname : Node.IsReadOff ts (.expr (nameExpr name)))
    (hmore : ∀ front : Derivation (.n .suffixes), Node.IsReadOff (ts ++ front.tokens) (.expr (suffixed name front.value))) :
    AreReadOff (ts ++ xs.tokens) (suffixed name xs.value).nodes := by
  obtain ⟨x, hxs⟩ := xs.endsInSuffix
  have hx : AreReadOff x.tokens x.value.nodes := x.areReadOff (x.isProper_of_isPure rfl)
  -- whatever the last suffix makes a node of is read off what is in front of it
  have hlast {ws : List Token} {e : Expr} (he : Node.IsReadOff ws (.expr e)) :
      AreReadOff (ws ++ x.tokens) (x.value.applyTo e).nodes := by
    obtain hnodes | hnodes := x.value.nodes_applyTo e
    · rw [hnodes]
      exact (AreReadOff.single he).append hx
    · rw [hnodes]
      exact hx.behind ws
  obtain ⟨htokens, hvalue⟩ | ⟨front, htokens, hvalue⟩ := hxs
  · rw [htokens, hvalue]
    exact hlast hname
  · rw [htokens, hvalue, suffixed, List.foldl_append, ← List.append_assoc]
    exact hlast (hmore front)

/-! ## Nodes in nodes -/

/-- If a phrase is a node, the nodes in this are read off its tokens. -/
def Derivation.HasChildren : {s : Sym} → Derivation s → Prop
  | .n x, d => d.IsProper → ∀ n, x.node? d.value = some n → AreReadOff d.tokens n.children
  | .t _, _ => True

theorem Derivation.hasChildren : {s : Sym} → (d : Derivation s) → d.HasChildren := by
  refine Derivation.induct (fun _ => trivial) fun p f h => ?_
  cases p
  -- rules that pass on a node
  case declConst | declVar | declStruct | declFun | typeBase | basePrimitive | typeArgPrimitive | exprChain | exprLiteral
    | exprComposite | argExpr | stmtVar | stmtAssign | stmtCall | stmtIf | stmtWhile | stmtBreak | stmtContinue | stmtLabel
    | stmtGoto | stmtBlock =>
    match f, h with
    | .cons d .nil, ⟨ih, _⟩ =>
      intro hd n hn
      rw [Derivation.tokens, Forest.tokens, Forest.tokens, List.append_nil]
      exact ih hd.2.1 n hn
  -- rules for lists and suffixes
  case unitEmpty | unitDecls | declsOne | declsMore | fieldsOne | fieldsMore | paramsOne | paramsMore | typesOne | typesMore
    | sizeInteger | sizeName | stmtsOneSemi | stmtsOne | stmtsMoreSemi | stmtsMore | suffixesOne | suffixesMore | suffixIndex
    | suffixCall | indexExpr | callMany | callOne | callNone | argsOne | argsMore | exprsOne | exprsMore | openSpaced | openAdjacent =>
    exact fun _ _ hn => nomatch hn
  all_goals
    intro hd n hn
    obtain rfl := Option.some.inj hn
    have hparts : AreReadOff f.tokens f.values.nodes := Forest.areReadOff_nodes hd.2
  -- rules that make a node of tokens
  case constRefName | chainName | chainBuiltin | baseNamed | primitiveInt | primitiveFloat | primitiveByte | primitiveVoid
    | literalInt | literalReal | literalByte | literalChar | breakWord | continueWord | labelNamed | gotoLabel | blockEmpty
    | compositeNone => exact .nil
  -- rules that make a node of a fixed number of nodes
  case constLiteral | constAlias | varTyped | paramTyped | typePointer | typeArgPointer | typeArray | typeArgArray | typeFunNone
    | typeArgFunNone | typeFunOne | typeArgFunOne | argType | assignTo | callChain | ifElseIf | ifElse | ifOnly | whileLoop
    | structOne | funNone | funOne | compositeOne => exact hparts
  -- rules that make a node of a list of nodes
  case typeFunMany | typeArgFunMany =>
    have hnodes : f.values.nodes = .type f.values.1 :: .type f.values.2.2.1 :: f.values.2.2.2.1.map Node.type :=
      congrArg (_ :: _ :: ·) (List.append_nil _)
    rw [hnodes] at hparts
    exact hparts
  case compositeMany =>
    have hnodes : f.values.nodes = .expr f.values.2.1 :: f.values.2.2.1.map Node.expr := congrArg (_ :: ·) (List.append_nil _)
    rw [hnodes] at hparts
    exact hparts
  case blockStmts =>
    have hnodes : f.values.nodes = f.values.2.1.map Node.stmt := List.append_nil _
    rw [hnodes] at hparts
    exact hparts
  case structMany =>
    have hnodes : f.values.nodes = ((f.values.2.2.2.1 :: f.values.2.2.2.2.1).map Member.var).map Member.node := by
      rw [List.map_map]
      exact congrArg (_ :: ·) (List.append_nil _)
    rw [hnodes] at hparts
    exact hparts
  case funMany =>
    have hparams : f.values.2.2.2.2.2.1.map Node.param = (f.values.2.2.2.2.2.1.map Member.param).map Member.node := by
      rw [List.map_map]
      rfl
    have hnodes : f.values.nodes = .type f.values.2.2.1 :: .param f.values.2.2.2.2.1 :: (f.values.2.2.2.2.2.1.map Node.param
        ++ [.stmt (.block f.values.2.2.2.2.2.2.2.1.statements f.values.2.2.2.2.2.2.2.1.braces)]) := rfl
    rw [hnodes, hparams] at hparts
    exact hparts
  -- what is in front of a suffix
  case typeArgNamedPointer =>
    match f, hd with
    | .cons name (.cons star .nil), hd =>
      have hname : Node.IsReadOff (name.tokens ++ []) (.type (wordType name.value)) :=
        Nonterminal.isReadOff (.node .baseNamed (.cons name .nil)) (by decide) (Derivation.isProper_of_isPure _ rfl) rfl
      rw [List.append_nil] at hname
      have hnone : AreReadOff (star.tokens ++ []) [] := .nil
      exact (AreReadOff.single hname).append hnone
  case chainNameSuffixes =>
    match f with
    | .cons name (.cons xs .nil) =>
      have hname : Node.IsReadOff (name.tokens ++ []) (.expr (nameExpr name.value)) :=
        Nonterminal.isReadOff (.node .chainName (.cons name .nil)) (by decide) (Derivation.isProper_of_isPure _ rfl) rfl
      have hfront (front : Derivation (.n .suffixes)) :
          Node.IsReadOff (name.tokens ++ (front.tokens ++ [])) (.expr (suffixed name.value front.value)) :=
        Nonterminal.isReadOff (.node .chainNameSuffixes (.cons name (.cons front .nil))) (by decide)
          (Derivation.isProper_of_isPure _ rfl) rfl
      rw [Derivation.tokens, Forest.tokens, Forest.tokens, Forest.tokens, List.append_nil]
      rw [List.append_nil] at hname
      exact areReadOff_suffixed xs hname fun front => List.append_nil front.tokens ▸ hfront front
  case chainBuiltinSuffixes =>
    match f with
    | .cons name (.cons xs .nil) =>
      have hname : Node.IsReadOff (name.tokens ++ []) (.expr (nameExpr name.value)) :=
        Nonterminal.isReadOff (.node .chainBuiltin (.cons name .nil)) (by decide) (Derivation.isProper_of_isPure _ rfl) rfl
      have hfront (front : Derivation (.n .suffixes)) :
          Node.IsReadOff (name.tokens ++ (front.tokens ++ [])) (.expr (suffixed name.value front.value)) :=
        Nonterminal.isReadOff (.node .chainBuiltinSuffixes (.cons name (.cons front .nil))) (by decide)
          (Derivation.isProper_of_isPure _ rfl) rfl
      rw [Derivation.tokens, Forest.tokens, Forest.tokens, Forest.tokens, List.append_nil]
      rw [List.append_nil] at hname
      exact areReadOff_suffixed xs hname fun front => List.append_nil front.tokens ▸ hfront front

end Grammar

/-- The nodes in a node are read off stretches of its tokens, one behind the other. -/
theorem Node.IsReadOff.children {ts : List Token} {n : Node} (h : n.IsReadOff ts) : AreReadOff ts n.children := by
  cases n
  case program | absent => exact h.elim
  all_goals obtain ⟨d, rfl, hvalue, hd⟩ := h
  case type t => exact d.hasChildren hd _ (congrArg some (congrArg Node.type hvalue))
  case expr e => exact d.hasChildren hd _ (congrArg some (congrArg Node.expr hvalue))
  case stmt s => exact d.hasChildren hd _ (congrArg some (congrArg Node.stmt hvalue))
  case const c => exact d.hasChildren hd _ (congrArg some (congrArg Node.const hvalue))
  case struct c => exact d.hasChildren hd _ (congrArg some (congrArg Node.struct hvalue))
  case param c => exact d.hasChildren hd _ (congrArg some (congrArg Node.param hvalue))
  case func c => exact d.hasChildren hd _ (congrArg some (congrArg Node.func hvalue))

end FlatScope
