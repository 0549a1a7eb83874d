/-
  What is built of the parse tree of a derivation. Every phrase is laid out as its class says, as a node or as a row of
  nodes, and what is built of them is what the phrase is read as, unless it has a fault (`Derivation.IsBuilt`). Faults
  come from statements only, so that for the other phrases nothing needs to be said of them. The modules beside this one
  show that every rule keeps this, class by class.
-/
import FlatScope.Proofs.Grammar.Proper
import FlatScope.Proofs.Totality.Builder

namespace FlatScope.Grammar

open Build

/-! ## Phrases without faults -/

/-- The phrases of a class hold no expression that may be misused. Nothing but a literal can be wrong with them. -/
def Nonterminal.isPure : Nonterminal → Bool
  | .unit | .decls | .decl | .funDecl | .block | .stmts | .stmt | .assignStmt | .callStmt | .ifStmt | .whileStmt => false
  | _ => true

def Sym.isPure : Sym → Bool
  | .t _ => true
  | .n x => x.isPure

/-- Such phrases consist of such phrases. -/
theorem Production.isPure_of_mem_rhs (p : Production) (h : p.lhs.isPure = true) : ∀ s ∈ p.rhs, s.isPure = true := by
  cases p
  case unitEmpty | unitDecls | declsOne | declsMore | declConst | declVar | declStruct | declFun | funMany | funOne
    | funNone | blockStmts | blockEmpty | stmtsOneSemi | stmtsOne | stmtsMoreSemi | stmtsMore | stmtVar | stmtAssign
    | stmtCall | stmtIf | stmtWhile | stmtBreak | stmtContinue | stmtLabel | stmtGoto | stmtBlock | assignTo | callChain
    | ifElseIf | ifElse | ifOnly | whileLoop => cases h
  all_goals decide

theorem Production.allows_of_isPure (p : Production) (h : p.lhs.isPure = true) (f : Forest p.rhs) : p.Allows f := by
  cases p
  case assignTo | callChain => cases h
  all_goals trivial

mutual

theorem Derivation.isProper_of_isPure : {s : Sym} → (d : Derivation s) → s.isPure = true → d.IsProper
  | _, .leaf _, _ => trivial
  | _, .node p f, h => ⟨p.allows_of_isPure h f, f.isProper_of_isPure (p.isPure_of_mem_rhs h)⟩

theorem Forest.isProper_of_isPure : {ss : List Sym} → (f : Forest ss) → (∀ s ∈ ss, s.isPure = true) → f.IsProper
  | _, .nil, _ => trivial
  | _, .cons d f, h => by
    obtain ⟨hd, hf⟩ := List.forall_mem_cons.mp h
    exact ⟨d.isProper_of_isPure hd, f.isProper_of_isPure hf⟩

end

/-- Such phrases have no fault. -/
theorem Derivation.fault?_of_isPure {s : Sym} (d : Derivation s) (h : ∀ t ∈ d.tokens, t.IsSpelled) (hs : s.isPure = true) :
    d.fault? = none :=
  (d.fault?_eq_none_iff h).mpr (d.isProper_of_isPure hs)

/-! ## What is built of phrases -/

/-- The value of a phrase, unless it has a fault. -/
def outcome {α : Type} (fault? : Option SourceError) (a : α) : Build α :=
  match fault? with
  | some e => .error (.fault e)
  | none => .ok a

/-- A token of a kind, where it stands, and what it is among the parts of a node. -/
structure IsLeaf (kind : Kind) (t : Token) (span : Span) (parts : List Part) : Prop where
  kind_eq : t.kind = kind
  spelled : t.IsSpelled
  span_eq : span = t.span
  parts_eq : parts = if kind.isKept then [.token t] else []

/-- How the phrases of a class are laid out, and that what is built of them is what they are read as. -/
def Nonterminal.IsBuilt : (x : Nonterminal) → Span → List Part → Option SourceError → x.Value → Prop
  | .unit, _, parts, fault?, ds => buildUnit parts = outcome fault? ds
  | .decls, _, parts, fault?, ds => ∃ ts : List ParseTree, parts = ts.map .tree ∧ ts.mapM buildDecl = outcome fault? ds
  | .decl, _, parts, fault?, d => ∃ t, parts = [.tree t] ∧ buildDecl t = outcome fault? d
  | .constDecl, _, parts, _, d => ∃ t, parts = [.tree t] ∧ buildDecl t = .ok (Decl.const d)
  | .structDecl, _, parts, _, d => ∃ t, parts = [.tree t] ∧ buildDecl t = .ok (Decl.struct d)
  | .funDecl, _, parts, fault?, d => ∃ t, parts = [.tree t] ∧ buildDecl t = outcome fault? (Decl.func d)
  | .varDecl, span, parts, _, d => d.span = span ∧ ∃ t, parts = [.tree t] ∧ t.label = .varDecl ∧ buildVar t = .ok d
  | .fields, _, parts, _, ds => ∃ ts : List ParseTree, parts = ts.map .tree ∧ ts.mapM buildVar = .ok ds
  | .param, _, parts, _, p => ∃ t, parts = [.tree t] ∧ buildParam t = .ok p
  | .params, _, parts, _, ps => ∃ ts : List ParseTree, parts = ts.map .tree ∧ ts.mapM buildParam = .ok ps
  | .type, span, parts, _, t | .baseType, span, parts, _, t =>
    t.span = span ∧ ∃ tree, parts = [.tree tree] ∧ buildType tree = .ok t
  | .primitive, span, parts, _, t | .typeArg, span, parts, _, t =>
    t.span = span ∧ ∃ tree, parts = [.tree tree] ∧ tree.span = span ∧ tree.label.isType = true ∧ buildType tree = .ok t
  | .types, _, parts, _, ts => ∃ trees : List ParseTree, parts = trees.map .tree ∧ buildTypes trees = .ok ts
  | .arraySize, _, parts, _, size => ∃ t, parts = [.tree t] ∧ buildSize t = .ok size
  | .constRef, span, parts, _, e => e.span = span ∧ ∃ t, parts = [.tree t] ∧ buildConstant t = .ok e
  | .literal, span, parts, _, e =>
    e.span = span ∧ ∃ t, parts = [.tree t] ∧ t.label.isType = false ∧ buildConstant t = .ok e ∧ buildExpr t = .ok e
  | .expr, span, parts, _, e | .chain, span, parts, _, e | .composite, span, parts, _, e =>
    e.span = span ∧ ∃ t, parts = [.tree t] ∧ t.label.isType = false ∧ buildExpr t = .ok e
  | .exprs, _, parts, _, es => ∃ ts : List ParseTree, parts = ts.map .tree ∧ buildExprs ts = .ok es
  | .suffix, span, parts, _, x | .indexSuffix, span, parts, _, x | .callSuffix, span, parts, _, x =>
    ∃ t, parts = [.tree t] ∧ ∀ e, (x.applyTo e).span = .join e.span span ∧ buildSuffixes e [t] = .ok (x.applyTo e)
  | .suffixes, span, parts, _, xs =>
    ∃ ts : List ParseTree, parts = ts.map .tree ∧ ∀ e,
      (xs.foldl Suffix.applyTo e).span = .join e.span span ∧ buildSuffixes e ts = .ok (xs.foldl Suffix.applyTo e)
  | .arg, _, parts, _, e => ∃ t, parts = [.tree t] ∧ buildArgs [t] = .ok [e]
  | .args, _, parts, _, es => ∃ ts : List ParseTree, parts = ts.map .tree ∧ buildArgs ts = .ok es
  | .block, span, parts, fault?, b => b.braces = span ∧ ∃ inner : List Part,
    parts = [.tree (.ofParts .block b.braces inner)] ∧ buildStmts (Part.trees inner) = outcome fault? b.statements
  | .stmts, _, parts, fault?, ss => ∃ ts : List ParseTree, parts = ts.map .tree ∧ buildStmts ts = outcome fault? ss
  | .ifStmt, span, parts, fault?, s => s.span = span ∧ ∃ inner : List Part,
    parts = [.tree (.ofParts .ifStmt s.span inner)] ∧ buildIf s.span (Part.trees inner) = outcome fault? s
  | .stmt, _, parts, fault?, s | .assignStmt, _, parts, fault?, s | .callStmt, _, parts, fault?, s
  | .whileStmt, _, parts, fault?, s => ∃ t, parts = [.tree t] ∧ buildStmt t = outcome fault? s
  | .breakStmt, _, parts, _, s | .continueStmt, _, parts, _, s | .labelStmt, _, parts, _, s
  | .gotoStmt, _, parts, _, s => ∃ t, parts = [.tree t] ∧ buildStmt t = .ok s
  | .opener, span, parts, _, t => span = t.span ∧ t.kind ≠ .name ∧ parts = [.token t]

/-- A derivation is laid out as its symbol says, and read as what is built of it. -/
def Derivation.IsBuilt : {s : Sym} → Derivation s → Prop
  | .t kind, d => IsLeaf kind d.value d.span d.parts
  | .n x, d => x.IsBuilt d.span d.parts d.fault? d.value

theorem IsLeaf.ne_name {kind : Kind} {t : Token} {span : Span} {parts : List Part} (h : IsLeaf kind t span parts)
    (hk : (kind == .name) = false) : t.kind ≠ .name := by
  rw [h.kind_eq]
  exact beq_eq_false_iff_ne.mp hk

theorem Production.parts_node {p : Production} {f : Forest p.rhs} {label : Label} {span : Span} {parts : List Part}
    (hs : span = f.span) (hp : f.parts = parts) (hl : p.label? = some label) :
    (Derivation.node p f).parts = [.tree (.ofParts label span parts)] := by
  rw [Derivation.parts, hl, hs, hp]

section Lists

variable {s ss : Sym} {d : Derivation s} {ds : Derivation ss} {comma : Derivation (.t .comma)} {tree : ParseTree}
  {trees : List ParseTree}

/-- A list behind a first member starts with a comma, which is not kept. -/
theorem parts_listOne (hc : comma.IsBuilt) (hd : d.parts = [.tree tree]) :
    Forest.parts (.cons comma (.cons d .nil)) = [.tree tree] := by
  simp [Forest.parts, hc.parts_eq, hd]

/-- A list goes on behind a comma, which is not kept. -/
theorem parts_listMore (hds : ds.parts = trees.map .tree) (hc : comma.IsBuilt) (hd : d.parts = [.tree tree]) :
    Forest.parts (.cons ds (.cons comma (.cons d .nil))) = (trees ++ [tree]).map .tree := by
  simp [Forest.parts, hds, hc.parts_eq, hd]

end Lists

theorem join_congr {a b c d : Span} (h : a = c) (hs : b.stop = d.stop) : Span.join a b = .join c d := by
  rw [h, Span.join, Span.join, hs]

/-! ## Classes of phrases -/

namespace Nonterminal

def ofTypes : List Nonterminal := [type, baseType, primitive, typeArg, types, arraySize]

def ofExprs : List Nonterminal :=
  [expr, chain, suffixes, suffix, indexSuffix, callSuffix, args, arg, composite, exprs, opener, literal, constRef]

def ofStmts : List Nonterminal :=
  [block, stmts, stmt, assignStmt, callStmt, ifStmt, whileStmt, breakStmt, continueStmt, labelStmt, gotoStmt]

def ofDecls : List Nonterminal :=
  [unit, decls, decl, constDecl, varDecl, structDecl, fields, funDecl, params, param]

theorem mem_classes (x : Nonterminal) : x ∈ ofTypes ∨ x ∈ ofExprs ∨ x ∈ ofStmts ∨ x ∈ ofDecls := by
  cases x <;> decide

end Nonterminal

/-! ## Runs of the builder -/

theorem outcome_congr {α : Type} {b : Build α} {fault? other? : Option SourceError} {a : α} (h : b = outcome other? a)
    (hf : fault? = other?) : b = outcome fault? a := by
  rw [hf]
  exact h

theorem outcome_of_ok {α : Type} {b : Build α} {fault? : Option SourceError} {a : α} (h : b = .ok a) (hf : fault? = none) :
    b = outcome fault? a := by
  rw [hf]
  exact h

theorem findSome?_pair {a b : Option SourceError} : [a, b].findSome? id = (a <|> b) := by
  cases a <;> cases b <;> rfl

theorem findSome?_single {a : Option SourceError} : [a].findSome? id = a := by
  cases a <;> rfl

theorem ok_bind {α β : Type} {a : α} {k : α → Build β} : (Except.ok a >>= k) = k a := rfl

theorem check_bind {α : Type} {fault? : Option SourceError} {a : α} :
    (do
      check fault?
      return a) = outcome fault? a := by
  cases fault? <;> rfl

theorem firstName_second {start name : Token} {front others : List Token} (hs : start.kind ≠ .name)
    (hn : name.kind = .name) : firstName (start :: name :: front) others = .ok name := by
  simp [firstName, hs, hn]

/-! ## Literals -/

section Literals

variable {t : Token}

theorem literal_eq {α : Type} [Inhabited α] {value : Except LiteralFault α} (h : ∀ fault, value ≠ .error fault) :
    literal value = .ok (Token.orDefault value) := by
  cases value with
  | ok a => rfl
  | error fault => exact absurd rfl (h fault)

theorem literal_readInt (h : t.IsSpelled) (hk : t.kind = .integer) : literal t.readInt = .ok t.intValue := by
  have hn := Token.literalFault?_eq_none h
  rw [Token.literalFault?, hk] at hn
  refine literal_eq fun fault hf => ?_
  rw [hf] at hn
  cases hn

theorem literal_readReal (h : t.IsSpelled) (hk : t.kind = .real) : literal t.readReal = .ok t.realValue := by
  have hn := Token.literalFault?_eq_none h
  rw [Token.literalFault?, hk] at hn
  refine literal_eq fun fault hf => ?_
  rw [hf] at hn
  cases hn

theorem literal_readByte (h : t.IsSpelled) (hk : t.kind = .byte ∨ t.kind = .char) : literal t.readByte = .ok t.byteValue := by
  have hn := Token.literalFault?_eq_none h
  refine literal_eq fun fault hf => ?_
  obtain hk | hk := hk
  all_goals
    rw [Token.literalFault?, hk, hf] at hn
    cases hn

end Literals

end FlatScope.Grammar
