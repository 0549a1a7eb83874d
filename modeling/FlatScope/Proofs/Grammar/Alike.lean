/-
  What a derivation is read as, without places. `Sym.strip` takes the places out of the value of a phrase, whatever its
  class; no rule looks at the places of its parts (`Production.strip_read`), so phrases with alike parts are alike
  (`Production.alike_read`). Nothing that is read has notes (`Derivation.isRaw_value`).
-/
import FlatScope.Parse
import FlatScope.Proofs.Grammar.Phrase
import FlatScope.Proofs.Tree.Strip

namespace FlatScope

namespace Expr

theorem isPlace_strip (keep : Bool) : (e : Expr) → (e.strip keep).isPlace = e.isPlace
  | .index b _ _ => b.isPlace_strip keep
  | .int .. | .real .. | .byte .. | .ident .. | .field .. | .call .. | .composite .. | .addrOf .. | .typeArg ..
  | .foreign _ => rfl

theorem isCall_strip (keep : Bool) (e : Expr) : (e.strip keep).isCall = e.isCall := by
  cases e <;> rfl

end Expr

/-- A token that is nowhere in particular. -/
def Token.unplaced (t : Token) : Token := { kind := t.kind, lexeme := t.lexeme, start := {}, stop := {} }

namespace Grammar

/-! ## Values without places -/

def Suffix.strip (keep : Bool) : Suffix → Suffix
  | index e _ => index (e.strip keep) {}
  | call args _ => call (args.map (Expr.strip keep)) {}

def Body.strip (keep : Bool) (b : Body) : Body := ⟨Stmt.stripAll keep b.statements, {}⟩

/-- What a phrase is read as, without places. Of an opener nothing is left but that it is one. -/
def Nonterminal.strip (keep : Bool) : (x : Nonterminal) → x.Value → x.Value
  | .unit, ds | .decls, ds => ds.map (Decl.strip keep)
  | .decl, d => d.strip keep
  | .constDecl, d => d.strip keep
  | .varDecl, d => d.strip
  | .structDecl, d => d.strip
  | .fields, ds => ds.map VarDecl.strip
  | .funDecl, d => d.strip keep
  | .params, ps => ps.map Param.strip
  | .param, p => p.strip
  | .type, t | .baseType, t | .primitive, t | .typeArg, t => t.unplaced
  | .types, ts => ts.map TypeExpr.unplaced
  | .arraySize, size => size
  | .block, b => b.strip keep
  | .stmts, ss => ss.map (Stmt.strip keep)
  | .stmt, s | .assignStmt, s | .callStmt, s | .ifStmt, s | .whileStmt, s | .breakStmt, s | .continueStmt, s
  | .labelStmt, s | .gotoStmt, s => s.strip keep
  | .constRef, e | .expr, e | .chain, e | .arg, e | .composite, e | .literal, e => e.strip keep
  | .suffixes, xs => xs.map (Suffix.strip keep)
  | .suffix, x | .indexSuffix, x | .callSuffix, x => x.strip keep
  | .args, es | .exprs, es => es.map (Expr.strip keep)
  | .opener, _ => blankToken .bracket

def Sym.strip (keep : Bool) : (s : Sym) → s.Value → s.Value
  | .t _, token => token.unplaced
  | .n x, v => x.strip keep v

def Values.strip (keep : Bool) : {ss : List Sym} → Values ss → Values ss
  | [], () => ()
  | s :: _, (v, vs) => (s.strip keep v, strip keep vs)

/-- Two values of a symbol are the same but for places and notes. -/
def Sym.Alike (s : Sym) (v w : s.Value) : Prop := s.strip false v = s.strip false w

/-- The values of several symbols are alike, one by one. -/
def Values.Alike : {ss : List Sym} → Values ss → Values ss → Prop
  | [], _, _ => True
  | s :: _, (v, vs), (w, ws) => s.Alike v w ∧ Alike vs ws

theorem Values.Alike.strip_eq : {ss : List Sym} → {vs ws : Values ss} → vs.Alike ws →
    Values.strip false vs = Values.strip false ws
  | [], _, _, _ => rfl
  | _ :: _, (_, _), (_, _), h => by
    have hs : Values.strip false _ = Values.strip false _ := Values.Alike.strip_eq h.2
    rw [Values.strip, Values.strip, hs]
    exact congrArg (·, _) h.1

/-! ## Stripping twice -/

theorem map_map_strip {α : Type} {f g k : α → α} (h : ∀ a, f (g a) = k a) (as : List α) :
    (as.map g).map f = as.map k := by
  rw [List.map_map]
  exact List.map_congr_left fun a _ => h a

theorem Suffix.strip_strip (a b : Bool) (x : Suffix) : (x.strip b).strip a = x.strip (a && b) := by
  cases x with
  | index e span => simp only [strip, Expr.strip_strip]
  | call args span => simp only [strip, ← Expr.stripAll_eq_map, Expr.stripAll_stripAll]

theorem Body.strip_strip (a b : Bool) (body : Body) : (body.strip b).strip a = body.strip (a && b) := by
  simp only [strip, Stmt.stripAll_stripAll]

theorem Nonterminal.strip_strip (a b : Bool) (x : Nonterminal) (v : x.Value) :
    x.strip a (x.strip b v) = x.strip (a && b) v := by
  cases x
  case unit | decls => exact map_map_strip (Decl.strip_strip a b) v
  case decl => exact Decl.strip_strip a b v
  case constDecl => exact ConstDecl.strip_strip a b v
  case varDecl => exact VarDecl.strip_strip v
  case structDecl => exact StructDecl.strip_strip v
  case fields => exact map_map_strip VarDecl.strip_strip v
  case funDecl => exact FuncDecl.strip_strip a b v
  case params => exact map_map_strip Param.strip_strip v
  case param => exact Param.strip_strip v
  case type | baseType | primitive | typeArg => exact TypeExpr.unplaced_unplaced v
  case types => exact map_map_strip TypeExpr.unplaced_unplaced v
  case arraySize | opener => rfl
  case block => exact Body.strip_strip a b v
  case stmts => exact map_map_strip (Stmt.strip_strip a b) v
  case stmt | assignStmt | callStmt | ifStmt | whileStmt | breakStmt | continueStmt | labelStmt | gotoStmt =>
    exact Stmt.strip_strip a b v
  case constRef | expr | chain | arg | composite | literal => exact Expr.strip_strip a b v
  case suffixes => exact map_map_strip (Suffix.strip_strip a b) v
  case suffix | indexSuffix | callSuffix => exact Suffix.strip_strip a b v
  case args | exprs => exact map_map_strip (Expr.strip_strip a b) v

/-! ## Suffixes -/

theorem isTypeArg_strip (keep : Bool) (e : Expr) : isTypeArg (e.strip keep) = isTypeArg e := by
  cases e <;> rfl

/-- A suffix is put behind an expression whatever the places. -/
theorem Suffix.strip_applyTo (a b : Bool) (e : Expr) (x : Suffix) :
    ((x.strip b).applyTo (e.strip b)).strip a = (x.applyTo e).strip (a && b) := by
  cases x with
  | index i span =>
    show Expr.strip a (.index (e.strip b) (i.strip b) _) = Expr.strip (a && b) (.index e i _)
    rw [Expr.strip, Expr.strip, Expr.strip_strip, Expr.strip_strip]
    cases a <;> cases b <;> rfl
  | call args span =>
    have hcall : ∀ info info' : Info, info.ty = none → info'.ty = none →
        Expr.strip a (.call (e.strip b) (args.map (Expr.strip b)) info) = Expr.strip (a && b) (.call e args info') := by
      intro info info' h h'
      rw [← Expr.stripAll_eq_map, Expr.strip, Expr.strip, Expr.strip_strip, Expr.stripAll_stripAll, Info.strip,
        Info.strip, h, h']
      cases a <;> cases b <;> rfl
    cases e with
    | ident name symbol i =>
      obtain _ | ⟨arg, _ | _⟩ := args
      case nil => exact hcall _ _ rfl rfl
      case cons.cons => exact hcall _ _ rfl rfl
      case cons.nil =>
        show Expr.strip a (if name = SpecialForm.addr.name ∧ !isTypeArg (arg.strip b) then .addrOf (arg.strip b) _
            else .call _ _ _)
          = Expr.strip (a && b) (if name = SpecialForm.addr.name ∧ !isTypeArg arg then .addrOf arg _ else .call _ _ _)
        rw [isTypeArg_strip]
        split
        · rw [Expr.strip, Expr.strip, Expr.strip_strip]
          cases a <;> cases b <;> rfl
        · exact hcall _ _ rfl rfl
    | _ => exact hcall _ _ rfl rfl

theorem strip_foldl_congr {keep : Bool} (xs : List Suffix) {e e' : Expr} (h : e.strip keep = e'.strip keep) :
    (xs.foldl Suffix.applyTo e).strip keep = (xs.foldl Suffix.applyTo e').strip keep := by
  induction xs generalizing e e' with
  | nil => exact h
  | cons x xs ih =>
    have hx := Suffix.strip_applyTo keep keep
    rw [Bool.and_self] at hx
    refine ih ?_
    rw [← hx, h, hx]

/-- Suffixes are put behind an expression whatever the places. -/
theorem strip_foldl_applyTo (a b : Bool) (xs : List Suffix) (e : Expr) :
    ((xs.map (Suffix.strip b)).foldl Suffix.applyTo (e.strip b)).strip a = (xs.foldl Suffix.applyTo e).strip (a && b) := by
  induction xs generalizing e with
  | nil => exact e.strip_strip a b
  | cons x xs ih =>
    have hx : ((x.strip b).applyTo (e.strip b)).strip a = ((x.applyTo e).strip b).strip a := by
      rw [x.strip_applyTo, Expr.strip_strip]
    rw [List.map_cons, List.foldl_cons, List.foldl_cons, ← ih]
    exact strip_foldl_congr _ hx

/-! ## Rules -/

theorem kept_none {α : Type} (a b : Bool) : kept a (none : Option α) = kept (a && b) none := by
  cases a <;> cases b <;> rfl

theorem strip_span (a b : Bool) (span span' : Span) : Info.strip a { span } = Info.strip (a && b) { span := span' } := by
  cases a <;> cases b <;> rfl

theorem strip_nameExpr (a b : Bool) (t : Token) : (nameExpr t.unplaced).strip a = (nameExpr t).strip (a && b) := by
  cases a <;> cases b <;> rfl

theorem strip_literalInt (a b : Bool) (t : Token) :
    (Expr.int t.unplaced.intValue { span := t.unplaced.span }).strip a = (Expr.int t.intValue { span := t.span }).strip (a && b) := by
  rw [Expr.strip, Expr.strip, strip_span a b _ t.span]
  rfl

theorem strip_literalReal (a b : Bool) (t : Token) :
    (Expr.real t.unplaced.realValue { span := t.unplaced.span }).strip a
      = (Expr.real t.realValue { span := t.span }).strip (a && b) := by
  rw [Expr.strip, Expr.strip, strip_span a b _ t.span]
  rfl

theorem strip_functionType (r : TypeExpr) (ts : List TypeExpr) (star : Token) :
    (functionType r.unplaced (ts.map TypeExpr.unplaced) star.unplaced).unplaced = (functionType r ts star).unplaced := by
  simp only [functionType, TypeExpr.unplaced, TypeExpr.unplacedAll_eq_map, r.unplaced_unplaced,
    map_map_strip TypeExpr.unplaced_unplaced]

theorem strip_compositeLiteral (a b : Bool) (o o' : Token) (es : List Expr) (c c' : Token) :
    (compositeLiteral o' (es.map (Expr.strip b)) c').strip a = (compositeLiteral o es c).strip (a && b) := by
  simp only [compositeLiteral, Expr.strip, Info.strip, ← Expr.stripAll_eq_map, Expr.stripAll_stripAll]
  cases a <;> cases b <;> rfl

theorem strip_struct (start name : Token) (fields : List VarDecl) (close : Token) :
    (struct start.unplaced name.unplaced (fields.map VarDecl.strip) close.unplaced).strip
      = (struct start name fields close).strip := by
  simp only [struct, StructDecl.strip, List.map_map]
  congr 1
  exact List.map_congr_left fun d _ => congrArg Member.var d.strip_strip

theorem strip_function (a b : Bool) (start name : Token) (result : TypeExpr) (params : List Param) (body : Body) :
    (function start.unplaced name.unplaced result.unplaced (params.map Param.strip) (body.strip b)).strip a
      = (function start name result params body).strip (a && b) := by
  simp only [function, FuncDecl.strip, result.unplaced_unplaced, Body.strip, Stmt.stripAll_stripAll, List.map_map]
  congr 1
  exact List.map_congr_left fun d _ => congrArg Member.param d.strip_strip

theorem strip_assign (a b : Bool) (target value : Expr) (span span' : Span) :
    (Stmt.assign (target.strip b) (value.strip b) span).strip a = (Stmt.assign target value span').strip (a && b) := by
  simp only [Stmt.strip, Expr.strip_strip]

theorem strip_ifThen (a b : Bool) (c : Expr) (body : Body) (otherwise : Option Stmt) (span span' : Span) :
    (Stmt.ifThen (c.strip b) (body.strip b).statements (.around (body.strip b).braces) (Stmt.stripElse b otherwise) span).strip a
      = (Stmt.ifThen c body.statements (.around body.braces) otherwise span').strip (a && b) := by
  simp only [Stmt.strip, Body.strip, Braces.strip, Expr.strip_strip, Stmt.stripAll_stripAll, Stmt.stripElse_stripElse]

theorem strip_whileDo (a b : Bool) (c : Expr) (body : Body) (span span' : Span) :
    (Stmt.whileDo (c.strip b) (body.strip b).statements (.around (body.strip b).braces) span).strip a
      = (Stmt.whileDo c body.statements (.around body.braces) span').strip (a && b) := by
  simp only [Stmt.strip, Body.strip, Braces.strip, Expr.strip_strip, Stmt.stripAll_stripAll]

theorem map_strip_snoc {α : Type} {f g k : α → α} (h : ∀ a, f (g a) = k a) (as : List α) (a : α) :
    (as.map g ++ [g a]).map f = (as ++ [a]).map k := by
  rw [List.map_append, List.map_append, map_map_strip h, List.map_singleton, List.map_singleton, h]

/-- A rule makes the same of its parts whatever their places. -/
theorem Production.strip_read (a b : Bool) (p : Production) (vs : Values p.rhs) :
    p.lhs.strip a (p.read (vs.strip b)) = p.lhs.strip (a && b) (p.read vs) := by
  have h := Nonterminal.strip_strip a b
  have hbody : ∀ ss : List Stmt, Stmt.stripAll a (ss.map (Stmt.strip b)) = Stmt.stripAll (a && b) ss := fun ss => by
    rw [← Stmt.stripAll_eq_map, Stmt.stripAll_stripAll]
  cases p
  -- rules that read a part as it is, or a single token
  case unitEmpty | breakWord | continueWord | openSpaced | openAdjacent => rfl
  case primitiveInt | primitiveFloat | primitiveByte | primitiveVoid | baseNamed | sizeInteger | sizeName
    | blockEmpty | typeArgNamedPointer => rfl
  case chainName | chainBuiltin | constRefName => exact strip_nameExpr a b vs.1
  case literalInt => exact strip_literalInt a b vs.1
  case literalReal => exact strip_literalReal a b vs.1
  case literalByte | literalChar => exact congrArg (Expr.byte _) (strip_span a b _ _)
  case labelNamed => exact congrArg (Stmt.label vs.2.1.lexeme · {}) (kept_none a b)
  case gotoLabel => exact congrArg (Stmt.goto vs.2.2.1.lexeme · {}) (kept_none a b)
  case unitDecls => exact h .decls vs.1
  case basePrimitive | typeBase | typeArgPrimitive => exact h .type vs.1
  case stmtAssign | stmtCall | stmtIf | stmtWhile | stmtBreak | stmtContinue | stmtLabel | stmtGoto =>
    exact h .stmt vs.1
  case exprChain | exprLiteral | exprComposite | argExpr => exact h .expr vs.1
  case suffixIndex | suffixCall => exact h .suffix vs.1
  case declConst => exact congrArg Decl.const (h .constDecl vs.1)
  case declVar => exact congrArg Decl.var (h .varDecl vs.1)
  case declStruct => exact congrArg Decl.struct (h .structDecl vs.1)
  case declFun => exact congrArg Decl.func (h .funDecl vs.1)
  case stmtVar => exact congrArg Stmt.var (h .varDecl vs.1)
  -- rules for lists
  case declsOne => exact congrArg (fun a => [a]) (h .decl vs.1)
  case stmtsOne | stmtsOneSemi => exact congrArg (fun a => [a]) (h .stmt vs.1)
  case suffixesOne => exact congrArg (fun a => [a]) (h .suffix vs.1)
  case fieldsOne => exact congrArg (fun a => [a]) (h .varDecl vs.2.1)
  case paramsOne => exact congrArg (fun a => [a]) (h .param vs.2.1)
  case typesOne => exact congrArg (fun a => [a]) (h .type vs.2.1)
  case argsOne | exprsOne => exact congrArg (fun a => [a]) (h .expr vs.2.1)
  case declsMore => exact map_strip_snoc (h .decl) vs.1 vs.2.1
  case stmtsMore | stmtsMoreSemi => exact map_strip_snoc (h .stmt) vs.1 vs.2.1
  case suffixesMore => exact map_strip_snoc (h .suffix) vs.1 vs.2.1
  case fieldsMore => exact map_strip_snoc (h .varDecl) vs.1 vs.2.2.1
  case paramsMore => exact map_strip_snoc (h .param) vs.1 vs.2.2.1
  case typesMore => exact map_strip_snoc (h .type) vs.1 vs.2.2.1
  case argsMore | exprsMore => exact map_strip_snoc (h .expr) vs.1 vs.2.2.1
  -- rules that read a suffix or a chain
  case chainNameSuffixes | chainBuiltinSuffixes =>
    have hname : (nameExpr vs.1.unplaced).strip a = ((nameExpr vs.1).strip b).strip a :=
      (strip_nameExpr a b vs.1).trans (Expr.strip_strip a b _).symm
    exact (strip_foldl_congr _ hname).trans (strip_foldl_applyTo a b vs.2.1 (nameExpr vs.1))
  case indexExpr => exact congrArg (Suffix.index · {}) (h .expr vs.2.1)
  case callMany => exact congrArg (Suffix.call · {}) (map_map_strip (h .expr) (vs.2.1 :: vs.2.2.1))
  case callOne => exact congrArg (Suffix.call · {}) (map_map_strip (h .expr) [vs.2.1])
  case callNone => rfl
  -- rules for types
  case typePointer | typeArgPointer => exact congrArg (TypeExpr.pointer · {}) (h .type vs.1)
  case typeArray | typeArgArray => exact congrArg (TypeExpr.array · vs.2.2.1 {}) (h .type vs.1)
  case typeFunMany => exact strip_functionType vs.1 (vs.2.2.1 :: vs.2.2.2.1) vs.2.2.2.2.2.1
  case typeArgFunMany => exact strip_functionType vs.1 (vs.2.2.1 :: vs.2.2.2.1) vs.2.2.2.2.2.1
  case typeFunOne => exact strip_functionType vs.1 [vs.2.2.1] vs.2.2.2.2.1
  case typeArgFunOne => exact strip_functionType vs.1 [vs.2.2.1] vs.2.2.2.2.1
  case typeFunNone => exact strip_functionType vs.1 [] vs.2.2.2.1
  case typeArgFunNone => exact strip_functionType vs.1 [] vs.2.2.2.1
  case argType =>
    have ht : (TypeExpr.unplaced vs.1).unplaced = TypeExpr.unplaced vs.1 := h .type vs.1
    cases a <;> cases b <;> exact congrArg (Expr.typeArg · {}) ht
  case compositeMany => exact strip_compositeLiteral a b vs.1 _ (vs.2.1 :: vs.2.2.1) vs.2.2.2.1 _
  case compositeOne => exact strip_compositeLiteral a b vs.1 _ [vs.2.1] vs.2.2.1 _
  case compositeNone => exact strip_compositeLiteral a b vs.1 _ [] vs.2.1 _
  -- rules for statements and declarations
  case blockStmts => exact congrArg (Body.mk · {}) (hbody vs.2.1)
  case stmtBlock => exact congrArg (Stmt.block · {}) (Stmt.stripAll_stripAll a b vs.1.statements)
  case assignTo => exact strip_assign a b vs.1 vs.2.2.1 {} {}
  case callChain => exact congrArg (Stmt.call · {}) (h .chain vs.1)
  case ifElseIf => exact strip_ifThen a b vs.2.1 vs.2.2.1 (some vs.2.2.2.2.1) {} {}
  case ifElse => exact strip_ifThen a b vs.2.1 vs.2.2.1 (some (.block vs.2.2.2.2.1.statements vs.2.2.2.2.1.braces)) {} {}
  case ifOnly => exact strip_ifThen a b vs.2.1 vs.2.2.1 none {} {}
  case whileLoop => exact strip_whileDo a b vs.2.1 vs.2.2.1 {} {}
  case constLiteral | constAlias => exact congrArg (ConstDecl.mk vs.2.1.lexeme · {}) (h .expr vs.2.2.1)
  case varTyped => exact congrArg (VarDecl.mk vs.2.1.lexeme · {}) (h .type vs.2.2.1)
  case paramTyped => exact congrArg (Param.mk vs.2.1.lexeme · {}) (h .type vs.2.2.1)
  case structMany => exact strip_struct vs.1 vs.2.1 (vs.2.2.2.1 :: vs.2.2.2.2.1) vs.2.2.2.2.2.1
  case structOne => exact strip_struct vs.1 vs.2.1 [vs.2.2.2.1] vs.2.2.2.2.1
  case funMany =>
    exact strip_function a b vs.1 vs.2.1 vs.2.2.1 (vs.2.2.2.2.1 :: vs.2.2.2.2.2.1) vs.2.2.2.2.2.2.2.1
  case funOne => exact strip_function a b vs.1 vs.2.1 vs.2.2.1 [vs.2.2.2.2.1] vs.2.2.2.2.2.2.1
  case funNone => exact strip_function a b vs.1 vs.2.1 vs.2.2.1 [] vs.2.2.2.2.2.1

/-- Alike parts make alike phrases. -/
theorem Production.alike_read (p : Production) {vs ws : Values p.rhs} (h : vs.Alike ws) :
    (Sym.n p.lhs).Alike (p.read vs) (p.read ws) := by
  have hread := p.strip_read false false
  show p.lhs.strip false (p.read vs) = p.lhs.strip false (p.read ws)
  rw [← Bool.and_self false, ← hread, h.strip_eq, hread]

/-! ## Nothing has notes -/

/-- What a symbol is read as has no notes. -/
def Sym.IsRaw (s : Sym) (v : s.Value) : Prop := s.strip true v = s.strip false v

theorem Forest.strip_values : {ss : List Sym} → {f : Forest ss} → f.All (fun s d => s.IsRaw d.value) →
    Values.strip true f.values = Values.strip false f.values
  | _, .nil, _ => rfl
  | _, .cons d f, h => by
    obtain ⟨hd, hf⟩ : Sym.IsRaw _ d.value ∧ f.All (fun s d => s.IsRaw d.value) := h
    have hf : Values.strip true f.values = Values.strip false f.values := Forest.strip_values hf
    rw [Forest.values, Values.strip, Values.strip, hf]
    exact congrArg (·, _) hd

/-- What is read has no notes. -/
theorem Derivation.isRaw_value {s : Sym} (d : Derivation s) : s.IsRaw d.value := by
  refine Derivation.induct (P := fun s d => s.IsRaw d.value) (fun t => rfl) ?_ d
  intro p f h
  show p.lhs.strip true (p.read f.values) = p.lhs.strip false (p.read f.values)
  calc p.lhs.strip true (p.read f.values)
      = p.lhs.strip true (p.read (Values.strip true f.values)) := (p.strip_read true true f.values).symm
    _ = p.lhs.strip true (p.read (Values.strip false f.values)) := by rw [Forest.strip_values h]
    _ = p.lhs.strip false (p.read f.values) := p.strip_read true false f.values

end Grammar

end FlatScope
