/-
  Reading further on. A derivation whose tokens stand so many lines and characters further on is read as the same, so many
  lines and characters further on (`Grammar.Derivation.value_shift`): no rule looks at the places of its parts except to
  put them together (`Grammar.Production.shift_read`).
-/
import FlatScope.Parse
import FlatScope.Proofs.Concatenation.Scan
import FlatScope.Proofs.Grammar.Alike
import FlatScope.Proofs.Grammar.Proper
import FlatScope.Proofs.Relabeling.Places

namespace FlatScope

/-- The same names, so many lines and characters further on. -/
def Relabeling.shifting (lines chars : Nat) : Relabeling := .placing (Span.shift lines chars) rfl

/-- A declaration so many lines and characters further on. -/
def Decl.shift (lines chars : Nat) (d : Decl) : Decl := d.relabel (.shifting lines chars)

namespace Grammar

variable (lines chars : Nat)

/-! ## Values further on -/

def Suffix.shift : Suffix → Suffix
  | index e span => index (e.relabel (.shifting lines chars)) (span.shift lines chars)
  | call args span => call (args.map (Expr.relabel (.shifting lines chars))) (span.shift lines chars)

def Body.shift (b : Body) : Body := ⟨Stmt.relabelAll (.shifting lines chars) b.statements, b.braces.shift lines chars⟩

/-- What a phrase is read as so many lines and characters further on. -/
def Nonterminal.shift : (x : Nonterminal) → x.Value → x.Value
  | .unit, ds | .decls, ds => ds.map (Decl.shift lines chars)
  | .decl, d => d.shift lines chars
  | .constDecl, d => d.relabel (.shifting lines chars)
  | .varDecl, d => d.relabel (.shifting lines chars)
  | .structDecl, d => d.relabel (.shifting lines chars)
  | .fields, ds => ds.map (VarDecl.relabel (.shifting lines chars))
  | .funDecl, d => d.relabel (.shifting lines chars)
  | .params, ps => ps.map (Param.relabel (.shifting lines chars))
  | .param, p => p.relabel (.shifting lines chars)
  | .type, t | .baseType, t | .primitive, t | .typeArg, t => t.relabel (.shifting lines chars)
  | .types, ts => ts.map (TypeExpr.relabel (.shifting lines chars))
  | .arraySize, size => size.relabel (.shifting lines chars)
  | .block, b => b.shift lines chars
  | .stmts, ss => ss.map (Stmt.relabel (.shifting lines chars))
  | .stmt, s | .assignStmt, s | .callStmt, s | .ifStmt, s | .whileStmt, s | .breakStmt, s | .continueStmt, s
  | .labelStmt, s | .gotoStmt, s => s.relabel (.shifting lines chars)
  | .constRef, e | .expr, e | .chain, e | .arg, e | .composite, e | .literal, e => e.relabel (.shifting lines chars)
  | .suffixes, xs => xs.map (Suffix.shift lines chars)
  | .suffix, x | .indexSuffix, x | .callSuffix, x => x.shift lines chars
  | .args, es | .exprs, es => es.map (Expr.relabel (.shifting lines chars))
  | .opener, t => t.shift lines chars

def Sym.shift : (s : Sym) → s.Value → s.Value
  | .t _, token => token.shift lines chars
  | .n x, v => x.shift lines chars v

def Values.shift : {ss : List Sym} → Values ss → Values ss
  | [], () => ()
  | s :: _, (v, vs) => (s.shift lines chars v, shift vs)

variable {lines chars}

/-! ## Pieces -/

theorem span_relabel_shifting (e : Expr) :
    (e.relabel (.shifting lines chars)).span = e.span.shift lines chars := Expr.span_relabel e

theorem typeSpan_relabel_shifting (t : TypeExpr) :
    (t.relabel (.shifting lines chars)).span = t.span.shift lines chars := TypeExpr.span_relabel t

theorem stmtSpan_relabel_shifting (s : Stmt) : (s.relabel (.shifting lines chars)).span = s.span.shift lines chars := by
  cases s with
  | foreign n => exact n.span_relabel
  | var _ | assign _ _ _ | call _ _ | ifThen _ _ _ _ _ | whileDo _ _ _ _ | breakLoop _ | continueLoop _ | label _ _ _
  | goto _ _ _ | block _ _ => rfl

theorem nameExpr_shift (t : Token) : nameExpr (t.shift lines chars) = (nameExpr t).relabel (.shifting lines chars) := by
  rw [nameExpr, Token.span_shift]
  rfl

theorem isTypeArg_relabel (φ : Relabeling) (e : Expr) : isTypeArg (e.relabel φ) = isTypeArg e := by
  cases e <;> rfl

/-- A suffix further on is put behind an expression further on. -/
theorem Suffix.shift_applyTo (e : Expr) (x : Suffix) :
    (x.applyTo e).relabel (.shifting lines chars) = (x.shift lines chars).applyTo (e.relabel (.shifting lines chars)) := by
  cases x with
  | index i span =>
    rw [shift, applyTo, applyTo, span_relabel_shifting]
    rfl
  | call args span =>
    have hcall : (Expr.call e args { span := .join e.span span }).relabel (.shifting lines chars)
        = .call (e.relabel (.shifting lines chars)) (args.map (Expr.relabel (.shifting lines chars)))
          { span := .join (e.relabel (.shifting lines chars)).span (span.shift lines chars) } := by
      rw [Expr.relabel, Expr.relabelAll_eq_map, span_relabel_shifting]
      rfl
    cases e with
    | ident name symbol info =>
      obtain _ | ⟨arg, _ | _⟩ := args
      case nil | cons.cons => exact hcall
      case cons.nil =>
        show (if name = SpecialForm.addr.name ∧ !isTypeArg arg then Expr.addrOf arg _ else .call _ _ _).relabel (.shifting lines chars)
          = if name = SpecialForm.addr.name ∧ !isTypeArg (arg.relabel (.shifting lines chars)) then .addrOf _ _ else .call _ _ _
        rw [isTypeArg_relabel]
        split
        · rfl
        · exact hcall
    | int _ _ | real _ _ | byte _ _ | index _ _ _ | field _ _ _ | call _ _ _ | composite _ _ | addrOf _ _ | typeArg _ _
    | foreign _ => exact hcall

theorem suffixed_shift (t : Token) (xs : List Suffix) : (suffixed t xs).relabel (.shifting lines chars)
    = suffixed (t.shift lines chars) (xs.map (Suffix.shift lines chars)) := by
  have hfold (e : Expr) : (xs.foldl Suffix.applyTo e).relabel (.shifting lines chars)
      = (xs.map (Suffix.shift lines chars)).foldl Suffix.applyTo (e.relabel (.shifting lines chars)) := by
    induction xs generalizing e with
    | nil => rfl
    | cons x xs ih => rw [List.foldl_cons, ih, List.map_cons, List.foldl_cons, Suffix.shift_applyTo]
  rw [suffixed, hfold, suffixed, nameExpr_shift]

theorem functionType_shift (r : TypeExpr) (ts : List TypeExpr) (star : Token) :
    (functionType r ts star).relabel (.shifting lines chars)
      = functionType (r.relabel (.shifting lines chars)) (ts.map (TypeExpr.relabel (.shifting lines chars))) (star.shift lines chars) := by
  rw [functionType, TypeExpr.relabel, TypeExpr.relabelAll_eq_map, functionType, typeSpan_relabel_shifting, Token.span_shift]
  rfl

theorem arrayType_shift (t : TypeExpr) (size : ArraySize) (close : Token) :
    (arrayType t size close).relabel (.shifting lines chars)
      = arrayType (t.relabel (.shifting lines chars)) (size.relabel (.shifting lines chars)) (close.shift lines chars) := by
  rw [arrayType, arrayType, typeSpan_relabel_shifting, Token.span_shift]
  rfl

theorem pointerType_shift (t : TypeExpr) (star : Token) : (pointerType t star).relabel (.shifting lines chars)
    = pointerType (t.relabel (.shifting lines chars)) (star.shift lines chars) := by
  rw [pointerType, pointerType, typeSpan_relabel_shifting, Token.span_shift]
  rfl

theorem compositeLiteral_shift (o : Token) (es : List Expr) (c : Token) :
    (compositeLiteral o es c).relabel (.shifting lines chars)
      = compositeLiteral (o.shift lines chars) (es.map (Expr.relabel (.shifting lines chars))) (c.shift lines chars) := by
  rw [compositeLiteral, Expr.relabel, Expr.relabelAll_eq_map, compositeLiteral, Token.span_shift, Token.span_shift]
  rfl

theorem struct_shift (start name : Token) (fields : List VarDecl) (close : Token) :
    (struct start name fields close).relabel (.shifting lines chars)
      = struct (start.shift lines chars) (name.shift lines chars) (fields.map (VarDecl.relabel (.shifting lines chars)))
        (close.shift lines chars) := by
  simp only [struct, StructDecl.relabel, List.map_map, Token.span_shift]
  rfl

theorem function_shift (start name : Token) (result : TypeExpr) (params : List Param) (body : Body) :
    (function start name result params body).relabel (.shifting lines chars)
      = function (start.shift lines chars) (name.shift lines chars) (result.relabel (.shifting lines chars))
        (params.map (Param.relabel (.shifting lines chars))) (body.shift lines chars) := by
  simp only [function, FuncDecl.relabel, List.map_map, Token.span_shift]
  rfl

/-! ## Rules -/

/-- A rule makes of parts further on what it makes of the parts, further on. -/
theorem Production.shift_read (p : Production) (vs : Values p.rhs) :
    p.lhs.shift lines chars (p.read vs) = p.read (vs.shift lines chars) := by
  have hjoin (start : Token) {a b : Span} (h : a = b.shift lines chars) :
      (start.span.join b).shift lines chars = .join (start.shift lines chars).span a := by
    rw [h, Token.span_shift, Span.shift_join]
  cases p
  -- rules for lists
  case declsMore => exact List.map_append
  case stmtsMore | stmtsMoreSemi | suffixesMore | fieldsMore | paramsMore | typesMore | argsMore | exprsMore =>
    exact List.map_append
  -- rules that put the places of their parts together
  case constLiteral => exact congrArg (ConstDecl.mk _ _) (hjoin vs.1 (span_relabel_shifting vs.2.2.1))
  case constAlias => exact congrArg (ConstDecl.mk _ _) (hjoin vs.1 (span_relabel_shifting vs.2.2.1))
  case varTyped => exact congrArg (VarDecl.mk _ _) (hjoin vs.1 (typeSpan_relabel_shifting vs.2.2.1))
  case paramTyped => exact congrArg (Param.mk _ _) (hjoin vs.1 (typeSpan_relabel_shifting vs.2.2.1))
  case assignTo =>
    exact congrArg (Stmt.assign _ _)
      (congrArg₂ Span.join (span_relabel_shifting vs.1).symm (span_relabel_shifting vs.2.2.1).symm)
  case callChain => exact congrArg (Stmt.call _) (span_relabel_shifting vs.1).symm
  case ifElseIf => exact congrArg (Stmt.ifThen _ _ _ _) (hjoin vs.1 (stmtSpan_relabel_shifting vs.2.2.2.2.1))
  case blockStmts => exact congrArg (Body.mk · _) (Stmt.relabelAll_eq_map _ _)
  case argType => exact congrArg (Expr.typeArg _) (congrArg (Info.mk · none) (typeSpan_relabel_shifting vs.1).symm)
  -- rules for types, names with suffixes and composites
  case typePointer | typeArgPointer => exact pointerType_shift vs.1 vs.2.1
  case typeArray | typeArgArray => exact arrayType_shift vs.1 vs.2.2.1 vs.2.2.2.1
  case typeFunMany => exact functionType_shift vs.1 (vs.2.2.1 :: vs.2.2.2.1) vs.2.2.2.2.2.1
  case typeArgFunMany => exact functionType_shift vs.1 (vs.2.2.1 :: vs.2.2.2.1) vs.2.2.2.2.2.1
  case typeFunOne => exact functionType_shift vs.1 [vs.2.2.1] vs.2.2.2.2.1
  case typeArgFunOne => exact functionType_shift vs.1 [vs.2.2.1] vs.2.2.2.2.1
  case typeFunNone | typeArgFunNone => exact functionType_shift vs.1 [] vs.2.2.2.1
  case chainNameSuffixes | chainBuiltinSuffixes => exact suffixed_shift vs.1 vs.2.1
  case compositeMany => exact compositeLiteral_shift vs.1 (vs.2.1 :: vs.2.2.1) vs.2.2.2.1
  case compositeOne => exact compositeLiteral_shift vs.1 [vs.2.1] vs.2.2.1
  case compositeNone => exact compositeLiteral_shift vs.1 [] vs.2.1
  -- declarations
  case structMany => exact struct_shift vs.1 vs.2.1 (vs.2.2.2.1 :: vs.2.2.2.2.1) vs.2.2.2.2.2.1
  case structOne => exact struct_shift vs.1 vs.2.1 [vs.2.2.2.1] vs.2.2.2.2.1
  case funMany => exact function_shift vs.1 vs.2.1 vs.2.2.1 (vs.2.2.2.2.1 :: vs.2.2.2.2.2.1) vs.2.2.2.2.2.2.2.1
  case funOne => exact function_shift vs.1 vs.2.1 vs.2.2.1 [vs.2.2.2.2.1] vs.2.2.2.2.2.2.1
  case funNone => exact function_shift vs.1 vs.2.1 vs.2.2.1 [] vs.2.2.2.2.2.1
  -- rules with a fixed number of parts whose places are those of tokens
  all_goals rfl

/-! ## Derivations -/

mutual

/-- A derivation whose tokens stand so many lines and characters further on. -/
def Derivation.shift (lines chars : Nat) : {s : Sym} → Derivation s → Derivation s
  | _, .leaf token => .leaf (token.shift lines chars)
  | _, .node p children => .node p (children.shift lines chars)

def Forest.shift (lines chars : Nat) : {ss : List Sym} → Forest ss → Forest ss
  | _, .nil => .nil
  | _, .cons head tail => .cons (head.shift lines chars) (tail.shift lines chars)

end

mutual

theorem Derivation.tokens_shift : {s : Sym} → (d : Derivation s) →
    (d.shift lines chars).tokens = d.tokens.map (Token.shift lines chars)
  | _, .leaf _ => rfl
  | _, .node _ children => children.tokens_shift

theorem Forest.tokens_shift : {ss : List Sym} → (f : Forest ss) →
    (f.shift lines chars).tokens = f.tokens.map (Token.shift lines chars)
  | _, .nil => rfl
  | _, .cons head tail => by
    rw [Forest.shift, Forest.tokens, Forest.tokens, List.map_append, head.tokens_shift, tail.tokens_shift]

end

mutual

/-- A derivation further on is read as the same, further on. -/
theorem Derivation.value_shift : {s : Sym} → (d : Derivation s) → (d.shift lines chars).value = s.shift lines chars d.value
  | _, .leaf _ => rfl
  | _, .node p children => by
    rw [Derivation.shift, Derivation.value, Derivation.value, children.values_shift]
    exact (p.shift_read children.values).symm

theorem Forest.values_shift : {ss : List Sym} → (f : Forest ss) → (f.shift lines chars).values = f.values.shift lines chars
  | _, .nil => rfl
  | _, .cons head tail => by
    rw [Forest.shift, Forest.values, Forest.values, head.value_shift, tail.values_shift]
    rfl

end

mutual

/-- A derivation further on is read as the same but for places. -/
theorem Derivation.alike_shift : {s : Sym} → (d : Derivation s) → s.Alike (d.shift lines chars).value d.value
  | _, .leaf _ => rfl
  | _, .node p children => p.alike_read children.alike_shift

theorem Forest.alike_shift : {ss : List Sym} → (f : Forest ss) → (f.shift lines chars).values.Alike f.values
  | _, .nil => trivial
  | _, .cons head tail => ⟨head.alike_shift, tail.alike_shift⟩

end

/-! ## Proper derivations -/

theorem isSpelled_shift {ts : List Token} (h : ∀ t ∈ ts, t.IsSpelled) : ∀ t ∈ ts.map (Token.shift lines chars), t.IsSpelled :=
  List.forall_mem_map.mpr h

mutual

theorem Derivation.isProper_shift : {s : Sym} → (d : Derivation s) → (∀ t ∈ d.tokens, t.IsSpelled) → d.IsProper →
    (d.shift lines chars).IsProper
  | _, .leaf _, _, _ => trivial
  | _, .node p f, ht, h => by
    have ht' : ∀ t ∈ (f.shift lines chars).tokens, t.IsSpelled := f.tokens_shift ▸ isSpelled_shift ht
    exact ⟨p.allows_alike ht ht' f.alike_shift h.1, f.isProper_shift ht h.2⟩

theorem Forest.isProper_shift : {ss : List Sym} → (f : Forest ss) → (∀ t ∈ f.tokens, t.IsSpelled) → f.IsProper →
    (f.shift lines chars).IsProper
  | _, .nil, _, _ => trivial
  | _, .cons d f, ht, h => by
    have ht : ∀ t ∈ d.tokens ++ f.tokens, t.IsSpelled := ht
    obtain ⟨hd, hf⟩ := List.forall_mem_append.mp ht
    exact ⟨d.isProper_shift hd h.1, f.isProper_shift hf h.2⟩

end

end Grammar

end FlatScope
