/-
  Expressions that spell types. The grammar reads one text in two ways, as an argument and as a type. The tokens of an argument are
  read as one argument only (`Derivation.value_eq_of_arg`), so where they are those of a type too the argument is, or spells, just
  this type (`Derivation.isSpelling_of_tokens`); and behind `var` and a name nothing but a type can follow that begins no
  declaration of its own (`Derivation.declaresOne`). So the text of an argument declares a variable behind its name exactly if the
  argument spells a type, and the variable is of this type (`Expr.exists_isSpelling`, `Expr.isSpelling_iff_ofSource`).
-/
import FlatScope.Proofs.Notes.Basic
import FlatScope.Proofs.Rechecking.Kept
import FlatScope.Proofs.Spelling.Type

namespace FlatScope

namespace Grammar

/-! ## Tokens of arguments -/

/-- A symbol that can stand in an argument. -/
def Sym.isOperand : Sym → Bool
  | .t kind => kind ∉ Nonterminal.decl.starts
  | .n x => x matches .arg | .args | .typeArg | .type | .types | .baseType | .primitive | .arraySize | .expr | .exprs | .chain
    | .suffixes | .suffix | .indexSuffix | .callSuffix | .composite | .opener | .literal

theorem Production.isOperand_of_mem_rhs (p : Production) (h : (Sym.n p.lhs).isOperand = true) : ∀ s ∈ p.rhs, s.isOperand = true := by
  revert h
  cases p <;> decide

/-- No declaration begins in an argument. -/
theorem Derivation.not_mem_starts_of_arg (a : Derivation (.n .arg)) : ∀ t ∈ a.tokens, t.kind ∉ Nonterminal.decl.starts :=
  fun t ht => of_decide_eq_true (a.forall_tokens (P := fun s => s.isOperand = true) Production.isOperand_of_mem_rhs rfl t ht)

/-- The call of something on an argument, as a unit. -/
def calling (a : Derivation (.n .arg)) : Derivation (.n .unit) :=
  let call : Derivation (.n .chain) := .node .chainNameSuffixes (.cons (.leaf (blankToken .name)) (.cons (.node .suffixesOne (.cons
    (.node .suffixCall (.cons (.node .callOne (.cons (.leaf (blankToken .paren)) (.cons a (.cons (.leaf (blankToken .closeParen))
      .nil)))) .nil)) .nil)) .nil))
  let body : Derivation (.n .block) := .node .blockStmts (.cons (.leaf (blankToken .openBrace)) (.cons (.node .stmtsOne (.cons
    (.node .stmtCall (.cons (.node .callChain (.cons call .nil)) .nil)) .nil)) (.cons (.leaf (blankToken .closeBrace)) .nil)))
  let result : Derivation (.n .type) := .node .typeBase (.cons (.node .basePrimitive (.cons (.node .primitiveVoid (.cons
    (.leaf (blankToken .voidKw)) .nil)) .nil)) .nil)
  .node .unitDecls (.cons (.node .declsOne (.cons (.node .declFun (.cons (.node .funNone (.cons (.leaf (blankToken .funKw))
    (.cons (.leaf (blankToken .name)) (.cons result (.cons (.leaf (blankToken .paren)) (.cons (.leaf (blankToken .closeParen))
      (.cons body .nil))))))) .nil)) .nil)) .nil)

/-- The tokens of an argument are read as one argument only. -/
theorem Derivation.value_eq_of_arg {a a' : Derivation (.n .arg)} (h : a.tokens = a'.tokens) : a.value = a'.value := by
  have htokens : (calling a).tokens = (calling a').tokens := by
    simp only [calling, Derivation.tokens, Forest.tokens, h]
  have hvalue := congrArg Derivation.value (Derivation.eq_of_tokens table_isComplete htokens)
  have hbody := congrArg FuncDecl.body (Decl.func.inj (List.cons.inj hvalue).1)
  have hcall := (Stmt.call.inj (List.cons.inj hbody).1).1
  have hform (args : List Expr) : ¬(nameExpr (blankToken .name)).IsAddressForm args := by
    rintro ⟨_, _, _, hname, -⟩
    exact absurd (Expr.ident.inj hname).1 (by decide)
  have hcall : Suffix.applyTo (nameExpr (blankToken .name)) (.call [a.value] _)
      = Suffix.applyTo (nameExpr (blankToken .name)) (.call [a'.value] _) := hcall
  rw [Suffix.applyTo_call (hform _), Suffix.applyTo_call (hform _)] at hcall
  exact (List.cons.inj (Expr.call.inj hcall).2.1).1

/-- What is an argument and a type is, or spells, the type. -/
theorem Derivation.isSpelling_of_tokens {a : Derivation (.n .arg)} {w : Derivation (.n .type)} (h : a.tokens = w.tokens)
    (hscanned : ∀ t ∈ w.tokens, t.IsScanned) : a.value.IsSpelling w.value := by
  obtain ⟨a', htokens, hspelling⟩ := w.exists_argument hscanned (isTelling_or_isBare_of_tokens h hscanned)
  rw [value_eq_of_arg (h.trans htokens.symm)]
  exact hspelling

/-! ## Declarations of variables -/

/-- A declaration is that of a variable, of a type that is derived as some tokens. -/
def DeclaresVar (name : String) (ts : List Token) (d : Decl) : Prop :=
  ∃ (w : Derivation (.n .type)) (v : VarDecl), w.tokens = ts ∧ d = .var v ∧ v.name = name ∧ v.type = w.value

/-- Where declarations begin with `var` and no other declaration begins in them, they declare one variable, of a type
that is derived as the tokens behind its name. -/
def Derivation.DeclaresOne : {s : Sym} → Derivation s → Prop
  | .n .varDecl, d => ∀ v x ts, d.tokens = v :: x :: ts → DeclaresVar x.lexeme ts (.var d.value)
  | .n .decl, d => ∀ v x ts, d.tokens = v :: x :: ts → v.kind = .varKw → DeclaresVar x.lexeme ts d.value
  | .n .decls, d | .n .unit, d => ∀ v x ts, d.tokens = v :: x :: ts → v.kind = .varKw →
    (∀ t ∈ x :: ts, t.kind ∉ Nonterminal.decl.starts) → ∃ decl, d.value = [decl] ∧ DeclaresVar x.lexeme ts decl
  | _, _ => True

theorem Derivation.declaresOne {s : Sym} (d : Derivation s) : d.DeclaresOne := by
  induction d using Derivation.induct with
  | leaf t => trivial
  | node p f h =>
    cases p
    case unitEmpty =>
      match f with
      | .nil => exact fun _ _ _ htokens => nomatch htokens
    case unitDecls =>
      match f, h with
      | .cons ds .nil, ⟨hds, _⟩ =>
        intro v x ts htokens
        exact hds v x ts ((List.append_nil _).symm.trans htokens)
    case declsOne =>
      match f, h with
      | .cons d .nil, ⟨hd, _⟩ =>
        intro v x ts htokens hv _
        exact ⟨d.value, rfl, hd v x ts ((List.append_nil _).symm.trans htokens) hv⟩
    case declsMore =>
      match f with
      | .cons ds (.cons d .nil) =>
        intro v x ts htokens _ hplain
        -- The last declaration begins somewhere behind the first token.
        obtain ⟨first, more, hds, -⟩ := ds.head_mem_starts (by decide)
        obtain ⟨last, rest, hd, hlast⟩ := d.head_mem_starts (by decide)
        have htokens : ds.tokens ++ (d.tokens ++ []) = v :: x :: ts := htokens
        rw [hds, hd] at htokens
        have hmem : last ∈ x :: ts := (List.cons.inj htokens).2 ▸ List.mem_append_right _ List.mem_cons_self
        exact absurd hlast (hplain last hmem)
    case declVar =>
      match f, h with
      | .cons d .nil, ⟨hd, _⟩ =>
        intro v x ts htokens _
        exact hd v x ts ((List.append_nil _).symm.trans htokens)
    case declConst | declStruct | declFun =>
      match f with
      | .cons d .nil =>
        intro v x ts htokens hv
        obtain ⟨t, rest, hhead, hstarts⟩ := d.head_mem_starts (by decide)
        have htokens : d.tokens ++ [] = v :: x :: ts := htokens
        rw [hhead] at htokens
        obtain ⟨rfl, -⟩ := List.cons.inj htokens
        rw [hv] at hstarts
        exact absurd hstarts (by decide)
    case varTyped =>
      match f with
      | .cons start (.cons name (.cons w .nil)) =>
        intro v x ts htokens
        obtain ⟨start', -, hstart, -⟩ := start.isFolded
        obtain ⟨name', -, hname, hvalue⟩ := name.isFolded
        have htokens : start.tokens ++ (name.tokens ++ (w.tokens ++ [])) = v :: x :: ts := htokens
        rw [hstart, hname, List.append_nil] at htokens
        obtain ⟨-, hrest⟩ := List.cons.inj htokens
        obtain ⟨rfl, rfl⟩ := List.cons.inj hrest
        exact ⟨w, _, rfl, rfl, congrArg Token.lexeme hvalue, rfl⟩
    all_goals trivial

/-- Where `var` and a name stand in front of an argument, a variable is declared of the type that the argument is or spells. -/
theorem Derivation.exists_isSpelling (u : Derivation (.n .unit)) {v x : Token} {a : Derivation (.n .arg)}
    (htokens : u.tokens = v :: x :: a.tokens) (hv : v.kind = .varKw) (hx : x.kind = .name) (hscanned : ∀ t ∈ a.tokens, t.IsScanned) :
    ∃ d, u.value = [.var d] ∧ d.name = x.lexeme ∧ a.value.IsSpelling d.type := by
  have hplain : ∀ t ∈ x :: a.tokens, t.kind ∉ Nonterminal.decl.starts := by
    refine List.forall_mem_cons.mpr ⟨?_, a.not_mem_starts_of_arg⟩
    rw [hx]
    decide
  obtain ⟨_, hvalue, w, d, hw, rfl, hname, htype⟩ := u.declaresOne v x a.tokens htokens hv hplain
  exact ⟨d, hvalue, hname, htype ▸ isSpelling_of_tokens hw.symm (hw ▸ hscanned)⟩

end Grammar

/-! ## Places -/

namespace Expr

theorem size?_strip (keep : Bool) (e : Expr) : (e.strip keep).size? = e.size? := by cases e <;> rfl

/-- An expression spells the same type wherever it is. -/
theorem asType?_strip (keep : Bool) : (e : Expr) → (e.strip keep).asType? = e.asType?.map TypeExpr.unplaced
  | .ident .. => rfl
  | .index base i _ => by
    rw [strip, asType?, asType?, base.asType?_strip, size?_strip]
    cases base.asType? with
    | none => rfl
    | some element => cases i.size? <;> rfl
  | .int .. | .real .. | .byte .. | .field .. | .call .. | .composite .. | .addrOf .. | .typeArg .. | .foreign _ => rfl

/-- Arguments that are the same but for their places spell types that are. -/
theorem IsSpelling.of_bare {a b : Expr} {w : TypeExpr} (h : a.IsSpelling w) (hbare : a.bare = b.bare) :
    ∃ u, b.IsSpelling u ∧ u.unplaced = w.unplaced := by
  obtain ⟨info, rfl⟩ | h := h
  · cases b with
    | typeArg u info' => exact ⟨u, .inl ⟨info', rfl⟩, (Expr.typeArg.inj hbare).1.symm⟩
    | _ => cases hbare
  · have hspelled : b.asType?.map TypeExpr.unplaced = some w.unplaced := by
      rw [← asType?_strip false b, ← show a.strip false = b.strip false from hbare, asType?_strip, h]
      rfl
    obtain ⟨u, hu, hplaces⟩ := Option.map_eq_some_iff.mp hspelled
    exact ⟨u, .inr hu, hplaces⟩

end Expr

/-! ## Texts -/

open Grammar in
/-- Where the text of an argument declares a variable behind its name, the argument is, or spells, the type of the variable. -/
theorem Expr.exists_isSpelling {a : Expr} {text : String} (ha : Prints (.n .arg) false text.toList true [] a) {x : String}
    (hx : IsName x) {file : Option String} {q : Program} (hq : Program.ofSource ("var " ++ x ++ " " ++ text) file = .ok q) :
    ∃ w v, a.IsSpelling w ∧ q.decls = [.var v] ∧ v.name = x ∧ v.type.unplaced = w.unplaced := by
  have htext : ("var " ++ x ++ " " ++ text).toList = (['v', 'a', 'r'] ++ [' ']) ++ ((x.toList ++ [' ']) ++ text.toList) := by
    simp only [String.toList_append, List.append_assoc]
    rfl
  have hprints : PrintsAll [.t .varKw, .t .name, .n .arg] false ("var " ++ x ++ " " ++ text).toList true [] _ :=
    htext ▸ prints_named ['v', 'a', 'r'] (isWord_of rfl) rfl hx ha.last
  obtain ⟨f, pos, previous, -, halike, -, hscan⟩ := hprints file {} none (follows_false _ _)
  rw [List.append_nil, Scan.scanFrom_nil, Scan.prepend, List.append_nil] at hscan
  have hscan : scan ("var " ++ x ++ " " ++ text) file = ⟨f.tokens, none⟩ := hscan
  rw [Program.ofSource, hscan] at hq
  obtain ⟨u, hu, -, rfl⟩ := Program.exists_derivation (show Program.ofTokens file f.tokens = .ok q from hq)
  obtain _ | ⟨start, _ | ⟨name, _ | ⟨a', _ | _⟩⟩⟩ := f
  obtain ⟨-, hname, ha', -⟩ := halike
  obtain ⟨start', hkind, hstart, -⟩ := start.isFolded
  obtain ⟨name', hkind', hname', hvalue⟩ := name.isFolded
  have htokens : u.tokens = start' :: name' :: a'.tokens := by
    rw [hu, Forest.tokens, Forest.tokens, Forest.tokens, Forest.tokens, hstart, hname', List.append_nil]
    rfl
  have hscanned : ∀ t ∈ a'.tokens, t.IsScanned := fun t ht => by
    refine Scan.isScanned_of_mem_scan (congrArg Scan.toExcept hscan) t ?_
    rw [← hu, htokens]
    exact List.mem_cons_of_mem _ (List.mem_cons_of_mem _ ht)
  obtain ⟨v, hv, hvname, hspelling⟩ := u.exists_isSpelling htokens hkind hkind' hscanned
  obtain ⟨w, hw, hplaces⟩ := hspelling.of_bare ha'
  have hlexeme : (Token.unplaced name.value).lexeme = (Token.unplaced (token .name x.toList)).lexeme := congrArg Token.lexeme hname
  refine ⟨w, v, hw, hv, ?_, hplaces.symm⟩
  rw [hvname, ← hvalue]
  exact hlexeme.trans (Stmt.lexeme_token .name x)

open Grammar in
/-- A text that prints an argument and a type prints an argument that is, or spells, the type. -/
theorem Expr.exists_isSpelling_of_prints {a : Expr} {t : TypeExpr} {text : String}
    (ha : Prints (.n .arg) false text.toList true [] a) (ht : Prints (.n .type) false text.toList true [] t) :
    ∃ w, a.IsSpelling w ∧ w.unplaced = t.unplaced := by
  have hx : IsName "x" := by decide
  obtain ⟨q, v, hq, hv, -, htype⟩ := TypeExpr.exists_ofSource ht hx none
  obtain ⟨w, v', hspelling, hv', -, htype'⟩ := exists_isSpelling ha hx hq
  obtain rfl := Decl.var.inj (List.cons.inj (hv.symm.trans hv')).1
  exact ⟨w, hspelling, htype'.symm.trans htype⟩

/-! ## Expressions that are well formed -/

theorem IsBuiltin.isBuiltinName_eq_true {name : String} (h : IsBuiltin name) : isBuiltinName name = true := by
  have h : Lexeme.builtin? name.toList = some name.toList.length := h
  unfold isBuiltinName
  generalize name.toList = cs at h ⊢
  unfold Lexeme.builtin? at h
  split at h
  · rfl
  · cases h

namespace Expr

/-- The type that a well-formed expression without names of builtins spells is well formed. -/
theorem isWellFormed_of_asType? : (e : Expr) → {w : TypeExpr} → e.IsWellFormed → (∀ y ∈ e.parts, ¬y.IsBuiltinName) →
    e.asType? = some w → w.IsWellFormed
  | .ident name _ _, _, h, hparts, hw => by
    obtain rfl := Option.some.inj hw
    have hname := List.forall_mem_singleton.mp hparts
    exact .inr (h.resolve_right fun hbuiltin => hname hbuiltin.isBuiltinName_eq_true)
  | .index base i _, _, h, hparts, hw => by
    obtain ⟨-, hbase, hi⟩ := forall_parts_index.mp hparts
    obtain ⟨element, helement, hw⟩ := Option.bind_eq_some_iff.mp hw
    obtain ⟨size, hsize, hw⟩ := Option.bind_eq_some_iff.mp hw
    obtain rfl := Option.some.inj hw
    refine ⟨base.isWellFormed_of_asType? h.2.1 hbase helement, ?_⟩
    have hwf := h.2.2
    cases i with
    | int n _ =>
      obtain rfl := Option.some.inj hsize
      trivial
    | ident name _ _ =>
      obtain rfl := Option.some.inj hsize
      have hname := List.forall_mem_singleton.mp hi
      exact hwf.resolve_right fun hbuiltin => hname hbuiltin.isBuiltinName_eq_true
    | _ => cases hsize
  | .int .., _, _, _, hw | .real .., _, _, _, hw | .byte .., _, _, _, hw | .field .., _, _, _, hw | .call .., _, _, _, hw
  | .composite .., _, _, _, hw | .addrOf .., _, _, _, hw | .typeArg .., _, _, _, hw | .foreign _, _, _, _, hw => nomatch hw

/-- The type that a well-formed argument spells is well formed and has the text of the argument. -/
theorem IsSpelling.isWellFormed {e : Expr} {w : TypeExpr} (h : e.IsSpelling w) (he : e.IsWellFormed ∨ e.IsTypeArgument)
    (hnames : ∀ y ∈ e.parts, ¬y.IsBuiltinName) : w.IsWellFormed ∧ w.source = e.source := by
  obtain ⟨info, rfl⟩ | h := h
  · obtain he | he := he
    · exact he.elim
    · exact ⟨he.1, rfl⟩
  · refine ⟨?_, e.asType?_source h⟩
    obtain he | he := he
    · exact e.isWellFormed_of_asType? he hnames h
    · cases e with
      | typeArg _ _ => cases h
      | _ => exact he.elim

/-- An expression that is no type among arguments spells what it is read as. -/
theorem isSpelling_iff_asType? {e : Expr} {w : TypeExpr} (he : Grammar.isTypeArg e = false) : e.IsSpelling w ↔ e.asType? = some w := by
  refine or_iff_right ?_
  rintro ⟨info, rfl⟩
  cases he

/-- A well-formed argument without names of builtins spells a type exactly if its text declares a variable behind a name, and then
the variable has this type. -/
theorem isSpelling_iff_ofSource {e : Expr} (he : e.IsWellFormed ∨ e.IsTypeArgument) (hnames : ∀ y ∈ e.parts, ¬y.IsBuiltinName)
    {x : String} (hx : IsName x) (file : Option String) :
    ((∃ w, e.IsSpelling w) ↔ ∃ q, Program.ofSource ("var " ++ x ++ " " ++ e.source) file = .ok q)
      ∧ ∀ w, e.IsSpelling w → ∃ (q : Program) (v : VarDecl), Program.ofSource ("var " ++ x ++ " " ++ e.source) file = .ok q
        ∧ q.decls = [.var v] ∧ v.name = x ∧ v.type.unplaced = w.unplaced := by
  have hdeclared (w : TypeExpr) (hw : e.IsSpelling w) : ∃ (q : Program) (v : VarDecl),
      Program.ofSource ("var " ++ x ++ " " ++ e.source) file = .ok q ∧ q.decls = [.var v] ∧ v.name = x
        ∧ v.type.unplaced = w.unplaced := by
    obtain ⟨hwf, hsource⟩ := hw.isWellFormed he hnames
    rw [← hsource]
    exact TypeExpr.exists_ofSource (w.prints hwf [] Lexeme.ends_nil) hx file
  refine ⟨⟨?_, ?_⟩, hdeclared⟩
  · rintro ⟨w, hw⟩
    obtain ⟨q, -, hq, -⟩ := hdeclared w hw
    exact ⟨q, hq⟩
  · rintro ⟨q, hq⟩
    have hprints := printsArguments [e] ⟨he, trivial⟩ e List.mem_cons_self [] Lexeme.ends_nil
    obtain ⟨w, -, hw, -⟩ := exists_isSpelling hprints hx hq
    exact ⟨w, hw⟩

end Expr

end FlatScope
