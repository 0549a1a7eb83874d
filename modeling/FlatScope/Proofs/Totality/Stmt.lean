/-
  Building statements. Here faults arise: a target that is no place, and an expression that stands alone and is no call. The
  first of them ends the building, and it is the fault that reading the derivation has.
-/
import FlatScope.Proofs.Totality.Phrase

namespace FlatScope.Grammar

open Build

/-! ## Statements -/

section Statements

variable {span braces : Span} {tree : ParseTree} {trees : List ParseTree} {inner : List Part} {s : Stmt} {ss : List Stmt}
  {c : Expr} {fault? others? : Option SourceError}

attribute [local simp] buildStmt buildStmts buildIf

theorem buildStmts_append (ts us : List ParseTree) :
    buildStmts (ts ++ us) = do
      let as ← buildStmts ts
      let bs ← buildStmts us
      return as ++ bs := by
  induction ts with
  | nil => simp [buildStmts]
  | cons t ts ih => simp [buildStmts, ih]

theorem buildStmts_single (h : buildStmt tree = outcome fault? s) : buildStmts [tree] = outcome fault? [s] := by
  simp only [buildStmts, h]
  cases fault? <;> rfl

theorem buildStmts_snoc (hs : buildStmts trees = outcome fault? ss) (h : buildStmt tree = outcome others? s) :
    buildStmts (trees ++ [tree]) = outcome (fault? <|> others?) (ss ++ [s]) := by
  rw [buildStmts_append, hs, buildStmts_single h]
  cases fault? <;> cases others? <;> rfl

theorem buildStmt_block (h : buildStmts (Part.trees inner) = outcome fault? ss) :
    buildStmt (.ofParts .block span inner) = outcome fault? (.block ss span) := by
  simp only [ParseTree.ofParts, buildStmt, h]
  cases fault? <;> rfl

theorem buildStmt_var {d : VarDecl} (hl : tree.label = .varDecl) (h : buildVar tree = .ok d) :
    buildStmt tree = .ok (.var d) := by
  obtain ⟨label, span, front, trees, others⟩ := tree
  obtain rfl : label = .varDecl := hl
  simp only [buildStmt, h]
  rfl

theorem buildStmt_assign {front : List Token} {second : ParseTree} {target value : Expr} {others : List Token}
    (ht : buildExpr tree = .ok target) (hv : buildExpr second = .ok value) :
    buildStmt (.node .assignStmt span front [tree, second] others)
      = outcome (Expr.targetFault? target) (.assign target value span) := by
  simp only [buildStmt, ht, hv, ok_bind]
  exact check_bind

theorem buildStmt_call {front : List Token} {others : List Token} (h : buildExpr tree = .ok c) :
    buildStmt (.node .callStmt span front [tree] others) = outcome (Expr.bareFault? c) (.call c span) := by
  simp only [buildStmt, h, ok_bind]
  exact check_bind

theorem buildStmt_while {parts : List Part} (hp : Part.trees parts = [tree, .ofParts .block braces inner])
    (hc : buildExpr tree = .ok c) (h : buildStmts (Part.trees inner) = outcome fault? ss) :
    buildStmt (.ofParts .whileStmt span parts) = outcome fault? (.whileDo c ss (.around braces) span) := by
  rw [ParseTree.ofParts, hp]
  simp only [ParseTree.ofParts, buildStmt, hc, h]
  cases fault? <;> rfl

theorem buildIf_only (hc : buildExpr tree = .ok c) (h : buildStmts (Part.trees inner) = outcome fault? ss) :
    buildIf span [tree, .ofParts .block braces inner]
      = outcome fault? (.ifThen c ss (.around braces) none span) := by
  simp only [ParseTree.ofParts, buildIf, hc, h, ok_bind]
  cases fault? <;> rfl

theorem buildIf_block {last : Span} {ends : List Part} {rest : List Stmt} (hc : buildExpr tree = .ok c)
    (h : buildStmts (Part.trees inner) = outcome fault? ss) (he : buildStmts (Part.trees ends) = outcome others? rest) :
    buildIf span [tree, .ofParts .block braces inner, .ofParts .block last ends]
      = outcome (fault? <|> others?) (.ifThen c ss (.around braces) (some (.block rest last)) span) := by
  simp only [ParseTree.ofParts, buildIf, hc, h, he, ok_bind]
  cases fault? <;> cases others? <;> rfl

theorem buildIf_if {last : Span} {ends : List Part} (hc : buildExpr tree = .ok c)
    (h : buildStmts (Part.trees inner) = outcome fault? ss) (he : buildIf last (Part.trees ends) = outcome others? s) :
    buildIf span [tree, .ofParts .block braces inner, .ofParts .ifStmt last ends]
      = outcome (fault? <|> others?) (.ifThen c ss (.around braces) (some s) span) := by
  simp only [ParseTree.ofParts, buildIf, hc, h, he, ok_bind]
  cases fault? <;> cases others? <;> rfl

end Statements

section Guards

variable {a k : Kind} {x : Sym} {word : Derivation (.t a)} {c : Derivation (.n .expr)} {b : Derivation (.n .block)}
  {sep : Derivation (.t k)} {d : Derivation x} {tree block last : ParseTree} {span : Span}

/-- A condition with its block, behind a word. -/
theorem parts_then (hw : word.parts = [.token word.value]) (hc : c.parts = [.tree tree]) (hb : b.parts = [.tree block]) :
    Forest.parts (.cons word (.cons c (.cons b .nil))) = [.token word.value, .tree tree, .tree block] := by
  simp [Forest.parts, hw, hc, hb]

theorem span_then (c : Derivation (.n .expr)) (hw : word.IsBuilt) (hb : span = b.span) :
    Span.join word.value.span span = Forest.span (.cons word (.cons c (.cons b .nil))) := by
  rw [← hw.span_eq, hb]
  rfl

theorem fault?_then (fw : word.fault? = none) (fc : c.fault? = none) :
    [word.fault?, c.fault?, b.fault?].findSome? id = b.fault? := by
  rw [fw, fc]
  cases b.fault? <;> rfl

/-- What is done otherwise stands behind another word. -/
theorem parts_else (hw : word.parts = [.token word.value]) (hc : c.parts = [.tree tree]) (hb : b.parts = [.tree block])
    (hsep : sep.parts = [.token sep.value]) (hd : d.parts = [.tree last]) :
    Forest.parts (.cons word (.cons c (.cons b (.cons sep (.cons d .nil)))))
      = [.token word.value, .tree tree, .tree block, .token sep.value, .tree last] := by
  simp [Forest.parts, hw, hc, hb, hsep, hd]

theorem span_else (c : Derivation (.n .expr)) (b : Derivation (.n .block)) (sep : Derivation (.t k)) (hw : word.IsBuilt)
    (hd : span = d.span) :
    Span.join word.value.span span = Forest.span (.cons word (.cons c (.cons b (.cons sep (.cons d .nil))))) := by
  rw [← hw.span_eq, hd]
  rfl

theorem fault?_else (fw : word.fault? = none) (fc : c.fault? = none) (fsep : sep.fault? = none) :
    [word.fault?, c.fault?, b.fault?, sep.fault?, d.fault?].findSome? id = (b.fault? <|> d.fault?) := by
  rw [fw, fc, fsep]
  cases b.fault? <;> cases d.fault? <;> rfl

end Guards

/-- The phrases of statements. -/
theorem Production.isBuilt_stmt (p : Production) (f : Forest p.rhs) (h : f.All fun _ d => d.IsBuilt)
    (hpure : f.All fun s d => s.isPure = true → d.fault? = none)
    (hp : p.lhs ∈ Nonterminal.ofStmts) : (Derivation.node p f).IsBuilt := by
  cases p
  case blockStmts =>
    obtain _ | ⟨o, _ | ⟨ss, _ | ⟨c, _ | _⟩⟩⟩ := f
    obtain ⟨ho, ⟨ts, hts, hb⟩, hc, -⟩ := h
    obtain ⟨fo, -, fc, -⟩ := hpure
    have hparts : Forest.parts (.cons o (.cons ss (.cons c .nil))) = ts.map .tree := by
      simp [Forest.parts, ho.parts_eq, hts, hc.parts_eq]
    have hspan : Span.join o.value.span c.value.span = Forest.span (.cons o (.cons ss (.cons c .nil))) := by
      rw [← ho.span_eq, ← hc.span_eq]
      rfl
    have hfault : [o.fault?, ss.fault?, c.fault?].findSome? id = ss.fault? := by
      rw [fo rfl, fc rfl]
      cases ss.fault? <;> rfl
    refine ⟨hspan, _, parts_node hspan hparts rfl, ?_⟩
    rw [Part.trees_map]
    exact outcome_congr hb hfault
  case blockEmpty =>
    obtain _ | ⟨o, _ | ⟨c, _ | _⟩⟩ := f
    obtain ⟨ho, hc, -⟩ := h
    obtain ⟨fo, fc, -⟩ := hpure
    have hparts : Forest.parts (.cons o (.cons c .nil)) = [] := by
      simp [Forest.parts, ho.parts_eq, hc.parts_eq]
    have hspan : Span.join o.value.span c.value.span = Forest.span (.cons o (.cons c .nil)) := by
      rw [← ho.span_eq, ← hc.span_eq]
      rfl
    have hfault : [o.fault?, c.fault?].findSome? id = none := by
      rw [fo rfl, fc rfl]
      rfl
    exact ⟨hspan, _, parts_node hspan hparts rfl, outcome_of_ok rfl hfault⟩
  case stmtsOneSemi =>
    obtain _ | ⟨s, _ | ⟨semi, _ | _⟩⟩ := f
    obtain ⟨⟨t, ht, hb⟩, hsemi, -⟩ := h
    obtain ⟨-, fsemi, -⟩ := hpure
    have hparts : Forest.parts (.cons s (.cons semi .nil)) = [.tree t] := by
      simp [Forest.parts, ht, hsemi.parts_eq]
    have hfault : [s.fault?, semi.fault?].findSome? id = s.fault? := by
      rw [fsemi rfl]
      cases s.fault? <;> rfl
    exact ⟨[t], hparts, outcome_congr (buildStmts_single hb) hfault⟩
  case stmtsOne =>
    obtain _ | ⟨s, _ | _⟩ := f
    obtain ⟨⟨t, ht, hb⟩, -⟩ := h
    exact ⟨[t], ht, outcome_congr (buildStmts_single hb) findSome?_single⟩
  case stmtsMoreSemi =>
    obtain _ | ⟨ss, _ | ⟨s, _ | ⟨semi, _ | _⟩⟩⟩ := f
    obtain ⟨⟨ts, hts, hbs⟩, ⟨t, ht, hb⟩, hsemi, -⟩ := h
    obtain ⟨-, -, fsemi, -⟩ := hpure
    have hparts : Forest.parts (.cons ss (.cons s (.cons semi .nil))) = (ts ++ [t]).map .tree := by
      simp [Forest.parts, hts, ht, hsemi.parts_eq]
    have hfault : [ss.fault?, s.fault?, semi.fault?].findSome? id = (ss.fault? <|> s.fault?) := by
      rw [fsemi rfl]
      cases ss.fault? <;> cases s.fault? <;> rfl
    exact ⟨_, hparts, outcome_congr (buildStmts_snoc hbs hb) hfault⟩
  case stmtsMore =>
    obtain _ | ⟨ss, _ | ⟨s, _ | _⟩⟩ := f
    obtain ⟨⟨ts, hts, hbs⟩, ⟨t, ht, hb⟩, -⟩ := h
    have hparts : Forest.parts (.cons ss (.cons s .nil)) = (ts ++ [t]).map .tree := by
      simp [Forest.parts, hts, ht]
    exact ⟨_, hparts, outcome_congr (buildStmts_snoc hbs hb) findSome?_pair⟩
  case stmtVar =>
    obtain _ | ⟨d, _ | _⟩ := f
    obtain ⟨⟨-, t, ht, hl, hb⟩, -⟩ := h
    obtain ⟨fd, -⟩ := hpure
    exact ⟨t, ht, outcome_of_ok (buildStmt_var hl hb) (findSome?_single.trans (fd rfl))⟩
  case stmtAssign | stmtCall | stmtWhile =>
    obtain _ | ⟨s, _ | _⟩ := f
    obtain ⟨⟨t, ht, hb⟩, -⟩ := h
    exact ⟨t, ht, outcome_congr hb findSome?_single⟩
  case stmtBreak | stmtContinue | stmtLabel | stmtGoto =>
    obtain _ | ⟨s, _ | _⟩ := f
    obtain ⟨⟨t, ht, hb⟩, -⟩ := h
    obtain ⟨fs, -⟩ := hpure
    exact ⟨t, ht, outcome_of_ok hb (findSome?_single.trans (fs rfl))⟩
  case stmtIf =>
    obtain _ | ⟨s, _ | _⟩ := f
    obtain ⟨⟨-, inner, hi, hb⟩, -⟩ := h
    exact ⟨_, hi, outcome_congr hb findSome?_single⟩
  case stmtBlock =>
    obtain _ | ⟨b, _ | _⟩ := f
    obtain ⟨⟨-, inner, hi, hb⟩, -⟩ := h
    exact ⟨_, hi, outcome_congr (buildStmt_block hb) findSome?_single⟩
  case assignTo =>
    obtain _ | ⟨target, _ | ⟨sign, _ | ⟨value, _ | _⟩⟩⟩ := f
    obtain ⟨⟨ht, tree, htree, -, hb⟩, hsign, ⟨hv, second, hsecond, -, hbv⟩, -⟩ := h
    obtain ⟨ft, fsign, fv, -⟩ := hpure
    have hparts : Forest.parts (.cons target (.cons sign (.cons value .nil))) = [.tree tree, .tree second] := by
      simp [Forest.parts, htree, hsign.parts_eq, hsecond]
    have hspan : Span.join target.value.span value.value.span
        = Forest.span (.cons target (.cons sign (.cons value .nil))) := by
      rw [ht, hv]
      rfl
    have hfault : (Derivation.node .assignTo (.cons target (.cons sign (.cons value .nil)))).fault?
        = Expr.targetFault? target.value := by
      show ([target.fault?].findSome? id <|> Expr.targetFault? target.value <|> [sign.fault?, value.fault?].findSome? id)
        = _
      rw [ft rfl, fsign rfl, fv rfl]
      cases Expr.targetFault? target.value <;> rfl
    exact ⟨_, parts_node hspan hparts rfl, outcome_congr (buildStmt_assign hb hbv) hfault⟩
  case callChain =>
    obtain _ | ⟨e, _ | _⟩ := f
    obtain ⟨⟨he, tree, htree, -, hb⟩, -⟩ := h
    obtain ⟨fe, -⟩ := hpure
    have hfault : (Derivation.node .callChain (.cons e .nil)).fault? = Expr.bareFault? e.value := by
      show ([e.fault?].findSome? id <|> Expr.bareFault? e.value) = _
      rw [fe rfl]
      cases Expr.bareFault? e.value <;> rfl
    exact ⟨_, parts_node he htree rfl, outcome_congr (buildStmt_call hb) hfault⟩
  case ifElseIf =>
    obtain _ | ⟨word, _ | ⟨c, _ | ⟨b, _ | ⟨sep, _ | ⟨s, _ | _⟩⟩⟩⟩⟩ := f
    obtain ⟨hw, ⟨-, tree, htree, -, hc⟩, ⟨-, inner, hi, hb⟩, hsep, ⟨hs, ends, he, hbs⟩, -⟩ := h
    obtain ⟨fw, fc, -, fsep, -⟩ := hpure
    have hparts := parts_else hw.parts_eq htree hi hsep.parts_eq he
    have hspan := span_else c b sep hw hs
    have hfault := fault?_else (b := b) (d := s) (fw rfl) (fc rfl) (fsep rfl)
    exact ⟨hspan, _, parts_node hspan hparts rfl, outcome_congr (buildIf_if hc hb hbs) hfault⟩
  case ifElse =>
    obtain _ | ⟨word, _ | ⟨c, _ | ⟨b, _ | ⟨sep, _ | ⟨s, _ | _⟩⟩⟩⟩⟩ := f
    obtain ⟨hw, ⟨-, tree, htree, -, hc⟩, ⟨-, inner, hi, hb⟩, hsep, ⟨hs, ends, he, hbs⟩, -⟩ := h
    obtain ⟨fw, fc, -, fsep, -⟩ := hpure
    have hparts := parts_else hw.parts_eq htree hi hsep.parts_eq he
    have hspan := span_else c b sep hw hs
    have hfault := fault?_else (b := b) (d := s) (fw rfl) (fc rfl) (fsep rfl)
    exact ⟨hspan, _, parts_node hspan hparts rfl, outcome_congr (buildIf_block hc hb hbs) hfault⟩
  case ifOnly =>
    obtain _ | ⟨word, _ | ⟨c, _ | ⟨b, _ | _⟩⟩⟩ := f
    obtain ⟨hw, ⟨-, tree, htree, -, hc⟩, ⟨hs, inner, hi, hb⟩, -⟩ := h
    obtain ⟨fw, fc, -⟩ := hpure
    have hparts := parts_then hw.parts_eq htree hi
    have hspan := span_then c hw hs
    have hfault := fault?_then (b := b) (fw rfl) (fc rfl)
    exact ⟨hspan, _, parts_node hspan hparts rfl, outcome_congr (buildIf_only hc hb) hfault⟩
  case whileLoop =>
    obtain _ | ⟨word, _ | ⟨c, _ | ⟨b, _ | _⟩⟩⟩ := f
    obtain ⟨hw, ⟨-, tree, htree, -, hc⟩, ⟨hs, inner, hi, hb⟩, -⟩ := h
    obtain ⟨fw, fc, -⟩ := hpure
    have hparts := parts_then hw.parts_eq htree hi
    have hspan := span_then c hw hs
    have hfault := fault?_then (b := b) (fw rfl) (fc rfl)
    exact ⟨_, parts_node hspan hparts rfl, outcome_congr (buildStmt_while rfl hc hb) hfault⟩
  case breakWord | continueWord =>
    obtain _ | ⟨word, _ | _⟩ := f
    obtain ⟨hw, -⟩ := h
    exact ⟨_, parts_node hw.span_eq.symm hw.parts_eq rfl, rfl⟩
  case labelNamed =>
    obtain _ | ⟨word, _ | ⟨name, _ | _⟩⟩ := f
    obtain ⟨hw, hn, -⟩ := h
    have hparts : Forest.parts (.cons word (.cons name .nil)) = [.token word.value, .token name.value] := by
      simp [Forest.parts, hw.parts_eq, hn.parts_eq]
    have hspan : Span.join word.value.span name.value.span = Forest.span (.cons word (.cons name .nil)) := by
      rw [← hw.span_eq, ← hn.span_eq]
      rfl
    refine ⟨_, parts_node hspan hparts rfl, ?_⟩
    simp only [ParseTree.ofParts, Part.front, buildStmt, firstName_second (hw.ne_name rfl) hn.kind_eq]
    rfl
  case gotoLabel =>
    obtain _ | ⟨word, _ | ⟨word', _ | ⟨name, _ | _⟩⟩⟩ := f
    obtain ⟨hw, hw', hn, -⟩ := h
    have hparts : Forest.parts (.cons word (.cons word' (.cons name .nil)))
        = [.token word.value, .token word'.value, .token name.value] := by
      simp [Forest.parts, hw.parts_eq, hw'.parts_eq, hn.parts_eq]
    have hspan : Span.join word.value.span name.value.span
        = Forest.span (.cons word (.cons word' (.cons name .nil))) := by
      rw [← hw.span_eq, ← hn.span_eq]
      rfl
    have hname : firstName [word.value, word'.value, name.value] [] = .ok name.value := by
      simp [firstName, hw.kind_eq, hw'.kind_eq, hn.kind_eq]
    refine ⟨_, parts_node hspan hparts rfl, ?_⟩
    simp only [ParseTree.ofParts, Part.front, Part.others, Part.tokens, buildStmt, hname]
    rfl
  all_goals exact absurd hp (by decide)

end FlatScope.Grammar
