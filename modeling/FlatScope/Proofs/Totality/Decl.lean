/-
  Building types and declarations, and with them whole units. A type is a word with suffixes behind it; what a function type has
  behind its result is put together in the same way whether it stands in a declaration or for an argument (`Forest.IsParams`).
  What is built of the parse tree of a unit is what the unit is read as, unless it has a fault (`buildUnit_parts`). So the builder
  does not give up.
-/
import FlatScope.Proofs.Totality.Expr
import FlatScope.Proofs.Totality.Phrase
import FlatScope.Proofs.Totality.Stmt

namespace FlatScope.Grammar

open Build

theorem buildTypes_append (ts us : List ParseTree) :
    buildTypes (ts ++ us) = do
      let as ← buildTypes ts
      let bs ← buildTypes us
      return as ++ bs := by
  induction ts with
  | nil => simp [buildTypes]
  | cons t ts ih => simp [buildTypes, ih]

section Types

variable {span : Span} {front others : List Token} {tree size : ParseTree} {trees : List ParseTree} {t : TypeExpr}
  {ts : List TypeExpr}

theorem buildType_pointer (h : buildType tree = .ok t) :
    buildType (.node .pointerType span front (tree :: trees) others) = .ok (.pointer t span) := by
  simp only [buildType, h]
  rfl

theorem buildType_array {n : ArraySize} (h : buildType tree = .ok t) (hn : buildSize size = .ok n) :
    buildType (.node .arrayType span front [tree, size] others) = .ok (.array t n span) := by
  simp only [buildType, h, hn]
  rfl

theorem buildTypes_nil : buildTypes [] = .ok [] := rfl

theorem buildTypes_cons (h : buildType tree = .ok t) (hs : buildTypes trees = .ok ts) :
    buildTypes (tree :: trees) = .ok (t :: ts) := by
  simp only [buildTypes, h, hs]
  rfl

theorem buildTypes_snoc (hs : buildTypes trees = .ok ts) (h : buildType tree = .ok t) :
    buildTypes (trees ++ [tree]) = .ok (ts ++ [t]) := by
  rw [buildTypes_append, hs, buildTypes_cons h buildTypes_nil]
  rfl

theorem buildType_function {first rest : List Part} (hf : first = [.tree tree]) (h : buildType tree = .ok t)
    (hs : buildTypes (Part.trees rest) = .ok ts) :
    buildType (.ofParts .functionType span (first ++ rest)) = .ok (.func t ts span) := by
  subst hf
  simp only [ParseTree.ofParts, List.singleton_append, Part.trees, buildType, h, hs]
  rfl

end Types

section Suffixes

variable {s : Sym} {t : Derivation s} {star : Derivation (.t .star)} {o : Derivation (.t .bracket)}
  {n : Derivation (.n .arraySize)} {c : Derivation (.t .closeBracket)} {tree size : ParseTree} {span : Span}

theorem parts_pointer (ht : t.parts = [.tree tree]) (hstar : star.IsBuilt) :
    Forest.parts (.cons t (.cons star .nil)) = [.tree tree, .token star.value] := by
  simp [Forest.parts, ht, hstar.parts_eq]

theorem span_pointer (ht : span = t.span) (hstar : star.IsBuilt) :
    Span.join span star.value.span = Forest.span (.cons t (.cons star .nil)) := by
  rw [ht, ← hstar.span_eq]
  rfl

theorem parts_array (ht : t.parts = [.tree tree]) (ho : o.IsBuilt) (hn : n.parts = [.tree size]) (hc : c.IsBuilt) :
    Forest.parts (.cons t (.cons o (.cons n (.cons c .nil)))) = [.tree tree, .token o.value, .tree size] := by
  simp [Forest.parts, ht, ho.parts_eq, hn, hc.parts_eq]

theorem span_array (ht : span = t.span) (hc : c.IsBuilt) :
    Span.join span c.value.span = Forest.span (.cons t (.cons o (.cons n (.cons c .nil)))) := by
  rw [ht, ← hc.span_eq]
  rfl

end Suffixes

/-- What a function type has behind its result: its parameters, and a star at its end. -/
structure Forest.IsParams {ss : List Sym} (f : Forest ss) (ts : List TypeExpr) (star : Token) : Prop where
  built : buildTypes (Part.trees f.parts) = .ok ts
  stop : star.span.stop = f.span.stop

section Params

variable {o : Derivation (.t .paren)} {t : Derivation (.n .type)} {ts : Derivation (.n .types)}
  {c : Derivation (.t .closeParen)} {star : Derivation (.t .star)}

theorem isParams_many (h : (Forest.cons o (.cons t (.cons ts (.cons c (.cons star .nil))))).All fun _ d => d.IsBuilt) :
    (Forest.cons o (.cons t (.cons ts (.cons c (.cons star .nil))))).IsParams (t.value :: ts.value) star.value := by
  obtain ⟨ho, ⟨_, tree, htree, ht⟩, ⟨trees, htrees, hts⟩, hc, hstar, -⟩ := h
  refine ⟨?_, (congrArg Span.stop hstar.span_eq).symm.trans rfl⟩
  simp [Forest.parts, ho.parts_eq, htree, htrees, hc.parts_eq, hstar.parts_eq, Part.trees_map_append, buildTypes_cons ht hts]

theorem isParams_one (h : (Forest.cons o (.cons t (.cons c (.cons star .nil)))).All fun _ d => d.IsBuilt) :
    (Forest.cons o (.cons t (.cons c (.cons star .nil)))).IsParams [t.value] star.value := by
  obtain ⟨ho, ⟨_, tree, htree, ht⟩, hc, hstar, -⟩ := h
  refine ⟨?_, (congrArg Span.stop hstar.span_eq).symm.trans rfl⟩
  simp [Forest.parts, ho.parts_eq, htree, hc.parts_eq, hstar.parts_eq, buildTypes_cons ht buildTypes_nil]

theorem isParams_none (h : (Forest.cons o (.cons c (.cons star .nil))).All fun _ d => d.IsBuilt) :
    (Forest.cons o (.cons c (.cons star .nil))).IsParams [] star.value := by
  obtain ⟨ho, hc, hstar, -⟩ := h
  refine ⟨?_, (congrArg Span.stop hstar.span_eq).symm.trans rfl⟩
  simp [Forest.parts, ho.parts_eq, hc.parts_eq, hstar.parts_eq, buildTypes_nil]

end Params

/-- The phrases of types. -/
theorem Production.isBuilt_type (p : Production) (f : Forest p.rhs) (h : f.All fun _ d => d.IsBuilt)
    (hp : p.lhs ∈ Nonterminal.ofTypes) :
    (Derivation.node p f).IsBuilt := by
  cases p
  case typeBase | typeArgPrimitive =>
    obtain _ | ⟨t, _ | _⟩ := f
    obtain ⟨ht, -⟩ := h
    exact ht
  case basePrimitive =>
    obtain _ | ⟨t, _ | _⟩ := f
    obtain ⟨⟨hspan, tree, htree, -, -, ht⟩, -⟩ := h
    exact ⟨hspan, tree, htree, ht⟩
  case baseNamed =>
    obtain _ | ⟨word, _ | _⟩ := f
    obtain ⟨hw, -⟩ := h
    exact ⟨hw.span_eq.symm, _, parts_node hw.span_eq.symm hw.parts_eq rfl, rfl⟩
  case primitiveInt | primitiveFloat | primitiveByte | primitiveVoid =>
    obtain _ | ⟨word, _ | _⟩ := f
    obtain ⟨hw, -⟩ := h
    exact ⟨hw.span_eq.symm, _, parts_node hw.span_eq.symm hw.parts_eq rfl, hw.span_eq.symm, rfl, rfl⟩
  case sizeInteger =>
    obtain _ | ⟨word, _ | _⟩ := f
    obtain ⟨hw, -⟩ := h
    refine ⟨_, parts_node hw.span_eq.symm hw.parts_eq rfl, ?_⟩
    show (if word.value.kind = .integer then _ else _) = _
    rw [if_pos hw.kind_eq, literal_readInt hw.spelled hw.kind_eq]
    rfl
  case sizeName =>
    obtain _ | ⟨word, _ | _⟩ := f
    obtain ⟨hw, -⟩ := h
    refine ⟨_, parts_node hw.span_eq.symm hw.parts_eq rfl, ?_⟩
    exact if_neg (by rw [hw.kind_eq]; decide)
  case typePointer =>
    obtain _ | ⟨t, _ | ⟨star, _ | _⟩⟩ := f
    obtain ⟨⟨ht, tree, htree, hb⟩, hstar, -⟩ := h
    have hspan := span_pointer ht hstar
    exact ⟨hspan, _, parts_node hspan (parts_pointer htree hstar) rfl, buildType_pointer hb⟩
  case typeArgPointer =>
    obtain _ | ⟨t, _ | ⟨star, _ | _⟩⟩ := f
    obtain ⟨⟨ht, tree, htree, -, -, hb⟩, hstar, -⟩ := h
    have hspan := span_pointer ht hstar
    exact ⟨hspan, _, parts_node hspan (parts_pointer htree hstar) rfl, hspan, rfl, buildType_pointer hb⟩
  case typeArgNamedPointer =>
    obtain _ | ⟨name, _ | ⟨star, _ | _⟩⟩ := f
    obtain ⟨hname, hstar, -⟩ := h
    have hparts : Forest.parts (.cons name (.cons star .nil)) = [.token name.value, .token star.value] := by
      simp [Forest.parts, hname.parts_eq, hstar.parts_eq]
    have hspan : Span.join name.value.span star.value.span = .join name.span star.span := by
      rw [hname.span_eq, hstar.span_eq]
    refine ⟨hspan, _, parts_node hspan hparts rfl, hspan, rfl, ?_⟩
    simp [ParseTree.ofParts, buildType, firstName, hname.kind_eq]
    rfl
  case typeArray =>
    obtain _ | ⟨t, _ | ⟨o, _ | ⟨n, _ | ⟨c, _ | _⟩⟩⟩⟩ := f
    obtain ⟨⟨ht, tree, htree, hb⟩, ho, ⟨size, hsize, hn⟩, hc, -⟩ := h
    have hspan := span_array (o := o) (n := n) ht hc
    exact ⟨hspan, _, parts_node hspan (parts_array htree ho hsize hc) rfl, buildType_array hb hn⟩
  case typeArgArray =>
    obtain _ | ⟨t, _ | ⟨o, _ | ⟨n, _ | ⟨c, _ | _⟩⟩⟩⟩ := f
    obtain ⟨⟨ht, tree, htree, -, -, hb⟩, ho, ⟨size, hsize, hn⟩, hc, -⟩ := h
    have hspan := span_array (o := o) (n := n) ht hc
    exact ⟨hspan, _, parts_node hspan (parts_array htree ho hsize hc) rfl, hspan, rfl, buildType_array hb hn⟩
  case typeFunMany =>
    obtain _ | ⟨r, _ | ⟨o, _ | ⟨t, _ | ⟨ts, _ | ⟨c, _ | ⟨star, _ | _⟩⟩⟩⟩⟩⟩ := f
    obtain ⟨⟨hr, tree, htree, hb⟩, hrest⟩ := h
    have hparams := isParams_many hrest
    have hspan := join_congr hr hparams.stop
    exact ⟨hspan, _, parts_node hspan rfl rfl, buildType_function htree hb hparams.built⟩
  case typeFunOne =>
    obtain _ | ⟨r, _ | ⟨o, _ | ⟨t, _ | ⟨c, _ | ⟨star, _ | _⟩⟩⟩⟩⟩ := f
    obtain ⟨⟨hr, tree, htree, hb⟩, hrest⟩ := h
    have hparams := isParams_one hrest
    have hspan := join_congr hr hparams.stop
    exact ⟨hspan, _, parts_node hspan rfl rfl, buildType_function htree hb hparams.built⟩
  case typeFunNone =>
    obtain _ | ⟨r, _ | ⟨o, _ | ⟨c, _ | ⟨star, _ | _⟩⟩⟩⟩ := f
    obtain ⟨⟨hr, tree, htree, hb⟩, hrest⟩ := h
    have hparams := isParams_none hrest
    have hspan := join_congr hr hparams.stop
    exact ⟨hspan, _, parts_node hspan rfl rfl, buildType_function htree hb hparams.built⟩
  case typeArgFunMany =>
    obtain _ | ⟨r, _ | ⟨o, _ | ⟨t, _ | ⟨ts, _ | ⟨c, _ | ⟨star, _ | _⟩⟩⟩⟩⟩⟩ := f
    obtain ⟨⟨hr, tree, htree, -, -, hb⟩, hrest⟩ := h
    have hparams := isParams_many hrest
    have hspan := join_congr hr hparams.stop
    exact ⟨hspan, _, parts_node hspan rfl rfl, hspan, rfl, buildType_function htree hb hparams.built⟩
  case typeArgFunOne =>
    obtain _ | ⟨r, _ | ⟨o, _ | ⟨t, _ | ⟨c, _ | ⟨star, _ | _⟩⟩⟩⟩⟩ := f
    obtain ⟨⟨hr, tree, htree, -, -, hb⟩, hrest⟩ := h
    have hparams := isParams_one hrest
    have hspan := join_congr hr hparams.stop
    exact ⟨hspan, _, parts_node hspan rfl rfl, hspan, rfl, buildType_function htree hb hparams.built⟩
  case typeArgFunNone =>
    obtain _ | ⟨r, _ | ⟨o, _ | ⟨c, _ | ⟨star, _ | _⟩⟩⟩⟩ := f
    obtain ⟨⟨hr, tree, htree, -, -, hb⟩, hrest⟩ := h
    have hparams := isParams_none hrest
    have hspan := join_congr hr hparams.stop
    exact ⟨hspan, _, parts_node hspan rfl rfl, hspan, rfl, buildType_function htree hb hparams.built⟩
  case typesOne =>
    obtain _ | ⟨comma, _ | ⟨t, _ | _⟩⟩ := f
    obtain ⟨hcomma, ⟨-, tree, htree, ht⟩, -⟩ := h
    have hparts := parts_listOne hcomma htree
    exact ⟨[tree], hparts, buildTypes_cons ht buildTypes_nil⟩
  case typesMore =>
    obtain _ | ⟨ts, _ | ⟨comma, _ | ⟨t, _ | _⟩⟩⟩ := f
    obtain ⟨⟨trees, htrees, hts⟩, hcomma, ⟨-, tree, htree, ht⟩, -⟩ := h
    have hparts := parts_listMore htrees hcomma htree
    exact ⟨_, hparts, buildTypes_snoc hts ht⟩
  all_goals exact absurd hp (by decide)

open Build

/-! ## Declarations -/

theorem buildNamed_eq {α : Type} {make : String → TypeExpr → Span → α} {label : Label} {span : Span} {start name : Token}
    {tree : ParseTree} {t : TypeExpr} (hs : start.kind ≠ .name) (hn : name.kind = .name) (h : buildType tree = .ok t) :
    buildNamed make (.ofParts label span [.token start, .token name, .tree tree]) = .ok (make name.lexeme t span) := by
  simp only [ParseTree.ofParts, Part.front, Part.trees, Part.others, Part.tokens, buildNamed, firstName_second hs hn, h]
  rfl

section Declarations

variable {span braces : Span} {start name : Token} {tree : ParseTree} {trees : List ParseTree} {parts inner : List Part}
  {fault? others? : Option SourceError}

theorem mapM_snoc {α : Type} {build : ParseTree → Build α} {as : List α} {a : α} (hs : trees.mapM build = outcome fault? as)
    (h : build tree = outcome others? a) :
    (trees ++ [tree]).mapM build = outcome (fault? <|> others?) (as ++ [a]) := by
  rw [List.mapM_append, hs, List.mapM_cons, h]
  cases fault? <;> cases others? <;> rfl

theorem mapM_single {α : Type} {build : ParseTree → Build α} {a : α} (h : build tree = outcome fault? a) :
    [tree].mapM build = outcome fault? [a] := by
  rw [List.mapM_cons, h]
  cases fault? <;> rfl

theorem buildDecl_const {e : Expr} (hs : start.kind ≠ .name) (hn : name.kind = .name) (h : buildConstant tree = .ok e) :
    buildDecl (.ofParts .constDecl span [.token start, .token name, .tree tree]) = .ok (.const ⟨name.lexeme, e, span⟩) := by
  simp only [ParseTree.ofParts, Part.front, Part.trees, Part.others, Part.tokens, buildDecl, firstName_second hs hn, h]
  rfl

theorem buildDecl_var {d : VarDecl} (hl : tree.label = .varDecl) (h : buildVar tree = .ok d) :
    buildDecl tree = .ok (.var d) := by
  obtain ⟨label, span, front, trees, others⟩ := tree
  obtain rfl : label = .varDecl := hl
  simp only [buildDecl, h]
  rfl

theorem buildDecl_struct {ds : List VarDecl} (hs : start.kind ≠ .name) (hn : name.kind = .name)
    (h : (Part.trees parts).mapM buildVar = .ok ds) :
    buildDecl (.ofParts .structDecl span (.token start :: .token name :: parts))
      = .ok (.struct { name := name.lexeme, fields := ds.map .var, span }) := by
  simp only [ParseTree.ofParts, Part.front, Part.trees, Part.others, buildDecl, firstName_second hs hn, h]
  rfl

theorem buildFunc_eq {t : TypeExpr} {ps : List Param} {ss : List Stmt} (ht : buildType tree = .ok t)
    (hps : trees.mapM buildParam = .ok ps) (hb : buildStmts (Part.trees inner) = outcome fault? ss) :
    buildFunc name span (tree :: (trees ++ [.ofParts .block braces inner]))
      = outcome fault?
        { name := name.lexeme, result := t, params := ps.map .param, body := ss, braces := .around braces, span } := by
  simp only [buildFunc, ht, ok_bind, List.dropLast_concat, hps, List.getLastD_concat]
  simp only [ParseTree.ofParts, hb]
  cases fault? <;> rfl

theorem buildDecl_func {d : FuncDecl} (hs : start.kind ≠ .name) (hn : name.kind = .name)
    (h : buildFunc name span (Part.trees parts) = outcome fault? d) :
    buildDecl (.ofParts .funDecl span (.token start :: .token name :: parts)) = outcome fault? (.func d) := by
  simp only [ParseTree.ofParts, Part.front, Part.trees, Part.others, buildDecl, firstName_second hs hn, ok_bind, h]
  cases fault? <;> rfl

end Declarations

section Named

variable {a : Kind} {s : Sym} {start : Derivation (.t a)} {name : Derivation (.t .name)} {d : Derivation s}
  {tree : ParseTree} {span : Span}

theorem parts_named (hs : start.parts = [.token start.value]) (hn : name.IsBuilt) (hd : d.parts = [.tree tree]) :
    Forest.parts (.cons start (.cons name (.cons d .nil))) = [.token start.value, .token name.value, .tree tree] := by
  simp [Forest.parts, hs, hn.parts_eq, hd]

theorem span_named (name : Derivation (.t .name)) (hs : start.IsBuilt) (hd : span = d.span) :
    Span.join start.value.span span = Forest.span (.cons start (.cons name (.cons d .nil))) := by
  rw [← hs.span_eq, hd]
  rfl

end Named

/-- The phrases of declarations. -/
theorem Production.isBuilt_decl (p : Production) (f : Forest p.rhs) (h : f.All fun _ d => d.IsBuilt)
    (hpure : f.All fun s d => s.isPure = true → d.fault? = none)
    (hp : p.lhs ∈ Nonterminal.ofDecls) : (Derivation.node p f).IsBuilt := by
  cases p
  case unitEmpty =>
    obtain _ | _ := f
    exact rfl
  case unitDecls =>
    obtain _ | ⟨ds, _ | _⟩ := f
    obtain ⟨⟨ts, hts, hb⟩, -⟩ := h
    have hparts : (Derivation.node .unitDecls (.cons ds .nil)).parts = [.tree (.ofParts .start ds.span (ts.map .tree))] :=
      parts_node rfl hts rfl
    show buildUnit (Derivation.node .unitDecls (.cons ds .nil)).parts = _
    rw [hparts]
    simp only [ParseTree.ofParts, buildUnit, Part.trees_map]
    exact outcome_congr hb findSome?_single
  case declsOne =>
    obtain _ | ⟨d, _ | _⟩ := f
    obtain ⟨⟨t, ht, hb⟩, -⟩ := h
    exact ⟨[t], ht, outcome_congr (mapM_single hb) findSome?_single⟩
  case declsMore =>
    obtain _ | ⟨ds, _ | ⟨d, _ | _⟩⟩ := f
    obtain ⟨⟨ts, hts, hbs⟩, ⟨t, ht, hb⟩, -⟩ := h
    have hparts : Forest.parts (.cons ds (.cons d .nil)) = (ts ++ [t]).map .tree := by
      simp [Forest.parts, hts, ht]
    exact ⟨_, hparts, outcome_congr (mapM_snoc hbs hb) findSome?_pair⟩
  case declConst | declStruct =>
    obtain _ | ⟨d, _ | _⟩ := f
    obtain ⟨⟨t, ht, hb⟩, -⟩ := h
    obtain ⟨fd, -⟩ := hpure
    exact ⟨t, ht, outcome_of_ok hb (findSome?_single.trans (fd rfl))⟩
  case declVar =>
    obtain _ | ⟨d, _ | _⟩ := f
    obtain ⟨⟨-, t, ht, hl, hb⟩, -⟩ := h
    obtain ⟨fd, -⟩ := hpure
    exact ⟨t, ht, outcome_of_ok (buildDecl_var hl hb) (findSome?_single.trans (fd rfl))⟩
  case declFun =>
    obtain _ | ⟨d, _ | _⟩ := f
    obtain ⟨⟨t, ht, hb⟩, -⟩ := h
    exact ⟨t, ht, outcome_congr hb findSome?_single⟩
  case constLiteral =>
    obtain _ | ⟨start, _ | ⟨name, _ | ⟨e, _ | _⟩⟩⟩ := f
    obtain ⟨hs, hn, ⟨he, tree, htree, -, hb, -⟩, -⟩ := h
    have hparts := parts_named hs.parts_eq hn htree
    have hspan := span_named name hs he
    exact ⟨_, parts_node hspan hparts rfl, buildDecl_const (hs.ne_name rfl) hn.kind_eq hb⟩
  case constAlias =>
    obtain _ | ⟨start, _ | ⟨name, _ | ⟨e, _ | _⟩⟩⟩ := f
    obtain ⟨hs, hn, ⟨he, tree, htree, hb⟩, -⟩ := h
    have hparts := parts_named hs.parts_eq hn htree
    have hspan := span_named name hs he
    exact ⟨_, parts_node hspan hparts rfl, buildDecl_const (hs.ne_name rfl) hn.kind_eq hb⟩
  case varTyped =>
    obtain _ | ⟨start, _ | ⟨name, _ | ⟨t, _ | _⟩⟩⟩ := f
    obtain ⟨hs, hn, ⟨ht, tree, htree, hb⟩, -⟩ := h
    have hparts := parts_named hs.parts_eq hn htree
    have hspan := span_named name hs ht
    exact ⟨hspan, _, parts_node hspan hparts rfl, rfl, buildNamed_eq (hs.ne_name rfl) hn.kind_eq hb⟩
  case paramTyped =>
    obtain _ | ⟨start, _ | ⟨name, _ | ⟨t, _ | _⟩⟩⟩ := f
    obtain ⟨hs, hn, ⟨ht, tree, htree, hb⟩, -⟩ := h
    have hparts := parts_named hs.parts_eq hn htree
    have hspan := span_named name hs ht
    exact ⟨_, parts_node hspan hparts rfl, buildNamed_eq (hs.ne_name rfl) hn.kind_eq hb⟩
  case structMany =>
    obtain _ | ⟨start, _ | ⟨name, _ | ⟨o, _ | ⟨d, _ | ⟨ds, _ | ⟨c, _ | _⟩⟩⟩⟩⟩⟩ := f
    obtain ⟨hs, hn, ⟨-, -, ho⟩, ⟨-, t, ht, -, hb⟩, ⟨ts, hts, hbs⟩, hc, -⟩ := h
    have hparts : Forest.parts (.cons start (.cons name (.cons o (.cons d (.cons ds (.cons c .nil))))))
        = .token start.value :: .token name.value :: .token o.value :: (t :: ts).map .tree := by
      simp [Forest.parts, hs.parts_eq, hn.parts_eq, ho, ht, hts, hc.parts_eq]
    have hspan : Span.join start.value.span c.value.span
        = Forest.span (.cons start (.cons name (.cons o (.cons d (.cons ds (.cons c .nil)))))) := by
      rw [← hs.span_eq, ← hc.span_eq]
      rfl
    refine ⟨_, parts_node hspan hparts rfl, buildDecl_struct (hs.ne_name rfl) hn.kind_eq ?_⟩
    rw [Part.trees, Part.trees_map, List.mapM_cons, hb, hbs]
    rfl
  case structOne =>
    obtain _ | ⟨start, _ | ⟨name, _ | ⟨o, _ | ⟨d, _ | ⟨c, _ | _⟩⟩⟩⟩⟩ := f
    obtain ⟨hs, hn, ⟨-, -, ho⟩, ⟨-, t, ht, -, hb⟩, hc, -⟩ := h
    have hparts : Forest.parts (.cons start (.cons name (.cons o (.cons d (.cons c .nil)))))
        = [.token start.value, .token name.value, .token o.value, .tree t] := by
      simp [Forest.parts, hs.parts_eq, hn.parts_eq, ho, ht, hc.parts_eq]
    have hspan : Span.join start.value.span c.value.span
        = Forest.span (.cons start (.cons name (.cons o (.cons d (.cons c .nil))))) := by
      rw [← hs.span_eq, ← hc.span_eq]
      rfl
    have hb : buildVar t = outcome none d.value := hb
    exact ⟨_, parts_node hspan hparts rfl, buildDecl_struct (hs.ne_name rfl) hn.kind_eq (mapM_single hb)⟩
  case fieldsOne =>
    obtain _ | ⟨comma, _ | ⟨d, _ | _⟩⟩ := f
    obtain ⟨hcomma, ⟨-, t, ht, -, hb⟩, -⟩ := h
    have hparts := parts_listOne hcomma ht
    have hb : buildVar t = outcome none d.value := hb
    exact ⟨[t], hparts, mapM_single hb⟩
  case fieldsMore =>
    obtain _ | ⟨ds, _ | ⟨comma, _ | ⟨d, _ | _⟩⟩⟩ := f
    obtain ⟨⟨ts, hts, hbs⟩, hcomma, ⟨-, t, ht, -, hb⟩, -⟩ := h
    have hparts := parts_listMore hts hcomma ht
    have hbs : ts.mapM buildVar = outcome none ds.value := hbs
    have hb : buildVar t = outcome none d.value := hb
    exact ⟨_, hparts, mapM_snoc hbs hb⟩
  case paramsOne =>
    obtain _ | ⟨comma, _ | ⟨d, _ | _⟩⟩ := f
    obtain ⟨hcomma, ⟨t, ht, hb⟩, -⟩ := h
    have hparts := parts_listOne hcomma ht
    have hb : buildParam t = outcome none d.value := hb
    exact ⟨[t], hparts, mapM_single hb⟩
  case paramsMore =>
    obtain _ | ⟨ds, _ | ⟨comma, _ | ⟨d, _ | _⟩⟩⟩ := f
    obtain ⟨⟨ts, hts, hbs⟩, hcomma, ⟨t, ht, hb⟩, -⟩ := h
    have hparts := parts_listMore hts hcomma ht
    have hbs : ts.mapM buildParam = outcome none ds.value := hbs
    have hb : buildParam t = outcome none d.value := hb
    exact ⟨_, hparts, mapM_snoc hbs hb⟩
  case funMany =>
    obtain _ | ⟨start, _ | ⟨name, _ | ⟨t, _ | ⟨o, _ | ⟨p, _ | ⟨ps, _ | ⟨c, _ | ⟨b, _ | _⟩⟩⟩⟩⟩⟩⟩⟩ := f
    obtain ⟨hs, hn, ⟨-, tree, htree, ht⟩, ho, ⟨param, hparam, hp⟩, ⟨params, hparams, hps⟩, hc, ⟨hbraces, inner, hi, hb⟩, -⟩ := h
    obtain ⟨fs, fn, ft, fo, fp, fps, fc, -⟩ := hpure
    have hparts : Forest.parts (.cons start (.cons name (.cons t (.cons o (.cons p (.cons ps (.cons c (.cons b .nil))))))))
        = .token start.value :: .token name.value :: .tree tree :: .token o.value ::
          (param :: (params ++ [ParseTree.ofParts .block b.value.braces inner])).map .tree := by
      simp [Forest.parts, hs.parts_eq, hn.parts_eq, htree, ho.parts_eq, hparam, hparams, hc.parts_eq, hi]
    have hspan : Span.join start.value.span b.value.braces
        = Forest.span (.cons start (.cons name (.cons t (.cons o (.cons p (.cons ps (.cons c (.cons b .nil)))))))) := by
      rw [← hs.span_eq, hbraces]
      rfl
    have hfault : [start.fault?, name.fault?, t.fault?, o.fault?, p.fault?, ps.fault?, c.fault?, b.fault?].findSome? id
        = b.fault? := by
      rw [fs rfl, fn rfl, ft rfl, fo rfl, fp rfl, fps rfl, fc rfl]
      cases b.fault? <;> rfl
    have hall : (param :: params).mapM buildParam = .ok (p.value :: ps.value) := by
      rw [List.mapM_cons, hp, hps]
      rfl
    refine ⟨_, parts_node hspan hparts rfl, buildDecl_func (hs.ne_name rfl) hn.kind_eq ?_⟩
    rw [Part.trees, Part.trees, Part.trees_map]
    exact outcome_congr (buildFunc_eq ht hall hb) hfault
  case funOne =>
    obtain _ | ⟨start, _ | ⟨name, _ | ⟨t, _ | ⟨o, _ | ⟨p, _ | ⟨c, _ | ⟨b, _ | _⟩⟩⟩⟩⟩⟩⟩ := f
    obtain ⟨hs, hn, ⟨-, tree, htree, ht⟩, ho, ⟨param, hparam, hp⟩, hc, ⟨hbraces, inner, hi, hb⟩, -⟩ := h
    obtain ⟨fs, fn, ft, fo, fp, fc, -⟩ := hpure
    have hparts : Forest.parts (.cons start (.cons name (.cons t (.cons o (.cons p (.cons c (.cons b .nil)))))))
        = [.token start.value, .token name.value, .tree tree, .token o.value, .tree param,
          .tree (.ofParts .block b.value.braces inner)] := by
      simp [Forest.parts, hs.parts_eq, hn.parts_eq, htree, ho.parts_eq, hparam, hc.parts_eq, hi]
    have hspan : Span.join start.value.span b.value.braces
        = Forest.span (.cons start (.cons name (.cons t (.cons o (.cons p (.cons c (.cons b .nil))))))) := by
      rw [← hs.span_eq, hbraces]
      rfl
    have hfault : [start.fault?, name.fault?, t.fault?, o.fault?, p.fault?, c.fault?, b.fault?].findSome? id
        = b.fault? := by
      rw [fs rfl, fn rfl, ft rfl, fo rfl, fp rfl, fc rfl]
      cases b.fault? <;> rfl
    have hp : buildParam param = outcome none p.value := hp
    have hall := mapM_single hp
    refine ⟨_, parts_node hspan hparts rfl, buildDecl_func (hs.ne_name rfl) hn.kind_eq ?_⟩
    exact outcome_congr (buildFunc_eq ht hall hb) hfault
  case funNone =>
    obtain _ | ⟨start, _ | ⟨name, _ | ⟨t, _ | ⟨o, _ | ⟨c, _ | ⟨b, _ | _⟩⟩⟩⟩⟩⟩ := f
    obtain ⟨hs, hn, ⟨-, tree, htree, ht⟩, ho, hc, ⟨hbraces, inner, hi, hb⟩, -⟩ := h
    obtain ⟨fs, fn, ft, fo, fc, -⟩ := hpure
    have hparts : Forest.parts (.cons start (.cons name (.cons t (.cons o (.cons c (.cons b .nil))))))
        = [.token start.value, .token name.value, .tree tree, .token o.value,
          .tree (.ofParts .block b.value.braces inner)] := by
      simp [Forest.parts, hs.parts_eq, hn.parts_eq, htree, ho.parts_eq, hc.parts_eq, hi]
    have hspan : Span.join start.value.span b.value.braces
        = Forest.span (.cons start (.cons name (.cons t (.cons o (.cons c (.cons b .nil)))))) := by
      rw [← hs.span_eq, hbraces]
      rfl
    have hfault : [start.fault?, name.fault?, t.fault?, o.fault?, c.fault?, b.fault?].findSome? id = b.fault? := by
      rw [fs rfl, fn rfl, ft rfl, fo rfl, fc rfl]
      cases b.fault? <;> rfl
    refine ⟨_, parts_node hspan hparts rfl, buildDecl_func (hs.ne_name rfl) hn.kind_eq ?_⟩
    have hnone : ([] : List ParseTree).mapM buildParam = .ok [] := rfl
    exact outcome_congr (buildFunc_eq ht hnone hb) hfault
  all_goals exact absurd hp (by decide)

/-! ## All phrases -/

theorem Forest.arePure {ss : List Sym} (f : Forest ss) (h : ∀ t ∈ f.tokens, t.IsSpelled) :
    f.All fun s d => s.isPure = true → d.fault? = none := by
  cases f with
  | nil => exact trivial
  | cons d f =>
    obtain ⟨hd, hf⟩ := List.forall_mem_append.mp (show ∀ t ∈ d.tokens ++ f.tokens, t.IsSpelled from h)
    exact ⟨d.fault?_of_isPure hd, f.arePure hf⟩

/-- A phrase is laid out as its class says if its parts are. -/
theorem Production.isBuilt_node (p : Production) (f : Forest p.rhs) (h : f.All fun _ d => d.IsBuilt)
    (hpure : f.All fun s d => s.isPure = true → d.fault? = none) : (Derivation.node p f).IsBuilt := by
  obtain hp | hp | hp | hp := p.lhs.mem_classes
  · exact p.isBuilt_type f h hp
  · exact p.isBuilt_expr f h hp
  · exact p.isBuilt_stmt f h hpure hp
  · exact p.isBuilt_decl f h hpure hp

mutual

/-- Derivations of tokens that spell their kinds are read as what is built of them. -/
theorem Derivation.isBuilt : {s : Sym} → (d : Derivation s) → (∀ t ∈ d.tokens, t.IsSpelled) → d.IsBuilt
  | _, .leaf t, h => ⟨rfl, h t List.mem_cons_self, rfl, rfl⟩
  | _, .node p f, h => p.isBuilt_node f (f.areBuilt h) (f.arePure h)

theorem Forest.areBuilt : {ss : List Sym} → (f : Forest ss) → (∀ t ∈ f.tokens, t.IsSpelled) → f.All fun _ d => d.IsBuilt
  | _, .nil, _ => trivial
  | _, .cons d f, h => by
    obtain ⟨hd, hf⟩ := List.forall_mem_append.mp (show ∀ t ∈ d.tokens ++ f.tokens, t.IsSpelled from h)
    exact ⟨d.isBuilt hd, f.areBuilt hf⟩

end

/-- What is built of a unit is what the unit is read as, unless it has a fault. -/
theorem buildUnit_parts (d : Derivation (.n .unit)) (h : ∀ t ∈ d.tokens, t.IsSpelled) :
    buildUnit d.parts = outcome d.fault? d.value := d.isBuilt h

end FlatScope.Grammar
