/-
  Suffixes nest from left to right. A chain is a name with suffixes behind it, and a type is a word with suffixes behind
  it; in a derivation they are nested the other way round, the last suffix outermost. Here they are laid out as a
  list in the order of their tokens (`suffixes`, `typeSuffixes`), and reading a chain or a type is shown to be a fold
  over this list, which starts at the word (`Derivation.isFolded`).
-/
import FlatScope.Grammar.Reading
import FlatScope.Proofs.Grammar.Phrase

namespace FlatScope.Grammar

/-- The rule that makes a phrase; a token is made by none. -/
def Derivation.rule? : {s : Sym} → Derivation s → Option Production
  | _, .leaf _ => none
  | _, .node p _ => some p

/-! ## Lists in derivations -/

/-- The suffixes of a chain from left to right. -/
def Derivation.suffixes : {s : Sym} → Derivation s → List (Derivation (.n .suffix))
  | _, .node .suffixesOne (.cons x .nil) => [x]
  | _, .node .suffixesMore (.cons xs (.cons x .nil)) => xs.suffixes ++ [x]
  | _, .node .chainNameSuffixes (.cons _ (.cons xs .nil)) => xs.suffixes
  | _, .node .chainBuiltinSuffixes (.cons _ (.cons xs .nil)) => xs.suffixes
  | _, _ => []

/-- The arguments of a call from left to right. -/
def Derivation.arguments : {s : Sym} → Derivation s → List (Derivation (.n .arg))
  | _, .node .suffixCall (.cons c .nil) => c.arguments
  | _, .node .callMany (.cons _ (.cons a (.cons as (.cons _ .nil)))) => a :: as.arguments
  | _, .node .callOne (.cons _ (.cons a (.cons _ .nil))) => [a]
  | _, .node .argsOne (.cons _ (.cons a .nil)) => [a]
  | _, .node .argsMore (.cons as (.cons _ (.cons a .nil))) => as.arguments ++ [a]
  | _, _ => []

/-- A suffix of a type: what a rule puts behind the type that it begins with. -/
abbrev TypeSuffix := (p : Production) × Forest p.rhs.tail

/-- A suffix put behind a type. -/
def TypeSuffix.applyTo (t : TypeExpr) : TypeSuffix → TypeExpr
  | ⟨.typePointer, .cons star .nil⟩ | ⟨.typeArgPointer, .cons star .nil⟩
  | ⟨.typeArgNamedPointer, .cons star .nil⟩ => pointerType t star.value
  | ⟨.typeArray, .cons _ (.cons size (.cons close .nil))⟩
  | ⟨.typeArgArray, .cons _ (.cons size (.cons close .nil))⟩ => arrayType t size.value close.value
  | ⟨.typeFunMany, .cons _ (.cons p (.cons ps (.cons _ (.cons star .nil))))⟩
  | ⟨.typeArgFunMany, .cons _ (.cons p (.cons ps (.cons _ (.cons star .nil))))⟩ =>
    functionType t (p.value :: ps.value) star.value
  | ⟨.typeFunOne, .cons _ (.cons p (.cons _ (.cons star .nil)))⟩
  | ⟨.typeArgFunOne, .cons _ (.cons p (.cons _ (.cons star .nil)))⟩ => functionType t [p.value] star.value
  | ⟨.typeFunNone, .cons _ (.cons _ (.cons star .nil))⟩
  | ⟨.typeArgFunNone, .cons _ (.cons _ (.cons star .nil))⟩ => functionType t [] star.value
  | _ => t

/-- The suffixes of a type from left to right. -/
def Derivation.typeSuffixes : {s : Sym} → Derivation s → List TypeSuffix
  | _, .node .typePointer (.cons t f) => t.typeSuffixes ++ [⟨.typePointer, f⟩]
  | _, .node .typeArray (.cons t f) => t.typeSuffixes ++ [⟨.typeArray, f⟩]
  | _, .node .typeFunMany (.cons t f) => t.typeSuffixes ++ [⟨.typeFunMany, f⟩]
  | _, .node .typeFunOne (.cons t f) => t.typeSuffixes ++ [⟨.typeFunOne, f⟩]
  | _, .node .typeFunNone (.cons t f) => t.typeSuffixes ++ [⟨.typeFunNone, f⟩]
  | _, .node .typeArgNamedPointer (.cons _ f) => [⟨.typeArgNamedPointer, f⟩]
  | _, .node .typeArgPointer (.cons t f) => t.typeSuffixes ++ [⟨.typeArgPointer, f⟩]
  | _, .node .typeArgArray (.cons t f) => t.typeSuffixes ++ [⟨.typeArgArray, f⟩]
  | _, .node .typeArgFunMany (.cons t f) => t.typeSuffixes ++ [⟨.typeArgFunMany, f⟩]
  | _, .node .typeArgFunOne (.cons t f) => t.typeSuffixes ++ [⟨.typeArgFunOne, f⟩]
  | _, .node .typeArgFunNone (.cons t f) => t.typeSuffixes ++ [⟨.typeArgFunNone, f⟩]
  | _, _ => []

/-! ## Reading as a fold -/

/-- A chain is read from its suffixes. -/
def IsChainOf (tokens : List Token) (e : Expr) (suffixes : List (Derivation (.n .suffix))) : Prop :=
  ∃ t : Token, (t.kind = .name ∨ t.kind = .builtin) ∧ tokens = t :: suffixes.flatMap Derivation.tokens
    ∧ e = (suffixes.map Derivation.value).foldl Suffix.applyTo (nameExpr t)

/-- A type is read from its suffixes. -/
def IsTypeOf (tokens : List Token) (t : TypeExpr) (suffixes : List TypeSuffix) : Prop :=
  ∃ word : Token, tokens = word :: suffixes.flatMap (fun x => x.2.tokens)
    ∧ t = suffixes.foldl TypeSuffix.applyTo (wordType word)

/-- A phrase is read from the list of its suffixes or arguments, if it has one. -/
def Derivation.IsFolded : {s : Sym} → Derivation s → Prop
  | .n .suffixes, d => d.tokens = d.suffixes.flatMap Derivation.tokens ∧ d.value = d.suffixes.map Derivation.value
  | .n .chain, d => IsChainOf d.tokens d.value d.suffixes
  | .n .args, d => d.value = d.arguments.map Derivation.value
  | .n .arg, d =>
    d.rule? = some .argExpr ∧ isTypeArg d.value = false ∨ d.rule? = some .argType ∧ isTypeArg d.value = true
  | .n .expr, d | .n .literal, d | .n .composite, d => isTypeArg d.value = false
  | .n .callSuffix, d => ∃ span, d.value = .call (d.arguments.map Derivation.value) span
  | .n .indexSuffix, d => ∃ e span, d.value = .index e span
  | .n .suffix, d =>
    (d.rule? = some .suffixIndex ∧ ∃ e span, d.value = .index e span)
      ∨ d.rule? = some .suffixCall ∧ ∃ span, d.value = .call (d.arguments.map Derivation.value) span
  | .n .type, d | .n .typeArg, d => IsTypeOf d.tokens d.value d.typeSuffixes
  | .n .baseType, d | .n .primitive, d => ∃ word, d.tokens = [word] ∧ d.value = wordType word
  | .t kind, d => ∃ t : Token, t.kind = kind ∧ d.tokens = [t] ∧ d.value = t
  | _, _ => True

theorem Suffix.isTypeArg_applyTo (e : Expr) (x : Suffix) : isTypeArg (x.applyTo e) = false := by
  cases x with
  | index i span => rfl
  | call args span =>
    unfold applyTo
    dsimp only
    split
    · split <;> rfl
    · rfl

/-- A chain is no type. -/
theorem IsChainOf.isTypeArg {tokens : List Token} {e : Expr} {suffixes : List (Derivation (.n .suffix))}
    (h : IsChainOf tokens e suffixes) : Grammar.isTypeArg e = false := by
  obtain ⟨t, -, -, rfl⟩ := h
  obtain hs | ⟨init, x, hs⟩ := (suffixes.map Derivation.value).eq_nil_or_concat
  · rw [hs]
    rfl
  · rw [hs, List.concat_eq_append, List.foldl_append]
    exact x.isTypeArg_applyTo _

/-- One more suffix behind a type. -/
theorem IsTypeOf.snoc {tokens : List Token} {t : TypeExpr} {suffixes : List TypeSuffix} (h : IsTypeOf tokens t suffixes)
    (x : TypeSuffix) : IsTypeOf (tokens ++ x.2.tokens) (x.applyTo t) (suffixes ++ [x]) := by
  obtain ⟨word, ht, rfl⟩ := h
  refine ⟨word, ?_, ?_⟩
  · rw [ht, List.flatMap_append, List.flatMap_singleton]
    rfl
  · rw [List.foldl_append]
    rfl

/-- A word alone is a chain or a type without suffixes. -/
theorem isTypeOf_word {tokens : List Token} {t : TypeExpr} (h : ∃ word, tokens = [word] ∧ t = wordType word) :
    IsTypeOf tokens t [] := h

/-- A phrase is read from a list if its parts are. -/
theorem Production.isFolded (p : Production) (f : Forest p.rhs) (h : f.All @Derivation.IsFolded) :
    (Derivation.node p f).IsFolded := by
  cases p
  all_goals try trivial
  case chainName =>
    match f, h with
    | .cons w .nil, ⟨⟨t, hk, ht, hv⟩, _⟩ => exact ⟨t, .inl hk, congrArg (· ++ []) ht, congrArg nameExpr hv⟩
  case chainBuiltin =>
    match f, h with
    | .cons w .nil, ⟨⟨t, hk, ht, hv⟩, _⟩ => exact ⟨t, .inr hk, congrArg (· ++ []) ht, congrArg nameExpr hv⟩
  case chainNameSuffixes =>
    match f, h with
    | .cons w (.cons xs .nil), ⟨⟨t, hk, ht, hv⟩, ⟨hts, hvs⟩, _⟩ =>
      refine ⟨t, .inl hk, ?_, ?_⟩
      · show w.tokens ++ (xs.tokens ++ []) = t :: xs.suffixes.flatMap Derivation.tokens
        rw [ht, hts, List.append_nil]
        rfl
      · show suffixed w.value xs.value = (xs.suffixes.map Derivation.value).foldl _ _
        rw [hvs, hv, suffixed]
  case chainBuiltinSuffixes =>
    match f, h with
    | .cons w (.cons xs .nil), ⟨⟨t, hk, ht, hv⟩, ⟨hts, hvs⟩, _⟩ =>
      refine ⟨t, .inr hk, ?_, ?_⟩
      · show w.tokens ++ (xs.tokens ++ []) = t :: xs.suffixes.flatMap Derivation.tokens
        rw [ht, hts, List.append_nil]
        rfl
      · show suffixed w.value xs.value = (xs.suffixes.map Derivation.value).foldl _ _
        rw [hvs, hv, suffixed]
  case suffixesOne =>
    match f, h with
    | .cons x .nil, _ =>
      refine ⟨?_, rfl⟩
      show x.tokens ++ [] = [x].flatMap Derivation.tokens
      rw [List.flatMap_singleton, List.append_nil]
  case suffixesMore =>
    match f, h with
    | .cons xs (.cons x .nil), ⟨⟨hts, hvs⟩, _⟩ =>
      refine ⟨?_, ?_⟩
      · show xs.tokens ++ (x.tokens ++ []) = (xs.suffixes ++ [x]).flatMap Derivation.tokens
        rw [hts, List.flatMap_append, List.flatMap_singleton, List.append_nil]
      · show xs.value ++ [x.value] = (xs.suffixes ++ [x]).map Derivation.value
        rw [hvs, List.map_append]
        rfl
  case argsOne =>
    match f, h with
    | .cons _ (.cons a .nil), _ => rfl
  case argsMore =>
    match f, h with
    | .cons as (.cons c (.cons a .nil)), ⟨has, _⟩ =>
      have has : as.value = as.arguments.map Derivation.value := has
      show as.value ++ [a.value] = (as.arguments ++ [a]).map Derivation.value
      rw [has, List.map_append]
      rfl
  case callMany =>
    match f, h with
    | .cons o (.cons a (.cons as (.cons c .nil))), ⟨_, _, has, _⟩ =>
      have has : as.value = as.arguments.map Derivation.value := has
      refine ⟨.join o.value.span c.value.span, ?_⟩
      show Suffix.call (a.value :: as.value) _ = .call (a.value :: as.arguments.map Derivation.value) _
      rw [has]
  case callOne =>
    match f, h with
    | .cons o (.cons a (.cons c .nil)), _ => exact ⟨.join o.value.span c.value.span, rfl⟩
  case callNone =>
    match f, h with
    | .cons o (.cons c .nil), _ => exact ⟨.join o.value.span c.value.span, rfl⟩
  case suffixIndex =>
    match f, h with
    | .cons c .nil, ⟨h, _⟩ => exact .inl ⟨rfl, h⟩
  case suffixCall =>
    match f, h with
    | .cons c .nil, ⟨h, _⟩ => exact .inr ⟨rfl, h⟩
  case indexExpr =>
    match f, h with
    | .cons o (.cons e (.cons c .nil)), _ => exact ⟨e.value, .join o.value.span c.value.span, rfl⟩
  case argExpr =>
    match f, h with
    | .cons e .nil, ⟨h, _⟩ => exact .inl ⟨rfl, h⟩
  case argType => exact .inr ⟨rfl, rfl⟩
  case exprChain =>
    match f, h with
    | .cons e .nil, ⟨h, _⟩ => exact h.isTypeArg
  case exprLiteral | exprComposite =>
    match f, h with
    | .cons e .nil, ⟨h, _⟩ => exact h
  case basePrimitive | typeBase | typeArgPrimitive =>
    match f, h with
    | .cons t .nil, ⟨⟨word, ht, hv⟩, _⟩ => exact ⟨word, congrArg (· ++ []) ht, hv⟩
  case primitiveInt | primitiveFloat | primitiveByte | primitiveVoid | baseNamed =>
    match f, h with
    | .cons w .nil, ⟨⟨t, _, ht, hv⟩, _⟩ => exact ⟨t, congrArg (· ++ []) ht, congrArg wordType hv⟩
  case typePointer =>
    match f, h with
    | .cons t (.cons star .nil), ⟨h, _⟩ => exact h.snoc ⟨.typePointer, .cons star .nil⟩
  case typeArray =>
    match f, h with
    | .cons t (.cons o (.cons size (.cons c .nil))), ⟨h, _⟩ => exact h.snoc ⟨.typeArray, .cons o (.cons size (.cons c .nil))⟩
  case typeFunMany =>
    match f, h with
    | .cons t (.cons o (.cons x (.cons xs (.cons c (.cons star .nil))))), ⟨h, _⟩ =>
      exact h.snoc ⟨.typeFunMany, .cons o (.cons x (.cons xs (.cons c (.cons star .nil))))⟩
  case typeFunOne =>
    match f, h with
    | .cons t (.cons o (.cons x (.cons c (.cons star .nil)))), ⟨h, _⟩ =>
      exact h.snoc ⟨.typeFunOne, .cons o (.cons x (.cons c (.cons star .nil)))⟩
  case typeFunNone =>
    match f, h with
    | .cons t (.cons o (.cons c (.cons star .nil))), ⟨h, _⟩ => exact h.snoc ⟨.typeFunNone, .cons o (.cons c (.cons star .nil))⟩
  case typeArgPointer =>
    match f, h with
    | .cons t (.cons star .nil), ⟨h, _⟩ => exact h.snoc ⟨.typeArgPointer, .cons star .nil⟩
  case typeArgArray =>
    match f, h with
    | .cons t (.cons o (.cons size (.cons c .nil))), ⟨h, _⟩ => exact h.snoc ⟨.typeArgArray, .cons o (.cons size (.cons c .nil))⟩
  case typeArgFunMany =>
    match f, h with
    | .cons t (.cons o (.cons x (.cons xs (.cons c (.cons star .nil))))), ⟨h, _⟩ =>
      exact h.snoc ⟨.typeArgFunMany, .cons o (.cons x (.cons xs (.cons c (.cons star .nil))))⟩
  case typeArgFunOne =>
    match f, h with
    | .cons t (.cons o (.cons x (.cons c (.cons star .nil)))), ⟨h, _⟩ =>
      exact h.snoc ⟨.typeArgFunOne, .cons o (.cons x (.cons c (.cons star .nil)))⟩
  case typeArgFunNone =>
    match f, h with
    | .cons t (.cons o (.cons c (.cons star .nil))), ⟨h, _⟩ => exact h.snoc ⟨.typeArgFunNone, .cons o (.cons c (.cons star .nil))⟩
  case typeArgNamedPointer =>
    match f, h with
    | .cons w (.cons star .nil), ⟨⟨t, _, ht, hv⟩, _⟩ =>
      exact (isTypeOf_word ⟨t, ht, congrArg wordType hv⟩).snoc ⟨.typeArgNamedPointer, .cons star .nil⟩

/-- Every chain, type and list of arguments is read from left to right. -/
theorem Derivation.isFolded {s : Sym} (d : Derivation s) : d.IsFolded :=
  Derivation.induct (P := @Derivation.IsFolded) (fun t => ⟨t, rfl, rfl, rfl⟩) Production.isFolded d

end FlatScope.Grammar
