/-
  Proper derivations. Two rules are wider than what the language means by them: any chain can stand in front of `:=` or
  alone as a statement. `IsProper` says of a derivation, by its shape alone, that every target is a name with
  indices behind it and every chain that stands alone is a call; a derivation of spelled tokens has no fault
  exactly if it is proper (`fault?_eq_none_iff`), and its faults are syntactic ones (`fault?_syntactic`).
-/
import FlatScope.Parse
import FlatScope.Proofs.Grammar.Alike
import FlatScope.Proofs.Grammar.Suffix
import FlatScope.Proofs.Token.Value

namespace FlatScope.Grammar

/-! ## Targets and calls -/

/-- A phrase begins with a token that has a property. -/
def Derivation.StartsWith {s : Sym} (d : Derivation s) (P : Token → Prop) : Prop := ∃ t, d.tokens.head? = some t ∧ P t

/-- A target of an assignment is a name with nothing but indices behind it. -/
def Derivation.IsTarget {s : Sym} (d : Derivation s) : Prop :=
  d.StartsWith (fun t => t.kind = .name) ∧ ∀ x ∈ d.suffixes, x.rule? = some .suffixIndex

/-- An address is the address form with one expression between its parentheses and nothing behind them. -/
def Derivation.IsAddress {s : Sym} (d : Derivation s) : Prop :=
  d.StartsWith (fun t => t.lexeme = SpecialForm.addr.name)
    ∧ ∃ x, d.suffixes = [x] ∧ x.rule? = some .suffixCall ∧ x.arguments.map Derivation.rule? = [some .argExpr]

/-- A call ends in arguments, and is no address. -/
def Derivation.IsCall {s : Sym} (d : Derivation s) : Prop :=
  (∃ x, d.suffixes.getLast? = some x ∧ x.rule? = some .suffixCall) ∧ ¬d.IsAddress

/-- What a rule asks of its parts. -/
def Production.Allows : (p : Production) → Forest p.rhs → Prop
  | .assignTo, .cons target _ => target.IsTarget
  | .callChain, .cons chain .nil => chain.IsCall
  | _, _ => True

mutual

/-- Every target in a derivation is a target, and every chain that stands alone a call. -/
def Derivation.IsProper : {s : Sym} → Derivation s → Prop
  | _, .leaf _ => True
  | _, .node p f => p.Allows f ∧ f.IsProper

def Forest.IsProper : {ss : List Sym} → Forest ss → Prop
  | _, .nil => True
  | _, .cons d f => d.IsProper ∧ f.IsProper

end

/-! ## What chains are read as -/

/-- A suffix that is an index. -/
def Suffix.isIndex : Suffix → Bool
  | .index .. => true
  | .call .. => false

theorem Suffix.isPlace_applyTo (e : Expr) (x : Suffix) : (x.applyTo e).isPlace = (e.isPlace && x.isIndex) := by
  cases x with
  | index i span => exact (Bool.and_true _).symm
  | call args span =>
    rw [isIndex, Bool.and_false]
    unfold applyTo
    dsimp only
    split
    · split <;> rfl
    · rfl

theorem isPlace_foldl (xs : List Suffix) (e : Expr) :
    (xs.foldl Suffix.applyTo e).isPlace = (e.isPlace && xs.all Suffix.isIndex) := by
  induction xs generalizing e with
  | nil => exact (Bool.and_true _).symm
  | cons x xs ih => rw [List.foldl_cons, ih, Suffix.isPlace_applyTo, Bool.and_assoc, List.all_cons]

/-- A suffix is an index exactly if it is made by the rule for indices. -/
theorem isIndex_value (x : Derivation (.n .suffix)) : x.value.isIndex = true ↔ x.rule? = some .suffixIndex := by
  obtain ⟨hr, e, span, hv⟩ | ⟨hr, span, hv⟩ := x.isFolded
  · rw [hr, hv]
    exact iff_of_true rfl rfl
  · rw [hr, hv]
    exact iff_of_false Bool.false_ne_true nofun

/-- The names of builtins are the texts of tokens of their own kind. -/
theorem isBuiltinName_lexeme {t : Token} (ht : t.IsSpelled) (hk : t.kind = .name ∨ t.kind = .builtin) :
    isBuiltinName t.lexeme = false ↔ t.kind = .name := by
  unfold Token.IsSpelled at ht
  unfold isBuiltinName
  generalize t.lexeme.toList = cs at ht
  obtain hk | hk := hk
  · rw [hk] at ht ⊢
    have hw : Lexeme.word? cs = some cs.length := ht
    unfold Lexeme.word? at hw
    split at hw
    · rename_i c cs
      split at hw
      · rename_i hc
        refine iff_of_true ?_ rfl
        rw [List.head?_cons, decide_eq_false_iff_not]
        intro he
        rw [Option.some.inj he] at hc
        cases hc
      · cases hw
    · cases hw
  · rw [hk] at ht ⊢
    have hb : Lexeme.builtin? cs = some cs.length := ht
    unfold Lexeme.builtin? at hb
    split at hb
    · exact iff_of_false (by simp) nofun
    · cases hb

variable {d : Derivation (.n .chain)}

theorem isPlace_value (h : ∀ t ∈ d.tokens, t.IsSpelled) : d.value.isPlace = true ↔ d.IsTarget := by
  obtain ⟨t, hk, ht, hv⟩ := d.isFolded
  have hspelled : t.IsSpelled := h t (ht ▸ List.mem_cons_self)
  have hname : (nameExpr t).isPlace = true ↔ t.kind = .name := by
    rw [← isBuiltinName_lexeme hspelled hk]
    show (!isBuiltinName t.lexeme) = true ↔ _
    rw [Bool.not_eq_true']
  rw [hv, isPlace_foldl, Bool.and_eq_true, hname, List.all_map, List.all_eq_true, Derivation.IsTarget,
    Derivation.StartsWith, ht, List.head?_cons]
  simp only [Function.comp_apply, isIndex_value, Option.some.injEq, exists_eq_left']

/-- Arguments behind an expression are a call, unless this is the address form on one expression. -/
theorem isCall_applyTo_call (e : Expr) (args : List Expr) (span : Span) :
    (Suffix.applyTo e (.call args span)).isCall = false ↔
      ∃ name symbol info arg, e = .ident name symbol info ∧ args = [arg] ∧ name = SpecialForm.addr.name
        ∧ isTypeArg arg = false := by
  unfold Suffix.applyTo
  dsimp only
  split
  · rename_i name symbol info arg
    split
    · rename_i hc
      rw [Bool.not_eq_true'] at hc
      exact iff_of_true rfl ⟨name, symbol, info, arg, rfl, rfl, hc⟩
    · rename_i hc
      refine iff_of_false Bool.noConfusion ?_
      rintro ⟨name', symbol', info', arg', he, ha, hn⟩
      cases he
      cases ha
      rw [Bool.not_eq_true'] at hc
      exact hc hn
  · rename_i hne
    refine iff_of_false Bool.noConfusion ?_
    rintro ⟨name, symbol, info, arg, he, ha, -⟩
    exact hne name symbol info arg he ha

/-- Only a name without suffixes is read as an identifier. -/
theorem Suffix.applyTo_ne_ident (e : Expr) (x : Suffix) (name : String) (symbol : Option Symbol) (info : Info) :
    x.applyTo e ≠ .ident name symbol info := by
  cases x with
  | index i span => exact nofun
  | call args span =>
    unfold applyTo
    dsimp only
    split
    · split <;> exact nofun
    · exact nofun

/-- An argument is no type exactly if it is made by the rule for expressions. -/
theorem isTypeArg_value (a : Derivation (.n .arg)) : isTypeArg a.value = false ↔ a.rule? = some .argExpr := by
  obtain ⟨hr, hv⟩ | ⟨hr, hv⟩ := a.isFolded
  · rw [hr, hv]
    exact iff_of_true rfl rfl
  · rw [hr, hv]
    exact iff_of_false Bool.true_eq_false.mp nofun

/-- The arguments of the address form, as expressions and as rules. -/
theorem lone_argument {as : List (Derivation (.n .arg))} :
    (∃ arg, as.map Derivation.value = [arg] ∧ isTypeArg arg = false)
      ↔ as.map Derivation.rule? = [some .argExpr] := by
  constructor
  · rintro ⟨arg, ha, hn⟩
    obtain ⟨a, rfl, rfl⟩ := List.map_eq_singleton_iff.mp ha
    rw [List.map_singleton, (isTypeArg_value a).mp hn]
  · intro ha
    obtain ⟨a, rfl, hr⟩ := List.map_eq_singleton_iff.mp ha
    exact ⟨a.value, rfl, (isTypeArg_value a).mpr hr⟩

theorem isCall_value : d.value.isCall = true ↔ d.IsCall := by
  obtain ⟨t, -, ht, hv⟩ := d.isFolded
  have hstarts : ∀ P, d.StartsWith P ↔ P t := by
    intro P
    rw [Derivation.StartsWith, ht, List.head?_cons]
    simp only [Option.some.injEq, exists_eq_left']
  obtain hs | ⟨init, x, hs⟩ := d.suffixes.eq_nil_or_concat
  · rw [hv, Derivation.IsCall, hs]
    exact iff_of_false Bool.false_ne_true fun h => nomatch h.1.choose_spec.1
  rw [List.concat_eq_append] at hs
  rw [hv, Derivation.IsCall, Derivation.IsAddress, hstarts, hs, List.map_append, List.foldl_append,
    List.getLast?_concat]
  simp only [Option.some.injEq, exists_eq_left', List.map_singleton, List.foldl_cons, List.foldl_nil]
  obtain ⟨hr, e, span, hx⟩ | ⟨hr, span, hx⟩ := x.isFolded
  · rw [hr, hx]
    exact iff_of_false Bool.false_ne_true fun h => nomatch h.1
  -- the last suffix is a call, and what is left is the address form
  rw [hx, hr, ← Bool.not_eq_false, isCall_applyTo_call, and_iff_right rfl, not_iff_not]
  constructor
  · rintro ⟨name, symbol, info, arg, he, ha, hn, harg⟩
    obtain hinit | ⟨init', y, hinit⟩ := init.eq_nil_or_concat
    · subst hinit
      obtain ⟨rfl, -⟩ := Expr.ident.inj he
      exact ⟨hn, x, rfl, hr, lone_argument.mp ⟨arg, ha, harg⟩⟩
    · rw [hinit, List.concat_eq_append, List.map_append, List.foldl_append] at he
      exact absurd he (Suffix.applyTo_ne_ident _ _ _ _ _)
  · rintro ⟨hn, x', hx', -, hargs⟩
    obtain rfl : init = [] := by
      have hl := congrArg List.length hx'
      simpa using hl
    obtain rfl : x = x' := by simpa using hx'
    obtain ⟨arg, ha, harg⟩ := lone_argument.mpr hargs
    exact ⟨t.lexeme, none, { span := t.span }, arg, rfl, ha, hn, harg⟩

/-! ## Faults -/

theorem findSome?_id_eq_none {faults : List (Option SourceError)} :
    faults.findSome? id = none ↔ ∀ fault ∈ faults, fault = none := List.findSome?_eq_none_iff

theorem orElse_eq_none {a b : Option SourceError} : (a <|> b) = none ↔ a = none ∧ b = none := by
  cases a with
  | none => exact (and_iff_right rfl).symm
  | some e => exact iff_of_false nofun fun h => nomatch h.1

/-- A phrase has no fault if its parts have none and its rule has no complaint. -/
theorem Production.fault?_eq_none_iff (p : Production) (f : Forest p.rhs) (hf : ∀ t ∈ f.tokens, t.IsSpelled)
    (faults : List (Option SourceError)) :
    p.fault? f faults = none ↔ p.Allows f ∧ ∀ fault ∈ faults, fault = none := by
  cases p
  case assignTo =>
    match f with
    | .cons target rest =>
      have ht : ∀ t ∈ target.tokens, t.IsSpelled := fun t h => hf t (List.mem_append_left _ h)
      have htarget : Expr.targetFault? target.value = none ↔ target.IsTarget := by
        rw [← isPlace_value ht, Expr.targetFault?]
        split <;> simp_all
      show ((faults.take 1).findSome? id <|> Expr.targetFault? target.value <|> (faults.drop 1).findSome? id) = none
        ↔ target.IsTarget ∧ _
      rw [orElse_eq_none, orElse_eq_none, htarget, findSome?_id_eq_none, findSome?_id_eq_none]
      have hall : (∀ fault ∈ faults, fault = none) ↔
          (∀ fault ∈ faults.take 1, fault = none) ∧ ∀ fault ∈ faults.drop 1, fault = none := by
        rw [← List.forall_mem_append, List.take_append_drop]
      rw [hall]
      exact ⟨fun ⟨h1, h2, h3⟩ => ⟨h2, h1, h3⟩, fun ⟨h2, h1, h3⟩ => ⟨h1, h2, h3⟩⟩
  case callChain =>
    match f with
    | .cons chain .nil =>
      have hchain : Expr.bareFault? chain.value = none ↔ chain.IsCall := by
        rw [← isCall_value, Expr.bareFault?]
        split <;> simp_all
      show (faults.findSome? id <|> Expr.bareFault? chain.value) = none ↔ chain.IsCall ∧ _
      rw [orElse_eq_none, hchain, findSome?_id_eq_none, and_comm]
  case typeArray | typeArgArray =>
    show faults.reverse.findSome? id = none ↔ True ∧ _
    rw [findSome?_id_eq_none, true_and]
    simp only [List.mem_reverse]
  all_goals exact findSome?_id_eq_none.trans (true_and _).symm.to_iff

mutual

/-- A derivation of spelled tokens has no fault exactly if it is proper. -/
theorem Derivation.fault?_eq_none_iff : {s : Sym} → (d : Derivation s) → (∀ t ∈ d.tokens, t.IsSpelled) →
    (d.fault? = none ↔ d.IsProper)
  | _, .leaf t, h => by
    have ht : t.IsSpelled := h t List.mem_cons_self
    refine iff_of_true ?_ trivial
    show literalFault? t = none
    rw [literalFault?, t.literalFault?_eq_none ht]
    rfl
  | _, .node p f, h => by
    rw [Derivation.fault?, p.fault?_eq_none_iff f h, f.faults_eq_none_iff h]
    rfl

theorem Forest.faults_eq_none_iff : {ss : List Sym} → (f : Forest ss) → (∀ t ∈ f.tokens, t.IsSpelled) →
    ((∀ fault ∈ f.faults, fault = none) ↔ f.IsProper)
  | _, .nil, _ => by
    rw [Forest.faults]
    exact iff_of_true (List.forall_mem_nil _) trivial
  | _, .cons d f, h => by
    have h : ∀ t ∈ d.tokens ++ f.tokens, t.IsSpelled := h
    obtain ⟨hd, hf⟩ := List.forall_mem_append.mp h
    rw [Forest.faults, List.forall_mem_cons, d.fault?_eq_none_iff hd, f.faults_eq_none_iff hf]
    rfl

end

/-- What a rule allows it allows of alike parts. -/
theorem Production.allows_alike (p : Production) {f f' : Forest p.rhs} (hf : ∀ t ∈ f.tokens, t.IsSpelled)
    (hf' : ∀ t ∈ f'.tokens, t.IsSpelled) (halike : f'.values.Alike f.values) (h : p.Allows f) : p.Allows f' := by
  cases p
  case assignTo =>
    match f, f', halike, h with
    | .cons target _, .cons target' _, ⟨hstrip, _⟩, h =>
      have hplace : target'.value.isPlace = target.value.isPlace := by
        rw [← Expr.isPlace_strip false, show target'.value.strip false = target.value.strip false from hstrip, Expr.isPlace_strip]
      have hspelled : ∀ t ∈ target.tokens, t.IsSpelled := fun t ht => hf t (List.mem_append_left _ ht)
      have hspelled' : ∀ t ∈ target'.tokens, t.IsSpelled := fun t ht => hf' t (List.mem_append_left _ ht)
      exact (isPlace_value hspelled').mp (hplace.trans ((isPlace_value hspelled).mpr h))
  case callChain =>
    match f, f', halike, h with
    | .cons chain .nil, .cons chain' .nil, ⟨hstrip, _⟩, h =>
      have hcall : chain'.value.isCall = chain.value.isCall := by
        rw [← Expr.isCall_strip false, show chain'.value.strip false = chain.value.strip false from hstrip, Expr.isCall_strip]
      exact isCall_value.mp (hcall.trans (isCall_value.mpr h))
  all_goals trivial

/-- What a rule complains of is a fault of a part or a syntactic fault, which is not about a single token but about a chain. -/
theorem Production.mem_or_syntactic (p : Production) (f : Forest p.rhs) {faults : List (Option SourceError)}
    {e : SourceError} (h : p.fault? f faults = some e) :
    some e ∈ faults ∨ ∃ e', e = .syntactic e' ∧ e'.fault.found? = none
      ∧ ∃ chain : Derivation (.n .chain), chain.tokens ⊆ f.tokens ∧ e'.span = Expr.span chain.value := by
  have hmem : ∀ {faults : List (Option SourceError)}, faults.findSome? id = some e → some e ∈ faults := by
    intro faults h
    obtain ⟨fault, hf, rfl⟩ := List.exists_of_findSome?_eq_some h
    exact hf
  have hor : ∀ {a b : Option SourceError}, (a <|> b) = some e → a = some e ∨ b = some e := by
    intro a b h
    cases a with
    | none => exact .inr h
    | some e' => exact .inl h
  cases p
  case assignTo =>
    match f with
    | .cons target rest =>
      have h : ((faults.take 1).findSome? id <|> Expr.targetFault? target.value
        <|> (faults.drop 1).findSome? id) = some e := h
      obtain h | h := hor h
      · exact .inl (List.mem_of_mem_take (hmem h))
      obtain h | h := hor h
      · unfold Expr.targetFault? at h
        split at h <;> cases h
        exact .inr ⟨_, rfl, rfl, target, List.subset_append_left _ _, rfl⟩
      · exact .inl (List.mem_of_mem_drop (hmem h))
  case callChain =>
    match f with
    | .cons chain .nil =>
      have h : (faults.findSome? id <|> Expr.bareFault? chain.value) = some e := h
      obtain h | h := hor h
      · exact .inl (hmem h)
      · unfold Expr.bareFault? at h
        split at h <;> cases h
        exact .inr ⟨_, rfl, rfl, chain, List.subset_append_left _ _, rfl⟩
  case typeArray | typeArgArray => exact .inl (List.mem_reverse.mp (hmem h))
  all_goals exact .inl (hmem h)

mutual

/-- The faults of spelled tokens are syntactic. -/
theorem Derivation.fault?_syntactic : {s : Sym} → (d : Derivation s) → (∀ t ∈ d.tokens, t.IsSpelled) →
    {e : SourceError} → d.fault? = some e → ∃ e', e = .syntactic e'
  | _, .leaf t, h, e, he => by
    have ht : t.IsSpelled := h t List.mem_cons_self
    have he : literalFault? t = some e := he
    rw [literalFault?, t.literalFault?_eq_none ht] at he
    cases he
  | _, .node p f, h, e, he => by
    obtain hf | ⟨e', hs, -⟩ := p.mem_or_syntactic f he
    · exact f.faults_syntactic h hf
    · exact ⟨e', hs⟩

theorem Forest.faults_syntactic : {ss : List Sym} → (f : Forest ss) → (∀ t ∈ f.tokens, t.IsSpelled) →
    {e : SourceError} → some e ∈ f.faults → ∃ e', e = .syntactic e'
  | _, .nil, _, e, he => by
    rw [Forest.faults] at he
    cases he
  | _, .cons d f, h, e, he => by
    have h : ∀ t ∈ d.tokens ++ f.tokens, t.IsSpelled := h
    obtain ⟨hd, hf⟩ := List.forall_mem_append.mp h
    rw [Forest.faults] at he
    obtain he | he := List.mem_cons.mp he
    · exact d.fault?_syntactic hd he.symm
    · exact f.faults_syntactic hf he

end

mutual

/-- A syntactic fault that is found in reading is not about a single token. -/
theorem Derivation.found?_of_fault? : {s : Sym} → (d : Derivation s) → {e : SyntaxError} →
    d.fault? = some (.syntactic e) → e.fault.found? = none
  | _, .leaf t, e, he => by
    obtain ⟨f, -, hf⟩ := Option.map_eq_some_iff.mp (show literalFault? t = some (.syntactic e) from he)
    cases hf
  | _, .node p f, e, he => by
    obtain hf | ⟨e', hs, hfound, -⟩ := p.mem_or_syntactic f he
    · exact f.found?_of_faults hf
    · obtain rfl := SourceError.syntactic.inj hs
      exact hfound

theorem Forest.found?_of_faults : {ss : List Sym} → (f : Forest ss) → {e : SyntaxError} →
    some (.syntactic e) ∈ f.faults → e.fault.found? = none
  | _, .nil, e, he => by
    rw [Forest.faults] at he
    cases he
  | _, .cons d f, e, he => by
    rw [Forest.faults] at he
    obtain he | he := List.mem_cons.mp he
    · exact d.found?_of_fault? he.symm
    · exact f.found?_of_faults he

end

end FlatScope.Grammar
