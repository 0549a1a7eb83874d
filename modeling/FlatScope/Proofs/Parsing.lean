/-
  Parsing is what the grammar says. Of tokens that spell their kinds the parser accepts those that are derived as a
  unit by a proper derivation, and gives back what this derivation is read as; it refuses all others with a syntactic
  fault, and it never loses its way in the table. No list of kinds is derived in two ways, and chains and
  types are read from left to right.
-/
import FlatScope.Proofs.Grammar.Proper
import FlatScope.Proofs.Grammar.Validation

namespace FlatScope.Program

open Grammar

variable {file : Option String} {tokens : List Token}

/-- The tokens of a unit are parsed as its derivation, which may still have a fault. -/
theorem ofTokens_tokens (file : Option String) (d : Derivation (.n .unit)) :
    ofTokens file d.tokens =
      match d.fault? with
      | some e => .error e
      | none => .ok { decls := d.value, file } := by
  unfold ofTokens
  rewrite [parseTokens_tokens table_isComplete]
  rfl

/-- What is accepted is derived. -/
theorem exists_derivation {program : Program} (h : ofTokens file tokens = .ok program) :
    ∃ d : Derivation (.n .unit), d.tokens = tokens ∧ d.fault? = none ∧ program = { decls := d.value, file } := by
  unfold ofTokens at h
  split at h
  · rename_i d hd
    split at h
    · cases h
    · rename_i hf
      exact ⟨d, tokens_of_parseTokens hd, hf, (Except.ok.inj h).symm⟩
  · cases h
  · cases h

/-- Tokens that spell their kinds are refused with syntactic faults only. -/
theorem ofTokens_syntactic (h : ∀ t ∈ tokens, t.IsSpelled) {e : SourceError} (he : ofTokens file tokens = .error e) :
    ∃ e', e = .syntactic e' := by
  unfold ofTokens at he
  split at he
  · rename_i d hd
    have ht := tokens_of_parseTokens hd
    split at he
    · rename_i fault hf
      obtain rfl := Except.error.inj he
      exact d.fault?_syntactic (ht ▸ h) hf
    · cases he
  · exact ⟨_, (Except.error.inj he).symm⟩
  · exact ⟨_, (Except.error.inj he).symm⟩

/-- The tokens are parsed as the grammar derives them. -/
structure ParsesByGrammar (file : Option String) (tokens : List Token) : Prop where
  /-- They are derived as a unit exactly if their kinds are a sentence. -/
  derived : (∃ d : Derivation (.n .unit), d.tokens = tokens) ↔ Sentence (tokens.map Token.kind)
  /-- They are accepted exactly if a derivation of theirs is proper, and then as what it is read as. -/
  accepted : ∀ program, ofTokens file tokens = .ok program
    ↔ ∃ d : Derivation (.n .unit), d.tokens = tokens ∧ d.IsProper ∧ program = { decls := d.value, file }
  /-- They are refused for a syntactic fault and for no other reason. -/
  refused : ∀ e, ofTokens file tokens = .error e → ∃ e', e = .syntactic e'
  /-- The table never makes the parser reduce what is not there. -/
  settled : parseTokens table tokens ≠ .stuck

/-- The parser accepts exactly its grammar and builds the tree of the one derivation, whose suffixes nest from left to
right. -/
theorem ofTokens_by_grammar (file : Option String) (tokens : List Token) (h : ∀ t ∈ tokens, t.IsSpelled) :
    ParsesByGrammar file tokens
    ∧ (∀ d d' : Derivation (.n .unit), d.tokens.map Token.kind = d'.tokens.map Token.kind → d.blank = d'.blank)
    ∧ (∀ d : Derivation (.n .chain), IsChainOf d.tokens d.value d.suffixes)
    ∧ (∀ d : Derivation (.n .type), IsTypeOf d.tokens d.value d.typeSuffixes)
    ∧ ∀ d : Derivation (.n .typeArg), IsTypeOf d.tokens d.value d.typeSuffixes := by
  refine ⟨⟨derives_map_kind.symm, fun program => ⟨fun hp => ?_, ?_⟩, fun e he => ofTokens_syntactic h he,
    parseTokens_ne_stuck table_isCoherent tokens⟩, fun d d' hk => ?_, fun d => d.isFolded, fun d => d.isFolded,
    fun d => d.isFolded⟩
  · obtain ⟨d, rfl, hf, rfl⟩ := exists_derivation hp
    exact ⟨d, rfl, (d.fault?_eq_none_iff h).mp hf, rfl⟩
  · rintro ⟨d, rfl, hproper, rfl⟩
    rw [ofTokens_tokens, (d.fault?_eq_none_iff h).mpr hproper]
  · refine Derivation.eq_of_tokens table_isComplete ?_
    rw [d.tokens_blank, d'.tokens_blank, hk]

/-- The tokens of `var x int`. -/
def varTokens : List Token :=
  [{ kind := .varKw, lexeme := "var", start := {}, stop := {} },
    { kind := .name, lexeme := "x", start := {}, stop := {} },
    { kind := .intKw, lexeme := "int", start := {}, stop := {} }]

/-- The derivation of `var x int`. -/
def varDerivation : Derivation (.n .unit) :=
  let type : Derivation (.n .type) :=
    .node .typeBase (.cons (.node .basePrimitive (.cons (.node .primitiveInt (.cons (.leaf varTokens[2]) .nil)) .nil))
      .nil)
  let decl : Derivation (.n .varDecl) :=
    .node .varTyped (.cons (.leaf varTokens[0]) (.cons (.leaf varTokens[1]) (.cons type .nil)))
  .node .unitDecls (.cons (.node .declsOne (.cons (.node .declVar (.cons decl .nil)) .nil)) .nil)

theorem ofTokens_varTokens :
    (∀ t ∈ varTokens, t.IsSpelled) ∧ ParsesByGrammar none varTokens
      ∧ ofTokens none varTokens = .ok { decls := varDerivation.value, file := none } := by
  have h : ∀ t ∈ varTokens, t.IsSpelled :=
    List.forall_mem_cons.mpr ⟨.inl rfl, List.forall_mem_cons.mpr ⟨rfl, List.forall_mem_singleton.mpr (.inl rfl)⟩⟩
  have hp := (ofTokens_by_grammar none varTokens h).1
  have hproper : varDerivation.IsProper := by
    simp [varDerivation, Derivation.IsProper, Forest.IsProper, Production.Allows]
  exact ⟨h, hp, (hp.accepted _).mpr ⟨varDerivation, rfl, hproper, rfl⟩⟩

end FlatScope.Program
