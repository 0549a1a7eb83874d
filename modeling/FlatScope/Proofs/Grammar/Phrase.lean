/-
  Phrases and their tokens. Only a whole unit can be empty, and `starts` holds the kinds that a phrase can begin with
  (`Derivation.head_mem_starts`). Nothing but the kinds of the tokens decides what is a phrase: a derivation of some
  tokens becomes one of any others of the same kinds (`Derivation.exists_relabelled`), and `blank` is what is left of it
  without the texts and places.

  A phrase closes the brackets that it opens, and outside of these it has a comma only if it is the rest of a list. So what
  stands in front of the first comma or closing bracket that is not in brackets of its own is known from the tokens alone
  (`Derivation.tokens_eq_of_append`). The same holds with stars among these ends, for expressions: the stars of the types in an
  expression are all in its brackets.
-/
import FlatScope.Grammar.Derivation

namespace FlatScope

namespace Grammar

/-! ## The rules of a class of phrases -/

/-- Every rule. -/
def Production.all : List Production :=
  [.unitEmpty, .unitDecls, .declsOne, .declsMore, .declConst, .declVar, .declStruct, .declFun, .constLiteral,
    .constAlias, .constRefName, .varTyped, .structMany, .structOne, .fieldsOne, .fieldsMore, .funMany, .funOne,
    .funNone, .paramsOne, .paramsMore, .paramTyped, .typeBase, .typePointer, .typeArray, .typeFunMany,
    .typeFunOne, .typeFunNone, .typesOne, .typesMore, .basePrimitive, .baseNamed, .primitiveInt,
    .primitiveFloat, .primitiveByte, .primitiveVoid, .sizeInteger, .sizeName, .blockStmts, .blockEmpty,
    .stmtsOneSemi, .stmtsOne, .stmtsMoreSemi, .stmtsMore, .stmtVar, .stmtAssign, .stmtCall, .stmtIf,
    .stmtWhile, .stmtBreak, .stmtContinue, .stmtLabel, .stmtGoto, .stmtBlock, .assignTo, .callChain, .ifElseIf,
    .ifElse, .ifOnly, .whileLoop, .breakWord, .continueWord, .labelNamed, .gotoLabel, .exprChain, .exprLiteral,
    .exprComposite, .chainName, .chainNameSuffixes, .chainBuiltin, .chainBuiltinSuffixes, .suffixesOne,
    .suffixesMore, .suffixIndex, .suffixCall, .indexExpr, .callMany, .callOne, .callNone, .argsOne, .argsMore,
    .argExpr, .argType, .typeArgPrimitive, .typeArgNamedPointer, .typeArgPointer, .typeArgArray,
    .typeArgFunMany, .typeArgFunOne, .typeArgFunNone, .compositeMany, .compositeOne, .compositeNone, .exprsOne,
    .exprsMore, .openSpaced, .openAdjacent, .literalInt, .literalReal, .literalByte, .literalChar]

theorem Production.mem_all (p : Production) : p ∈ Production.all := by cases p <;> decide

/-- The rules for a class of phrases. -/
def Nonterminal.rules (x : Nonterminal) : List Production := Production.all.filter fun p => p.lhs = x

theorem Nonterminal.mem_rules (p : Production) : p ∈ p.lhs.rules :=
  List.mem_filter.mpr ⟨p.mem_all, by simp⟩

/-! ## Induction over derivations -/

/-- Every derivation of a list has a property. -/
def Forest.All (P : (s : Sym) → Derivation s → Prop) : {ss : List Sym} → Forest ss → Prop
  | _, .nil => True
  | _, .cons (s := s) head tail => P s head ∧ tail.All P

mutual

/-- What holds of tokens, and of a phrase if it holds of its parts, holds of every derivation. -/
theorem Derivation.induct {P : (s : Sym) → Derivation s → Prop} (leaf : ∀ t : Token, P (.t t.kind) (.leaf t))
    (node : ∀ (p : Production) (f : Forest p.rhs), f.All P → P (.n p.lhs) (.node p f)) :
    {s : Sym} → (d : Derivation s) → P s d
  | _, .leaf t => leaf t
  | _, .node p f => node p f (f.induct leaf node)

theorem Forest.induct {P : (s : Sym) → Derivation s → Prop} (leaf : ∀ t : Token, P (.t t.kind) (.leaf t))
    (node : ∀ (p : Production) (f : Forest p.rhs), f.All P → P (.n p.lhs) (.node p f)) :
    {ss : List Sym} → (f : Forest ss) → f.All P
  | _, .nil => trivial
  | _, .cons d f => ⟨d.induct leaf node, f.induct leaf node⟩

end

mutual

/-- What the rules pass on from a class of phrases to their parts holds of the tokens of a phrase. -/
theorem Derivation.forall_tokens {P : Sym → Prop} (hP : ∀ p : Production, P (.n p.lhs) → ∀ s ∈ p.rhs, P s) :
    {s : Sym} → (d : Derivation s) → P s → ∀ t ∈ d.tokens, P (.t t.kind)
  | _, .leaf _, h, t', ht' => by
    obtain rfl := List.mem_singleton.mp ht'
    exact h
  | _, .node p f, h, t, ht => f.forall_tokens hP (hP p h) t ht

theorem Forest.forall_tokens {P : Sym → Prop} (hP : ∀ p : Production, P (.n p.lhs) → ∀ s ∈ p.rhs, P s) :
    {ss : List Sym} → (f : Forest ss) → (∀ s ∈ ss, P s) → ∀ t ∈ f.tokens, P (.t t.kind)
  | _, .nil, _, t, ht => nomatch ht
  | _, .cons d f, h, t, ht => by
    obtain ⟨hd, hf⟩ := List.forall_mem_cons.mp h
    obtain ht | ht := List.mem_append.mp ht
    · exact d.forall_tokens hP hd t ht
    · exact f.forall_tokens hP hf t ht

end

/-! ## First tokens -/

/-- What a phrase can begin with. -/
def Nonterminal.starts : Nonterminal → List Kind
  | .unit | .decls | .decl => [.constKw, .varKw, .structKw, .funKw]
  | .constDecl => [.constKw]
  | .constRef => [.name]
  | .varDecl | .param => [.varKw]
  | .structDecl => [.structKw]
  | .funDecl => [.funKw]
  | .fields | .params | .types | .args | .exprs => [.comma]
  | .type | .baseType | .typeArg => [.intKw, .floatKw, .byteKw, .voidKw, .name]
  | .primitive => [.intKw, .floatKw, .byteKw, .voidKw]
  | .arraySize => [.integer, .name]
  | .block => [.openBrace]
  | .stmts | .stmt =>
    [.varKw, .name, .builtin, .ifKw, .whileKw, .breakKw, .continueKw, .labelKw, .gotoKw, .openBrace]
  | .assignStmt | .callStmt | .chain => [.name, .builtin]
  | .ifStmt => [.ifKw]
  | .whileStmt => [.whileKw]
  | .breakStmt => [.breakKw]
  | .continueStmt => [.continueKw]
  | .labelStmt => [.labelKw]
  | .gotoStmt => [.gotoKw]
  | .expr => [.name, .builtin, .integer, .real, .byte, .char, .spacedBracket, .bracket]
  | .arg =>
    [.name, .builtin, .integer, .real, .byte, .char, .spacedBracket, .bracket, .intKw, .floatKw, .byteKw,
      .voidKw]
  | .suffixes | .suffix => [.bracket, .paren]
  | .indexSuffix => [.bracket]
  | .callSuffix => [.paren]
  | .composite | .opener => [.spacedBracket, .bracket]
  | .literal => [.integer, .real, .byte, .char]

/-- What a symbol can begin with. -/
def Sym.starts : Sym → List Kind
  | .t kind => [kind]
  | .n x => x.starts

/-- The first symbol of a rule, and what it begins with, which is what the phrase begins with. -/
theorem Production.head_starts (p : Production) (hp : p.lhs ≠ .unit) :
    ∃ s ss, p.rhs = s :: ss ∧ s ≠ .n .unit ∧ ∀ kind ∈ s.starts, kind ∈ p.lhs.starts := by
  revert hp
  cases p <;> intro hp <;> first | exact absurd rfl hp | exact ⟨_, _, rfl, by decide, by decide⟩

/-- Only the class of whole units stands on no right-hand side. -/
theorem Production.unit_not_mem_rhs (p : Production) : Sym.n .unit ∉ p.rhs := by
  cases p <;> decide

mutual

/-- A phrase other than a unit begins with a token of a kind among its starts. -/
theorem Derivation.head_mem_starts : {s : Sym} → (d : Derivation s) → s ≠ .n .unit →
    ∃ t ts, d.tokens = t :: ts ∧ t.kind ∈ s.starts
  | _, .leaf t, _ => ⟨t, [], rfl, by simp [Sym.starts]⟩
  | _, .node p f, hs => by
    obtain ⟨s, ss, hr, hu, hmem⟩ := p.head_starts (by simpa using hs)
    obtain ⟨t, ts, ht, hk⟩ := f.head_mem_starts hr hu
    exact ⟨t, ts, by rw [Derivation.tokens, ht], hmem _ hk⟩

theorem Forest.head_mem_starts : {ss : List Sym} → (f : Forest ss) → {s : Sym} → {rest : List Sym} →
    ss = s :: rest → s ≠ .n .unit → ∃ t ts, f.tokens = t :: ts ∧ t.kind ∈ s.starts
  | _, .nil, _, _, h, _ => by cases h
  | _, .cons d f, s, rest, h, hu => by
    obtain ⟨rfl, rfl⟩ := List.cons.inj h
    obtain ⟨t, ts, ht, hk⟩ := d.head_mem_starts hu
    exact ⟨t, ts ++ f.tokens, by rw [Forest.tokens, ht, List.cons_append], hk⟩

end

/-! ## Kinds alone matter -/

/-- A token as a derivation of its kind. -/
theorem exists_leaf {kind : Kind} (t : Token) (h : t.kind = kind) : ∃ d : Derivation (.t kind), d.tokens = [t] := by
  subst h
  exact ⟨.leaf t, rfl⟩

mutual

/-- A derivation with the tokens of another list in place of its own, if they are of the same kinds. -/
theorem Derivation.exists_relabelled : {s : Sym} → (d : Derivation s) → (ts : List Token) →
    ts.map Token.kind = d.tokens.map Token.kind → ∃ d' : Derivation s, d'.tokens = ts
  | _, .leaf token, ts, h => by
    obtain ⟨t, rfl, hk⟩ := List.map_eq_singleton_iff.mp h
    exact exists_leaf t hk
  | _, .node p f, ts, h => by
    obtain ⟨f', hf⟩ := f.exists_relabelled ts h
    exact ⟨.node p f', hf⟩

theorem Forest.exists_relabelled : {ss : List Sym} → (f : Forest ss) → (ts : List Token) →
    ts.map Token.kind = f.tokens.map Token.kind → ∃ f' : Forest ss, f'.tokens = ts
  | _, .nil, ts, h => ⟨.nil, (List.map_eq_nil_iff.mp h).symm⟩
  | _, .cons d f, ts, h => by
    rw [Forest.tokens, List.map_append] at h
    obtain ⟨ts₁, ts₂, rfl, h₁, h₂⟩ := List.map_eq_append_iff.mp h
    obtain ⟨d', hd⟩ := d.exists_relabelled ts₁ h₁
    obtain ⟨f', hf⟩ := f.exists_relabelled ts₂ h₂
    exact ⟨.cons d' f', by rw [Forest.tokens, hd, hf]⟩

end

/-- The derivable lists of kinds are those of which some tokens are derived, and then any tokens of these kinds. -/
theorem derives_map_kind {s : Sym} {ts : List Token} :
    Derives s (ts.map Token.kind) ↔ ∃ d : Derivation s, d.tokens = ts := by
  constructor
  · rintro ⟨d, hd⟩
    exact d.exists_relabelled ts hd.symm
  · rintro ⟨d, rfl⟩
    exact ⟨d, rfl⟩

/-- A token of a kind without a text and without a place. -/
def blankToken (kind : Kind) : Token := { kind, lexeme := "", start := {}, stop := {} }

mutual

/-- A derivation without the texts and places of its tokens. -/
def Derivation.blank : {s : Sym} → Derivation s → Derivation s
  | _, .leaf token => .leaf (blankToken token.kind)
  | _, .node p children => .node p children.blank

def Forest.blank : {ss : List Sym} → Forest ss → Forest ss
  | _, .nil => .nil
  | _, .cons head tail => .cons head.blank tail.blank

end

mutual

theorem Derivation.tokens_blank : {s : Sym} → (d : Derivation s) →
    d.blank.tokens = (d.tokens.map Token.kind).map blankToken
  | _, .leaf _ => rfl
  | _, .node _ f => f.tokens_blank

theorem Forest.tokens_blank : {ss : List Sym} → (f : Forest ss) →
    f.blank.tokens = (f.tokens.map Token.kind).map blankToken
  | _, .nil => rfl
  | _, .cons d f => by
    rw [Forest.blank, Forest.tokens, Forest.tokens, List.map_append, List.map_append, d.tokens_blank,
      f.tokens_blank]

end

end Grammar

namespace Kind

/-- The kind of a bracket that opens. -/
def isOpening : Kind → Bool
  | bracket | spacedBracket | paren => true
  | _ => false

/-- The kind of a bracket that closes. -/
def isClosing : Kind → Bool
  | closeBracket | closeParen => true
  | _ => false

/-- A member of a list ends here, if no bracket of it is open. With `stars`, it ends at stars too. -/
def isEnd (stars : Bool) : Kind → Bool
  | comma => true
  | star => stars
  | kind => kind.isClosing

/-- How many brackets are open behind a token, if so many are in front of it and the token is no end. -/
def level? (stars : Bool) (kind : Kind) : Nat → Option Nat
  | 0 => if kind.isOpening then some 1 else if kind.isEnd stars then none else some 0
  | n + 1 => some (if kind.isOpening then n + 2 else if kind.isClosing then n else n + 1)

theorem level?_eq_none {stars : Bool} {kind : Kind} (h : kind.isEnd stars = true) : kind.level? stars 0 = none := by
  cases kind <;> first | rfl | exact if_pos h

end Kind

/-- The tokens in front of the first end, where some brackets are open. -/
def inside (stars : Bool) : Nat → List Token → List Token
  | _, [] => []
  | n, t :: ts =>
    match t.kind.level? stars n with
    | none => []
    | some m => t :: inside stars m ts

theorem inside_cons {stars : Bool} {n m : Nat} {t : Token} (h : t.kind.level? stars n = some m) (ts : List Token) :
    inside stars n (t :: ts) = t :: inside stars m ts := by
  rw [inside, h]

theorem inside_end {stars : Bool} {t : Token} (h : t.kind.isEnd stars = true) (ts : List Token) :
    inside stars 0 (t :: ts) = [] := by
  rw [inside, Kind.level?_eq_none h]

namespace Grammar

variable {stars : Bool} {n m : Nat}

/-- Phrases of a class have no end that is outside of their brackets. -/
def Nonterminal.isWhole (stars : Bool) : Nonterminal → Bool
  | .fields | .params | .types | .args | .exprs => false
  | .expr | .chain | .suffixes | .suffix | .indexSuffix | .callSuffix | .composite | .literal | .opener | .primitive | .baseType
  | .arraySize => true
  | _ => !stars

/-- How many brackets are open behind a phrase, if so many are in front of it and it has no end. -/
def Sym.level? (stars : Bool) : Sym → Nat → Option Nat
  | .t kind, n => kind.level? stars n
  | .n .opener, n => some (n + 1)
  | .n x, 0 => if x.isWhole stars then some 0 else none
  | .n _, n + 1 => some (n + 1)

/-- How many brackets are open behind phrases in a row. -/
def levels? (stars : Bool) : Nat → List Sym → Option Nat
  | n, [] => some n
  | n, s :: ss =>
    match s.level? stars n with
    | none => none
    | some m => levels? stars m ss

/-- A rule opens and closes what the phrase does that it makes. -/
theorem Production.levels?_rhs (p : Production) (h : (Sym.n p.lhs).level? stars n = some m) :
    levels? stars n p.rhs = some m := by
  cases p <;> cases stars <;> cases n <;> first | exact h | cases h

mutual

/-- A phrase without an end is all in front of the end, wherever it stands. -/
theorem Derivation.inside_append : {s : Sym} → (d : Derivation s) → {n m : Nat} → s.level? stars n = some m →
    (rest : List Token) → inside stars n (d.tokens ++ rest) = d.tokens ++ inside stars m rest
  | _, .leaf _, _, _, h, rest => inside_cons h rest
  | _, .node p f, _, _, h, rest => f.inside_append (p.levels?_rhs h) rest

theorem Forest.inside_append : {ss : List Sym} → (f : Forest ss) → {n m : Nat} → levels? stars n ss = some m →
    (rest : List Token) → inside stars n (f.tokens ++ rest) = f.tokens ++ inside stars m rest
  | _, .nil, _, _, h, rest => by
    obtain rfl := Option.some.inj h
    rfl
  | _, .cons (s := s) d f, n, m, h, rest => by
    cases hs : s.level? stars n with
    | none =>
      rw [levels?, hs] at h
      cases h
    | some m' =>
      rw [levels?, hs] at h
      rw [Forest.tokens, List.append_assoc, d.inside_append hs, f.inside_append h, List.append_assoc]

end

def Sym.isToken : Sym → Bool
  | .t _ => true
  | .n _ => false

/-- One of the symbols in a row is an end. -/
def isCut (stars : Bool) : Nat → List Sym → Bool
  | _, [] => false
  | n, s :: ss =>
    match s.level? stars n with
    | none => s.isToken
    | some m => isCut stars m ss

/-- Not all of phrases in a row is in front of the end that is among them. -/
theorem Forest.inside_lt : {ss : List Sym} → (f : Forest ss) → {n : Nat} → isCut stars n ss = true → (rest : List Token) →
    (inside stars n (f.tokens ++ rest)).length < f.tokens.length
  | _, .nil, _, h, _ => nomatch h
  | _, .cons (s := s) d f, n, h, rest => by
    rw [Forest.tokens, List.append_assoc, List.length_append]
    cases hs : s.level? stars n with
    | none =>
      rw [isCut, hs] at h
      cases d with
      | leaf t =>
        have hkind : t.kind.level? stars n = none := hs
        rw [Derivation.tokens, List.singleton_append, inside, hkind, List.length_nil]
        exact Nat.add_pos_left Nat.one_pos _
      | node p f => cases h
    | some m =>
      rw [isCut, hs] at h
      rw [d.inside_append hs, List.length_append]
      exact Nat.add_lt_add_left (f.inside_lt h rest) _

/-- Two phrases without an end are the same tokens, if the same tokens begin with either and an end behind it. -/
theorem Derivation.tokens_eq_of_append {s s' : Sym} {d : Derivation s} {d' : Derivation s'} (hs : s.level? stars 0 = some 0)
    (hs' : s'.level? stars 0 = some 0) {t t' : Token} (ht : t.kind.isEnd stars = true) (ht' : t'.kind.isEnd stars = true)
    {ts ts' : List Token} (h : d.tokens ++ t :: ts = d'.tokens ++ t' :: ts') : d.tokens = d'.tokens := by
  have hinside := congrArg (inside stars 0) h
  rwa [d.inside_append hs, d'.inside_append hs', inside_end ht, inside_end ht', List.append_nil, List.append_nil] at hinside

end Grammar

end FlatScope
