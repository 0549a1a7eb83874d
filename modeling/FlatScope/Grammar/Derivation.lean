/-
  Derivations. A derivation of a symbol is a tree whose leaves are tokens and whose inner nodes are rules with a
  derivation for each symbol of the right-hand side; the symbol is part of the type, so that every value of it is
  a derivation. Its `tokens` are its leaves from left to right.
-/
import FlatScope.Grammar.Production
import FlatScope.Token.Basic

namespace FlatScope.Grammar

mutual

/-- How a symbol derives a list of tokens. -/
inductive Derivation : Sym → Type
  | leaf (token : Token) : Derivation (.t token.kind)
  | node (p : Production) (children : Forest p.rhs) : Derivation (.n p.lhs)

/-- How a list of symbols derives a list of tokens, symbol by symbol. -/
inductive Forest : List Sym → Type
  | nil : Forest []
  | cons {s : Sym} {ss : List Sym} (head : Derivation s) (tail : Forest ss) : Forest (s :: ss)

end

mutual

/-- The tokens that are derived. -/
def Derivation.tokens : {s : Sym} → Derivation s → List Token
  | _, .leaf token => [token]
  | _, .node _ children => children.tokens

def Forest.tokens : {ss : List Sym} → Forest ss → List Token
  | _, .nil => []
  | _, .cons head tail => head.tokens ++ tail.tokens

end

/-- A list of kinds is a phrase of a symbol if some derivation of it has tokens of these kinds. -/
def Derives (s : Sym) (kinds : List Kind) : Prop :=
  ∃ d : Derivation s, d.tokens.map Token.kind = kinds

/-- The sentences of the grammar: the phrases of a whole unit. -/
def Sentence (kinds : List Kind) : Prop := Derives (.n .unit) kinds

/-- The kinds are the beginning of a sentence. -/
def Viable (kinds : List Kind) : Prop := ∃ rest, Sentence (kinds ++ rest)

end FlatScope.Grammar
