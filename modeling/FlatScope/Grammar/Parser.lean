/-
  The shift-reduce parser. Its stack holds derivations of the symbols read so far, each with the state that follows
  it. In front of a token it reduces as long as the table says so; then it takes the token, ends or rejects it.
  Since a derivation carries its symbol in its type, what the parser accepts is a derivation by construction.
-/
import FlatScope.Grammar.Derivation
import FlatScope.Grammar.Table

namespace FlatScope.Grammar

/-- A derivation on the stack and the state that follows it. -/
structure Entry where
  state : Nat
  symbol : Sym
  derivation : Derivation symbol

/-- The stack, with its top first. -/
abbrev Stack := List Entry

namespace Stack

/-- The state of the parser. -/
def state : Stack → Nat
  | [] => 0
  | e :: _ => e.state

/-- The symbols on the stack, the last one first. -/
def symbols (stack : Stack) : List Sym := stack.map Entry.symbol

/-- What reducing makes less. -/
def weight (stack : Stack) : Nat := Grammar.weight stack.symbols

end Stack

/-- The derivations of entries as a forest for the given symbols, if these are the symbols of the entries. -/
def Forest.ofEntries? : (ss : List Sym) → List Entry → Option (Forest ss)
  | [], [] => some .nil
  | s :: ss, e :: es =>
    if h : e.symbol = s then (ofEntries? ss es).map (.cons (h ▸ e.derivation)) else none
  | _, _ => none

theorem Forest.symbols_of_ofEntries? {ss : List Sym} {es : List Entry} {f : Forest ss}
    (h : Forest.ofEntries? ss es = some f) : es.map Entry.symbol = ss := by
  induction ss generalizing es with
  | nil => cases es with
    | nil => rfl
    | cons e es => simp [ofEntries?] at h
  | cons s ss ih => cases es with
    | nil => simp [ofEntries?] at h
    | cons e es =>
      unfold ofEntries? at h
      split at h
      · obtain ⟨g, hg, -⟩ := Option.map_eq_some_iff.1 h
        simp_all
      · cases h

/-- The derivations for the right-hand side of a rule, taken from the top of the stack. -/
def Stack.top? (stack : Stack) (p : Production) : Option (Forest p.rhs) :=
  Forest.ofEntries? p.rhs (stack.take p.rhs.length).reverse

theorem Stack.weight_of_top? {stack : Stack} {p : Production} {f : Forest p.rhs}
    (h : stack.top? p = some f) :
    stack.weight = Grammar.weight p.rhs + Stack.weight (stack.drop p.rhs.length) := by
  have hs : ((stack.take p.rhs.length).reverse).map Entry.symbol = p.rhs :=
    Forest.symbols_of_ofEntries? h
  have hw : Grammar.weight p.rhs = Grammar.weight ((stack.take p.rhs.length).map Entry.symbol) := by
    rw [List.map_reverse] at hs
    rw [← weight_reverse ((stack.take _).map _), hs]
  rw [hw]
  unfold Stack.weight Stack.symbols
  rw [← weight_append, ← List.map_append, List.take_append_drop]

/-- What the parser does about a token after reducing. -/
inductive Settled
  | shift (state : Nat) (stack : Stack)
  | accept (unit : Derivation (.n .unit))
  | reject (state : Nat)
  /-- The table does not fit the grammar. -/
  | stuck

/-- Reduces in front of a token of the given kind until the table says something else. -/
def settle (table : Table) (kind : Kind) (stack : Stack) : Settled :=
  match table.action stack.state kind with
  | .shift next => .shift next stack
  | .reject => .reject stack.state
  | .reduce p =>
    match _h : stack.top? p with
    | none => .stuck
    | some children =>
      let rest : Stack := stack.drop p.rhs.length
      if unit : p.lhs = .unit then
        if rest.isEmpty then .accept (unit ▸ .node p children) else .stuck
      else
        match table.goto? rest.state p.lhs with
        | none => .stuck
        | some next => settle table kind (⟨next, .n p.lhs, .node p children⟩ :: rest)
termination_by stack.weight
decreasing_by
  rw [Stack.weight_of_top? _h]
  have := weight_lhs_lt p unit
  simp only [Stack.weight, Stack.symbols, List.map_cons, Grammar.weight] at this ⊢
  omega

/-- What comes of a list of tokens. A rejected token is missing if it is the end of the input. -/
inductive Outcome
  | accepted (unit : Derivation (.n .unit))
  | rejected (token : Option Token) (expected : List Kind)
  | stuck

/-- Parses the tokens that are left, on a stack for those before. -/
def parseOn (table : Table) (stack : Stack) : List Token → Outcome
  | [] =>
    match settle table .endOfInput stack with
    | .accept unit => .accepted unit
    | .reject state => .rejected none (table.expected state)
    | .shift .. | .stuck => .stuck
  | token :: tokens =>
    match settle table token.kind stack with
    | .shift next stack => parseOn table (⟨next, .t token.kind, .leaf token⟩ :: stack) tokens
    | .reject state => .rejected (some token) (table.expected state)
    | .accept _ => .rejected tokens.head? []
    | .stuck => .stuck

/-- Parses a list of tokens. -/
def parseTokens (table : Table) (tokens : List Token) : Outcome := parseOn table [] tokens

end FlatScope.Grammar
