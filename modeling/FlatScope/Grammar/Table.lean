/-
  Tables of a shift-reduce parser. A state of the parser has a row: where it moves to over each symbol, and which
  rules it reduces by, each with the kinds of the next token for which it does so.
-/
import FlatScope.Grammar.Production

namespace FlatScope.Grammar

/-- What the parser does in one state. -/
structure Row where
  moves : List (Sym × Nat)
  reductions : List (Production × List Kind)
deriving Repr, Inhabited

/-- What the parser does in every state. State 0 is the first. -/
structure Table where
  rows : Array Row

/-- What to do with the next token. -/
inductive Action
  | shift (state : Nat)
  | reduce (p : Production)
  | reject
deriving DecidableEq, Repr

namespace Table

/-- The row of a state; a state without a row does nothing. -/
def row (table : Table) (state : Nat) : Row := table.rows.getD state ⟨[], []⟩

/-- The rule to reduce by in front of a token, if any. -/
def reduction? (table : Table) (state : Nat) (kind : Kind) : Option Production :=
  ((table.row state).reductions.find? fun r => r.2.contains kind).map (·.1)

/-- What to do in a state in front of a token. -/
def action (table : Table) (state : Nat) (kind : Kind) : Action :=
  match (table.row state).moves.lookup (.t kind) with
  | some next => .shift next
  | none =>
    match table.reduction? state kind with
    | some p => .reduce p
    | none => .reject

/-- The state after a phrase. -/
def goto? (table : Table) (state : Nat) (phrase : Nonterminal) : Option Nat :=
  (table.row state).moves.lookup (.n phrase)

/-- The kinds of tokens that a state does not reject. -/
def expected (table : Table) (state : Nat) : List Kind :=
  Kind.all.filter fun kind => table.action state kind ≠ .reject

end Table

end FlatScope.Grammar
