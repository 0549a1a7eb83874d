/-
  What can come next. With a stack for the tokens read so far, a kind can come next exactly if the parser does not reject it
  once it has made its reductions (`Stack.IsAfter.isBeginning_iff`). Which kinds a state takes is read off a single row of
  the table, and the reductions may still end in a state that does not take them. A set of states keeps a kind
  (`Table.Keeps`) if all of them take it, and so does whatever state a reduction in front of it leads to: from such
  a state the kind is not rejected any more.
-/
import FlatScope.Proofs.Rejection

namespace FlatScope.Grammar

/-! ## The stack in front of a rejected token -/

theorem Settles.ne_stuck {stack : Stack} {kind : Kind} {r : Settled} (h : Settles table kind stack r)
    (hpath : stack.IsPath table) : r ≠ .stuck := by
  rintro rfl
  exact h.isPath table_isCoherent hpath

namespace Stack.IsAfter

variable {stack : Stack} {before : List Token} {kind : Kind}

/-- A kind can come next exactly if the parser does not reject it. -/
theorem isBeginning_iff (h : stack.IsAfter before) :
    IsBeginning (before.map Token.kind ++ [kind]) ↔ ∀ state, settle table kind stack ≠ .reject state := by
  refine ⟨fun hb state hs => h.reject hs hb, fun hs => ?_⟩
  cases hr : settle table kind stack with
  | shift next stack' =>
    have hviable := (@shift stack before (blankToken kind) next stack' h hr).viable
    rw [List.map_append] at hviable
    exact Grammar.isBeginning_iff.mpr (.inl hviable)
  | accept unit =>
    obtain ⟨rfl, hsentence⟩ := h.accept hr
    exact isBeginning_end.mpr hsentence
  | reject state => exact absurd hr (hs state)
  | stuck => exact absurd hr ((settles table kind stack).ne_stuck h.path)

end Stack.IsAfter

/-- A stack is what the parser has after some tokens, with the last of them on top. -/
structure Stack.IsRead (before : List Token) (stack : Stack) : Prop extends stack.IsAfter before where
  top : stack.head?.map Entry.symbol = before.getLast?.map fun t => .t t.kind

theorem Stack.IsRead.nil : IsRead [] [] := ⟨.nil, rfl⟩

theorem Stack.IsRead.shift {stack stack' : Stack} {before : List Token} {t : Token} {next : Nat} (h : IsRead before stack)
    (hs : settle table t.kind stack = .shift next stack') :
    IsRead (before ++ [t]) (⟨next, .t t.kind, .leaf t⟩ :: stack') :=
  ⟨h.toIsAfter.shift hs, by rw [List.getLast?_concat]; rfl⟩

/-- What the parser has in front of the token that it rejects: a stack for the tokens before, or the end of the input,
behind which nothing is expected. -/
theorem exists_isRead_of_rejection? {stack : Stack} {before tokens : List Token} {i : Nat} (ha : stack.IsRead before)
    (h : rejection? table stack tokens = some i) :
    (∃ stack' state, Stack.IsRead (before ++ tokens.take i) stack'
      ∧ settle table (ahead (tokens.drop i)) stack' = .reject state
      ∧ parseOn table stack tokens = .rejected tokens[i]? (table.expected state))
    ∨ (∃ kinds, (before ++ tokens.take i).map Token.kind = kinds ++ [.endOfInput])
      ∧ parseOn table stack tokens = .rejected tokens[i]? [] := by
  induction tokens generalizing stack before i with
  | nil =>
    rw [rejection?] at h
    split at h
    · rename_i state hs
      obtain rfl := Option.some.inj h
      exact .inl ⟨stack, state, by rwa [List.take_zero, List.append_nil], hs, by rw [parseOn, hs]; rfl⟩
    · cases h
  | cons t ts ih =>
    rw [rejection?] at h
    split at h
    · rename_i next stack' hs
      obtain ⟨j, hj, rfl⟩ := Option.map_eq_some_iff.mp h
      have hstep := ih (ha.shift hs) hj
      rw [List.append_assoc] at hstep
      rw [parseOn, hs]
      exact hstep
    · rename_i state hs
      obtain rfl := Option.some.inj h
      exact .inl ⟨stack, state, by rwa [List.take_zero, List.append_nil], hs, by rw [parseOn, hs]; rfl⟩
    · rename_i unit hs
      obtain rfl := Option.some.inj h
      obtain ⟨hk, -⟩ := ha.accept hs
      refine .inr ⟨⟨before.map Token.kind, ?_⟩, ?_⟩
      · rw [List.map_append, ← hk]
        rfl
      · rw [parseOn, hs, List.getElem?_cons_succ, List.head?_eq_getElem?]
    · cases h

/-- Kinds can be extended to a sentence exactly if nothing is rejected among them. -/
theorem isBeginning_take_iff {tokens : List Token} {n : Nat} :
    IsBeginning ((kindsToEnd tokens).take n) ↔ ∀ i, rejection? table [] tokens = some i → n ≤ i := by
  constructor
  · intro h i hi
    exact Nat.le_of_not_lt fun hlt => (rejection?_eq_some_iff.mp hi).2 (h.take hlt)
  · intro h
    cases hr : rejection? table [] tokens with
    | none =>
      have hall := isBeginning_of_rejection?_eq_none hr
      rw [← List.take_append_drop n (kindsToEnd tokens)] at hall
      exact hall.of_append
    | some i => exact (rejection?_eq_some_iff.mp hr).1.take (h i hr)

/-! ## Sets of states that keep a kind -/

namespace Table

/-- All states of a set take a kind, also when they reduced in front of it. -/
structure Keeps (table : Table) (kind : Kind) (within : Nat → Bool) : Prop where
  takes : ∀ {q}, within q = true → table.action q kind ≠ .reject
  goes : ∀ {q p r q'}, within q = true → table.action q kind = .reduce p → table.goto? r p.lhs = some q' →
    within q' = true

/-- The classes that states of a set reduce to in front of a kind. -/
def reduced (table : Table) (kind : Kind) (within : Nat → Bool) : List Nonterminal :=
  (List.range table.rows.size).filterMap fun q =>
    match within q, table.action q kind with
    | true, .reduce p => some p.lhs
    | _, _ => none

/-- The test whether a set of states keeps a kind that all of them take. -/
def checkKeeps (table : Table) (kind : Kind) (within : Nat → Bool) : Bool :=
  (List.range table.rows.size).all fun r => (table.row r).moves.all fun m =>
    match m.1 with
    | .t _ => true
    | .n x => !(table.reduced kind within).contains x || within m.2

variable {table : Table} {kind : Kind} {within : Nat → Bool}

theorem mem_reduced {q : Nat} {p : Production} (hq : within q = true) (ha : table.action q kind = .reduce p) :
    p.lhs ∈ table.reduced kind within := by
  obtain ⟨r, hr, -⟩ := mem_reductions ha
  refine List.mem_filterMap.mpr ⟨q, List.mem_range.mpr (lt_size_of_reduction hr), ?_⟩
  rw [hq, ha]

theorem keeps_of_check (htakes : ∀ {q}, within q = true → table.action q kind ≠ .reject)
    (h : table.checkKeeps kind within = true) : table.Keeps kind within := by
  refine ⟨htakes, fun {q p r q'} hq ha hg => ?_⟩
  have hm := mem_moves hg
  have hall := List.all_eq_true.mp (List.all_eq_true.mp h r (List.mem_range.mpr (lt_size_of_move hm))) _ hm
  simp only [Bool.or_eq_true, Bool.not_eq_true', List.contains_iff_mem, Bool.eq_false_iff, ne_eq] at hall
  exact hall.resolve_left fun hn => hn (mem_reduced hq ha)

/-- From a state of such a set the kind is not rejected any more. -/
theorem Keeps.ne_reject (h : table.Keeps kind within) {stack : Stack} {r : Settled} (hr : Settles table kind stack r)
    (hs : within stack.state = true) (state : Nat) : r ≠ .reject state := by
  induction hr with
  | reject ha => exact absurd ha (h.takes hs)
  | shift | accept | stuck => nofun
  | reduce hr _ ih =>
    cases hr with
    | intro ha _ _ hq => exact ih (h.goes hs ha hq)

end Table

end FlatScope.Grammar

namespace FlatScope

open Grammar

theorem SyntaxFault.expected_ofRejection (found : Kind) (lexeme : String) (expected : List Kind) :
    (ofRejection found lexeme expected).expected = expected := by
  rw [ofRejection]
  split <;> rfl

theorem SyntaxError.fault_ofRejection (file : Option String) (tokens : List Token) (rejected : Option Token)
    (expected : List Kind) :
    (ofRejection file tokens rejected expected).fault
      = .ofRejection ((rejected.map Token.kind).getD .endOfInput) ((rejected.map Token.lexeme).getD "") expected := by
  cases rejected <;> rfl

/-- What the parser expects in place of the rejected token. -/
theorem Program.exists_expected (file : Option String) {tokens : List Token} {i : Nat}
    (h : rejection? table [] tokens = some i) :
    ∃ expected, ofTokens file tokens = .error (.syntactic (.ofRejection file tokens tokens[i]? expected))
      ∧ ((∃ stack state, Stack.IsRead (tokens.take i) stack
          ∧ settle table (ahead (tokens.drop i)) stack = .reject state ∧ expected = table.expected state)
        ∨ (∃ kinds, (tokens.take i).map Token.kind = kinds ++ [.endOfInput]) ∧ expected = []) := by
  obtain ⟨stack, state, hread, hreject, hrun⟩ | ⟨hend, hrun⟩ := exists_isRead_of_rejection? .nil h
  · exact ⟨_, by rw [ofTokens, parseTokens, hrun], .inl ⟨stack, state, hread, hreject, rfl⟩⟩
  · exact ⟨_, by rw [ofTokens, parseTokens, hrun], .inr ⟨hend, rfl⟩⟩

end FlatScope
