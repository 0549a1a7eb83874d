/-
  The parser finds every derivation. A table is complete (`Table.IsComplete`) if from every state in which a phrase can
  begin there is a way over the symbols of each of its rules, at whose end the table reduces by the rule in front of
  every token that may follow the phrase. What may follow a phrase is read off the table itself
  (`Table.follows`), so that the condition can be checked state by state. `parseTokens_tokens`: with a complete
  table the parser accepts the tokens of every derivation of a unit and gives back that derivation.
-/
import FlatScope.Grammar.Parser
import FlatScope.Proofs.Grammar.Phrase

namespace FlatScope.Grammar

/-! ## Ways through a table -/

namespace Table

/-- The state after a symbol. -/
def next? (table : Table) (state : Nat) (s : Sym) : Option Nat := (table.row state).moves.lookup s

/-- The state after symbols. -/
def walk? (table : Table) (state : Nat) : List Sym → Option Nat
  | [] => some state
  | s :: ss => (table.next? state s).bind fun q => table.walk? q ss

/-- The table reduces by a rule in front of a kind, when the rule's symbols were read from a state on. -/
def reducesBy (table : Table) (state : Nat) (kind : Kind) (p : Production) : Bool :=
  match table.walk? state p.rhs with
  | some q => table.action q kind = .reduce p
  | none => false

/-- A phrase that begins in a state can be followed by a token of a kind: all its rules reduce in front of the kind,
and what comes after the phrase does not reject it. -/
def follows (table : Table) (state : Nat) (x : Nonterminal) (kind : Kind) : Bool :=
  (match table.goto? state x with
    | some q => table.action q kind ≠ .reject
    | none => false)
    && x.rules.all (table.reducesBy state kind)

/-- The symbols can be read from a state on, when they may be followed by the kinds in `after`. -/
def leads (table : Table) (after : Kind → Bool) (state : Nat) : List Sym → Bool
  | [] => true
  | s :: ss =>
    (match s, ss with
      | .t _, _ => true
      | .n x, [] => Kind.all.all fun kind => !after kind || table.follows state x kind
      | .n x, s' :: _ => s'.starts.all fun kind => table.follows state x kind)
      && match table.next? state s with
        | some q => table.leads after q ss
        | none => false

/-- A table that finds every derivation. -/
structure IsComplete (table : Table) : Prop where
  /-- Wherever a phrase can begin, each of its rules can be read. -/
  phrase : ∀ (state : Nat) (p : Production), (table.goto? state p.lhs).isSome →
    table.leads (table.follows state p.lhs) state p.rhs = true
  /-- The rules for a whole unit can be read from the first state on. -/
  unit : ∀ p ∈ Nonterminal.unit.rules, table.leads (· = .endOfInput) 0 p.rhs = true
    ∧ table.reducesBy 0 .endOfInput p = true

variable {table : Table} {state : Nat} {kind : Kind}

theorem goto?_eq_next? (x : Nonterminal) : table.goto? state x = table.next? state (.n x) := rfl

theorem action_of_next? {q : Nat} (h : table.next? state (.t kind) = some q) :
    table.action state kind = .shift q := by
  unfold action
  rw [show (table.row state).moves.lookup (.t kind) = some q from h]

theorem action_of_follows {p : Production} {q : Nat} (h : table.follows state p.lhs kind = true)
    (hq : table.walk? state p.rhs = some q) : table.action q kind = .reduce p := by
  simp only [follows, Bool.and_eq_true, List.all_eq_true] at h
  have hr := h.2 p (Nonterminal.mem_rules p)
  simpa [reducesBy, hq] using hr

end Table

/-! ## Derivations on the stack -/

/-- The kind of the next token. -/
def ahead : List Token → Kind
  | [] => .endOfInput
  | t :: _ => t.kind

/-- The entries for derivations that are read one after another from a state on. -/
def Forest.entries (table : Table) (state : Nat) : {ss : List Sym} → Forest ss → List Entry
  | _, .nil => []
  | s :: _, .cons d f =>
    let q := (table.next? state s).getD 0
    ⟨q, s, d⟩ :: f.entries table q

variable {table : Table}

theorem Forest.ofEntries?_entries (state : Nat) : {ss : List Sym} → (f : Forest ss) →
    Forest.ofEntries? ss (f.entries table state) = some f
  | _, .nil => rfl
  | s :: _, .cons d f => by
    unfold Forest.entries Forest.ofEntries?
    rw [dif_pos rfl, ofEntries?_entries _ f]
    rfl

theorem Forest.length_entries (state : Nat) : {ss : List Sym} → (f : Forest ss) →
    (f.entries table state).length = ss.length
  | _, .nil => rfl
  | _ :: _, .cons _ f => by
    unfold Forest.entries
    rw [List.length_cons, List.length_cons, length_entries _ f]

/-- The derivations of a right-hand side are taken back from the top of the stack. -/
theorem Stack.top?_entries (state : Nat) (p : Production) (f : Forest p.rhs) (stack : Stack) :
    Stack.top? ((f.entries table state).reverse ++ stack : Stack) p = some f := by
  unfold Stack.top?
  have hl : p.rhs.length = (f.entries table state).reverse.length := by
    rw [List.length_reverse, Forest.length_entries]
  rw [hl, List.take_left, List.reverse_reverse, Forest.ofEntries?_entries]

theorem Stack.drop_entries (state : Nat) (p : Production) (f : Forest p.rhs) (stack : Stack) :
    ((f.entries table state).reverse ++ stack : Stack).drop p.rhs.length = stack := by
  have hl : p.rhs.length = (f.entries table state).reverse.length := by
    rw [List.length_reverse, Forest.length_entries]
  rw [hl, List.drop_left]

/-- The state above entries is the one at the end of their way. -/
theorem Stack.state_entries (stack : Stack) : {ss : List Sym} → (f : Forest ss) → {state q : Nat} →
    stack.state = state → table.walk? state ss = some q →
    Stack.state ((f.entries table state).reverse ++ stack : Stack) = q
  | _, .nil, _, _, hs, hq => hs.trans (Option.some.inj hq)
  | _ :: _, .cons d f, state, q, _, hq => by
    obtain ⟨q', hq', hw⟩ := Option.bind_eq_some_iff.mp hq
    unfold Forest.entries
    simp only [hq', Option.getD_some, List.reverse_cons, List.append_assoc, List.singleton_append]
    exact Stack.state_entries _ f rfl hw

/-! ## One step of the parser -/

theorem settle_shift {kind : Kind} {stack : Stack} {q : Nat} (h : table.next? stack.state (.t kind) = some q) :
    settle table kind stack = .shift q stack := by
  unfold settle
  rw [Table.action_of_next? h]

/-- What the parser does in front of a token that makes the table reduce by a rule, if the stack fits the rule. -/
theorem settle_of_top? {kind : Kind} {stack : Stack} {p : Production} {f : Forest p.rhs}
    (ha : table.action stack.state kind = .reduce p) (ht : stack.top? p = some f) :
    settle table kind stack =
      if hu : p.lhs = .unit then
        if (stack.drop p.rhs.length).isEmpty then .accept (hu ▸ .node p f) else .stuck
      else
        match table.goto? (Stack.state (stack.drop p.rhs.length)) p.lhs with
        | none => .stuck
        | some q => settle table kind (⟨q, .n p.lhs, .node p f⟩ :: stack.drop p.rhs.length) := by
  rw [settle]
  split
  · rename_i h; rw [ha] at h; cases h
  · rename_i h; rw [ha] at h; cases h
  · rename_i p' h
    obtain rfl := Action.reduce.inj (ha.symm.trans h)
    split
    · rename_i h'; rw [ht] at h'; cases h'
    · rename_i f' h'
      obtain rfl := Option.some.inj (ht.symm.trans h')
      rfl

/-- In front of a token that makes the table reduce by a rule, its derivations become one. -/
theorem settle_reduce {kind : Kind} {stack : Stack} {p : Production} {f : Forest p.rhs} {q : Nat}
    (ha : table.action stack.state kind = .reduce p) (ht : stack.top? p = some f) (hu : p.lhs ≠ .unit)
    (hq : table.goto? (Stack.state (stack.drop p.rhs.length)) p.lhs = some q) :
    settle table kind stack = settle table kind (⟨q, .n p.lhs, .node p f⟩ :: stack.drop p.rhs.length) := by
  rw [settle_of_top? ha ht, dif_neg hu, hq]

/-- At the end of the input, what makes a whole unit is accepted. -/
theorem settle_accept {kind : Kind} {stack : Stack} {p : Production} {f : Forest p.rhs} (hu : p.lhs = .unit)
    (ha : table.action stack.state kind = .reduce p) (ht : stack.top? p = some f)
    (he : stack.drop p.rhs.length = []) :
    settle table kind stack = .accept (hu ▸ .node p f) := by
  rw [settle_of_top? ha ht, dif_pos hu, he]
  rfl

/-- What the parser does from here on depends only on how it settles in front of the next token. -/
theorem parseOn_congr {stack stack' : Stack} {tokens : List Token}
    (h : settle table (ahead tokens) stack = settle table (ahead tokens) stack') :
    parseOn table stack tokens = parseOn table stack' tokens := by
  cases tokens with
  | nil => unfold parseOn; rw [show settle table .endOfInput stack = _ from h]; rfl
  | cons t ts => unfold parseOn; rw [show settle table t.kind stack = _ from h]; rfl

/-! ## Runs over derivations -/

/-- The kind ahead of a phrase that is not empty. -/
theorem ahead_tokens_mem {s : Sym} {ss : List Sym} (f : Forest (s :: ss)) (hs : s ≠ .n .unit)
    (rest : List Token) : ahead (f.tokens ++ rest) ∈ s.starts := by
  obtain ⟨t, ts, ht, hk⟩ := f.head_mem_starts rfl hs
  rw [ht]
  exact hk

mutual

/-- The parser reads the tokens of a phrase and puts its derivation on the stack, if the phrase can begin in its state
and may be followed by what comes next. -/
theorem parseOn_derivation (hc : table.IsComplete) : {s : Sym} → (d : Derivation s) → (stack : Stack) →
    (rest : List Token) → {q : Nat} → table.next? stack.state s = some q → s ≠ .n .unit →
    (∀ x, s = .n x → table.follows stack.state x (ahead rest) = true) →
    parseOn table stack (d.tokens ++ rest) = parseOn table (⟨q, s, d⟩ :: stack) rest
  | _, .leaf t, stack, rest, q, hq, _, _ => by
    show parseOn table stack (t :: rest) = _
    rw [parseOn, settle_shift hq]
  | _, .node p f, stack, rest, q, hq, hu, hf => by
    have hfollow := hf _ rfl
    have hlead := hc.phrase stack.state p (by rw [Table.goto?_eq_next?, hq]; rfl)
    obtain ⟨hrun, q', hw⟩ := parseOn_forest hc f stack rest
      (fun s hs he => p.unit_not_mem_rhs (he ▸ hs)) hlead hfollow
    rw [Derivation.tokens, hrun]
    -- all parts are on the stack, and the table reduces by the rule
    refine parseOn_congr ?_
    have ha := Table.action_of_follows hfollow hw
    rw [← Stack.state_entries stack f rfl hw] at ha
    rw [settle_reduce ha (Stack.top?_entries _ p f stack) (fun h => hu (congrArg _ h))
      (by rw [Stack.drop_entries]; exact hq), Stack.drop_entries]

/-- The parser reads the tokens of phrases in a row. -/
theorem parseOn_forest (hc : table.IsComplete) : {ss : List Sym} → (f : Forest ss) → (stack : Stack) →
    (rest : List Token) → {after : Kind → Bool} → (∀ s ∈ ss, s ≠ .n .unit) →
    table.leads after stack.state ss = true → after (ahead rest) = true →
    parseOn table stack (f.tokens ++ rest)
        = parseOn table ((f.entries table stack.state).reverse ++ stack) rest
      ∧ ∃ q, table.walk? stack.state ss = some q
  | _, .nil, stack, rest, _, _, _, _ => ⟨rfl, stack.state, rfl⟩
  | _, @Forest.cons s ss d f, stack, rest, after, hu, hl, ha => by
    simp only [Table.leads, Bool.and_eq_true] at hl
    obtain ⟨hhead, htail⟩ := hl
    cases hq : table.next? stack.state s with
    | none => rw [hq] at htail; cases htail
    | some q =>
      rw [hq] at htail
      have hs : s ≠ .n .unit := hu s List.mem_cons_self
      have hfollow : ∀ x, s = .n x → table.follows stack.state x (ahead (f.tokens ++ rest)) = true := by
        rintro x rfl
        cases ss with
        | nil =>
          cases f
          have := List.all_eq_true.mp hhead (ahead rest) (Kind.mem_all _)
          simpa [ha, Forest.tokens] using this
        | cons s' ss' =>
          exact List.all_eq_true.mp hhead _
            (ahead_tokens_mem f (hu s' (List.mem_cons_of_mem _ List.mem_cons_self)) rest)
      have hrun := parseOn_derivation hc d stack (f.tokens ++ rest) hq hs hfollow
      obtain ⟨hrest, q', hw⟩ := parseOn_forest hc f (⟨q, s, d⟩ :: stack) rest
        (fun s' hs' => hu s' (List.mem_cons_of_mem _ hs')) htail ha
      refine ⟨?_, q', ?_⟩
      · rw [Forest.tokens, List.append_assoc, hrun, hrest]
        simp only [Forest.entries, hq, Option.getD_some, List.reverse_cons, List.append_assoc,
          List.singleton_append]
        rfl
      · simp only [Table.walk?, hq, Option.bind_some]
        exact hw

end

theorem Derivation.cast_node {p : Production} {x : Nonterminal} (h : p.lhs = x) (hs : Sym.n p.lhs = .n x)
    (f : Forest p.rhs) : (h ▸ .node p f : Derivation (.n x)) = hs ▸ .node p f := by
  subst h
  rfl

/-- The parser accepts the tokens of every derivation of a unit, and it finds this derivation. -/
theorem parseTokens_tokens (hc : table.IsComplete) (d : Derivation (.n .unit)) :
    parseTokens table d.tokens = .accepted d := by
  suffices h : ∀ {s : Sym} (d : Derivation s) (hs : s = .n .unit),
      parseTokens table d.tokens = .accepted (hs ▸ d) from h d rfl
  intro s d hs
  cases d with
  | leaf t => cases hs
  | node p f =>
    have hu : p.lhs = .unit := by simpa using hs
    obtain ⟨hl, hr⟩ := hc.unit p (hu ▸ Nonterminal.mem_rules p)
    obtain ⟨hrun, q, hw⟩ := parseOn_forest hc f [] []
      (fun s hs he => p.unit_not_mem_rhs (he ▸ hs)) hl (by simp [ahead])
    have ha : table.action q .endOfInput = .reduce p := by
      simpa [Table.reducesBy, show table.walk? 0 p.rhs = some q from hw] using hr
    rw [← Stack.state_entries [] f rfl hw] at ha
    have hacc := settle_accept hu ha (Stack.top?_entries _ p f [])
      (Stack.drop_entries _ p f [])
    rw [List.append_nil] at hrun
    rw [parseTokens, Derivation.tokens, hrun, parseOn, hacc]
    exact congrArg Outcome.accepted (Derivation.cast_node hu hs f)

/-- No list of tokens has two derivations as a unit. -/
theorem Derivation.eq_of_tokens (hc : table.IsComplete) {d d' : Derivation (.n .unit)}
    (h : d.tokens = d'.tokens) : d = d' := by
  have hd := parseTokens_tokens hc d
  rw [h, parseTokens_tokens hc d'] at hd
  exact (Outcome.accepted.inj hd).symm

end FlatScope.Grammar
