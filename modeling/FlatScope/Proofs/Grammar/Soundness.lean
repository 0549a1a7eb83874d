/-
  The parser invents nothing and never loses its way. `Settles` says step by step how it settles in front of a token.
  Its stack derives the tokens read so far, in their order, so that what it accepts derives the tokens it was given
  (`tokens_of_parseTokens`). A table is coherent (`Table.IsCoherent`) if each state can tell within which rules it is and
  how far, whatever way led to it. With a coherent table the stack is always a way through the table, every rule that
  the table reduces by was read to its end, and the parser is never stuck (`parseTokens_ne_stuck`).
-/
import FlatScope.Proofs.Grammar.Completeness

namespace FlatScope.Grammar

variable {table : Table} {kind : Kind}

/-! ## Settling, step by step -/

/-- One reduction in front of a token of a kind. -/
inductive Reduction (table : Table) (kind : Kind) : Stack → Stack → Prop
  | intro {stack : Stack} {p : Production} {f : Forest p.rhs} {q : Nat}
    (ha : table.action stack.state kind = .reduce p) (ht : stack.top? p = some f) (hu : p.lhs ≠ .unit)
    (hq : table.goto? (Stack.state (stack.drop p.rhs.length)) p.lhs = some q) :
    Reduction table kind stack (⟨q, .n p.lhs, .node p f⟩ :: stack.drop p.rhs.length)

/-- A rule that the table reduces by although the stack does not fit it. -/
def Unfit (table : Table) (stack : Stack) (p : Production) : Prop :=
  stack.top? p = none ∨ p.lhs = .unit ∧ stack.drop p.rhs.length ≠ []
    ∨ p.lhs ≠ .unit ∧ table.goto? (Stack.state (stack.drop p.rhs.length)) p.lhs = none

/-- What comes of a stack in front of a token of a kind. -/
inductive Settles (table : Table) (kind : Kind) : Stack → Settled → Prop
  | shift {stack : Stack} {q : Nat} (ha : table.action stack.state kind = .shift q) :
    Settles table kind stack (.shift q stack)
  | reject {stack : Stack} (ha : table.action stack.state kind = .reject) :
    Settles table kind stack (.reject stack.state)
  | accept {stack : Stack} {p : Production} {f : Forest p.rhs} (ha : table.action stack.state kind = .reduce p)
    (ht : stack.top? p = some f) (hu : p.lhs = .unit) (he : stack.drop p.rhs.length = []) :
    Settles table kind stack (.accept (hu ▸ .node p f))
  | stuck {stack : Stack} {p : Production} (ha : table.action stack.state kind = .reduce p)
    (hp : Unfit table stack p) : Settles table kind stack .stuck
  | reduce {stack stack' : Stack} {r : Settled} (hr : Reduction table kind stack stack')
    (hs : Settles table kind stack' r) : Settles table kind stack r

theorem settle_of_top?_eq_none {stack : Stack} {p : Production} (ha : table.action stack.state kind = .reduce p)
    (ht : stack.top? p = none) : settle table kind stack = .stuck := by
  rw [settle]
  split
  · rename_i h; rw [ha] at h; cases h
  · rename_i h; rw [ha] at h; cases h
  · rename_i p' h
    obtain rfl := Action.reduce.inj (ha.symm.trans h)
    split
    · rfl
    · rename_i f' h'; rw [ht] at h'; cases h'

theorem settles (table : Table) (kind : Kind) (stack : Stack) : Settles table kind stack (settle table kind stack) := by
  induction stack using settle.induct table kind with
  | case1 stack q ha =>
    rw [settle, ha]
    exact .shift ha
  | case2 stack ha =>
    rw [settle, ha]
    exact .reject ha
  | case3 stack p ha ht =>
    rw [settle_of_top?_eq_none ha ht]
    exact .stuck ha (.inl ht)
  | case4 stack p ha f ht rest hu he =>
    have he : stack.drop p.rhs.length = [] := List.isEmpty_iff.mp he
    rw [settle_accept hu ha ht he]
    exact .accept ha ht hu he
  | case5 stack p ha f ht rest hu he =>
    have he : ¬(stack.drop p.rhs.length).isEmpty = true := he
    rw [settle_of_top? ha ht, dif_pos hu, if_neg he]
    exact .stuck ha (.inr (.inl ⟨hu, fun h => he (List.isEmpty_iff.mpr h)⟩))
  | case6 stack p ha f ht rest hu hg =>
    have hg : table.goto? (Stack.state (stack.drop p.rhs.length)) p.lhs = none := hg
    rw [settle_of_top? ha ht, dif_neg hu, hg]
    exact .stuck ha (.inr (.inr ⟨hu, hg⟩))
  | case7 stack p ha f ht rest hu q hg ih =>
    rw [settle_reduce ha ht hu hg]
    exact .reduce (.intro ha ht hu hg) ih

/-! ## The stack derives what was read -/

/-- The tokens that a stack derives, from its bottom to its top. -/
def Stack.tokens : Stack → List Token
  | [] => []
  | e :: stack => Stack.tokens stack ++ e.derivation.tokens

theorem Stack.tokens_append (xs ys : Stack) :
    Stack.tokens (xs ++ ys : Stack) = Stack.tokens ys ++ Stack.tokens xs := by
  induction xs with
  | nil => exact (List.append_nil _).symm
  | cons e xs ih =>
    show Stack.tokens (xs ++ ys : Stack) ++ _ = Stack.tokens ys ++ (Stack.tokens xs ++ _)
    rw [ih, List.append_assoc]

theorem Forest.tokens_of_ofEntries? {ss : List Sym} {es : List Entry} {f : Forest ss}
    (h : Forest.ofEntries? ss es = some f) : f.tokens = Stack.tokens es.reverse := by
  induction ss generalizing es with
  | nil =>
    cases es with
    | nil => obtain rfl := Option.some.inj h; rfl
    | cons e es => cases h
  | cons s ss ih =>
    cases es with
    | nil => cases h
    | cons e es =>
      unfold ofEntries? at h
      split at h
      · rename_i hs
        subst hs
        obtain ⟨g, hg, rfl⟩ := Option.map_eq_some_iff.mp h
        rw [List.reverse_cons, Stack.tokens_append, Forest.tokens, ih hg]
        rfl
      · cases h

/-- The derivations for a rule, behind what is below them, derive what the stack derives. -/
theorem Stack.tokens_of_top? {stack : Stack} {p : Production} {f : Forest p.rhs} (h : stack.top? p = some f) :
    Stack.tokens (stack.drop p.rhs.length) ++ f.tokens = Stack.tokens stack := by
  rw [Forest.tokens_of_ofEntries? h, List.reverse_reverse, ← Stack.tokens_append, List.take_append_drop]

theorem Derivation.tokens_cast_node {p : Production} {x : Nonterminal} (h : p.lhs = x) (f : Forest p.rhs) :
    (h ▸ .node p f : Derivation (.n x)).tokens = f.tokens := by
  subst h
  rfl

/-- A reduction keeps the tokens. -/
theorem Reduction.tokens {stack stack' : Stack} (h : Reduction table kind stack stack') :
    Stack.tokens stack' = Stack.tokens stack := by
  cases h with
  | intro ha ht hu hq => exact Stack.tokens_of_top? ht

/-- What settling gives derives the given tokens. -/
def Settled.Derives (tokens : List Token) : Settled → Prop
  | .shift _ stack => stack.tokens = tokens
  | .accept d => d.tokens = tokens
  | .reject _ | .stuck => True

theorem Settles.derives {stack : Stack} {r : Settled} (h : Settles table kind stack r) :
    r.Derives (Stack.tokens stack) := by
  induction h with
  | shift ha => rfl
  | reject ha => trivial
  | accept ha ht hu he =>
    have htop := Stack.tokens_of_top? ht
    rw [he] at htop
    exact (Derivation.tokens_cast_node hu _).trans htop
  | stuck ha hp => trivial
  | reduce hr hs ih => exact hr.tokens ▸ ih

theorem tokens_of_parseOn {stack : Stack} {tokens : List Token} {d : Derivation (.n .unit)}
    (h : parseOn table stack tokens = .accepted d) : d.tokens = Stack.tokens stack ++ tokens := by
  induction tokens generalizing stack with
  | nil =>
    have hs := (settles table .endOfInput stack).derives
    rw [parseOn] at h
    split at h
    · rename_i d' hd
      rw [hd] at hs
      obtain rfl := Outcome.accepted.inj h
      rw [List.append_nil]
      exact hs
    all_goals cases h
  | cons t ts ih =>
    have hs := (settles table t.kind stack).derives
    rw [parseOn] at h
    split at h
    · rename_i q stack' hq
      rw [hq] at hs
      rw [ih h, Stack.tokens, show Stack.tokens stack' = Stack.tokens stack from hs, List.append_assoc]
      rfl
    all_goals cases h

/-- An accepted derivation derives the tokens that were parsed. -/
theorem tokens_of_parseTokens {tokens : List Token} {d : Derivation (.n .unit)}
    (h : parseTokens table tokens = .accepted d) : d.tokens = tokens := tokens_of_parseOn h

/-! ## The stack is a way through the table -/

/-- Each state of a stack follows from the one below it. -/
def Stack.IsPath (table : Table) : Stack → Prop
  | [] => True
  | e :: stack => table.next? (Stack.state stack) e.symbol = some e.state ∧ Stack.IsPath table stack

/-- How far each state is within which rules: the rules with the numbers of their symbols that were read last. Rules of
which nothing is read yet are left out. -/
abbrev Items := Nat → List (Production × Nat)

namespace Table

/-- The first `d` symbols of a rule were read just before a state. At the start of a rule its phrase can begin. -/
def isWithin (table : Table) (items : Items) (q : Nat) (p : Production) : Nat → Bool
  | 0 => if p.lhs = .unit then q = 0 else (table.goto? q p.lhs).isSome
  | d + 1 => (items q).contains (p, d + 1)

/-- A table that never leads astray: `items` says truly what was read before a state. -/
structure IsCoherent (table : Table) (items : Items) : Prop where
  /-- No way leads back to the first state. -/
  start : ∀ {q s q'}, table.next? q s = some q' → q' ≠ 0
  /-- Nothing is read before the first state. -/
  first : ∀ i, i ∉ items 0
  /-- The end of the input is never taken for a token. -/
  input : ∀ q, table.next? q (.t .endOfInput) = none
  /-- A step reads the next symbol of every rule that the new state is within. -/
  step : ∀ {q s q'}, table.next? q s = some q' → ∀ {p d}, (p, d + 1) ∈ items q' →
    p.rhs[d]? = some s ∧ table.isWithin items q p d = true
  /-- The table reduces by rules that were read to their ends. -/
  reduce : ∀ {q kind p}, table.action q kind = .reduce p → table.isWithin items q p p.rhs.length = true

theorem next?_of_action {q q' : Nat} (h : table.action q kind = .shift q') :
    table.next? q (.t kind) = some q' := by
  unfold action at h
  split at h
  · rename_i q'' hq
    obtain rfl := Action.shift.inj h
    exact hq
  · split at h <;> cases h

end Table

variable {items : Items}

theorem Stack.IsPath.drop {stack : Stack} (h : stack.IsPath table) (n : Nat) :
    Stack.IsPath table (stack.drop n) := by
  induction n generalizing stack with
  | zero => exact h
  | succ n ih =>
    cases stack with
    | nil => exact trivial
    | cons e stack => exact ih h.2

/-- What a state says was read before it is on top of the stack, and where it began the phrase can begin. -/
theorem Stack.IsPath.within (hc : table.IsCoherent items) {p : Production} {d : Nat} {stack : Stack}
    (h : stack.IsPath table) (hw : table.isWithin items stack.state p d = true) (hd : d ≤ p.rhs.length) :
    (stack.take d).map Entry.symbol = (p.rhs.take d).reverse
      ∧ table.isWithin items (Stack.state (stack.drop d)) p 0 = true := by
  induction d generalizing stack with
  | zero => exact ⟨rfl, hw⟩
  | succ d ih =>
    have hmem : (p, d + 1) ∈ items stack.state := List.contains_iff_mem.mp hw
    cases stack with
    | nil => exact absurd hmem (hc.first (p, d + 1))
    | cons e stack =>
      obtain ⟨hs, hbefore⟩ := hc.step h.1 hmem
      obtain ⟨htake, hdrop⟩ := ih h.2 hbefore (Nat.le_of_succ_le hd)
      refine ⟨?_, hdrop⟩
      rw [List.take_succ_cons, List.map_cons, htake, List.take_add_one, hs, List.reverse_append]
      rfl

theorem Forest.ofEntries?_isSome {es : List Entry} : {ss : List Sym} → es.map Entry.symbol = ss →
    (Forest.ofEntries? ss es).isSome := by
  induction es with
  | nil => rintro _ rfl; rfl
  | cons e es ih =>
    rintro _ rfl
    obtain ⟨f, hf⟩ := Option.isSome_iff_exists.mp (ih rfl)
    rw [List.map_cons, Forest.ofEntries?, dif_pos rfl, hf]
    rfl

theorem Stack.state_eq_zero (hc : table.IsCoherent items) {stack : Stack} (h : stack.IsPath table) :
    stack.state = 0 → stack = [] := by
  cases stack with
  | nil => intro _; rfl
  | cons e stack => exact fun he => absurd he (hc.start h.1)

/-- On a way through a coherent table every rule fits that the table reduces by. -/
theorem Table.IsCoherent.fits (hc : table.IsCoherent items) {stack : Stack} (h : stack.IsPath table)
    {p : Production} (ha : table.action stack.state kind = .reduce p) : ¬Unfit table stack p := by
  obtain ⟨htake, hdrop⟩ := h.within hc (hc.reduce ha) (Nat.le_refl _)
  rw [List.take_length] at htake
  have htop : (stack.top? p).isSome :=
    Forest.ofEntries?_isSome (by rw [List.map_reverse, htake, List.reverse_reverse])
  rintro (hn | ⟨hu, hne⟩ | ⟨hu, hn⟩)
  · rw [hn] at htop; cases htop
  · rw [Table.isWithin, if_pos hu, decide_eq_true_eq] at hdrop
    exact hne (Stack.state_eq_zero hc (h.drop _) hdrop)
  · rw [Table.isWithin, if_neg hu, hn] at hdrop
    cases hdrop

theorem Reduction.isPath {stack stack' : Stack} (hr : Reduction table kind stack stack')
    (h : stack.IsPath table) : stack'.IsPath table := by
  cases hr with
  | intro ha ht hu hq => exact ⟨hq, h.drop _⟩

/-- What settling gives on a way through a coherent table: it is not stuck, and what it shifts on is a way again. -/
def Settled.IsPath (table : Table) (kind : Kind) : Settled → Prop
  | .shift q stack => table.next? stack.state (.t kind) = some q ∧ stack.IsPath table
  | .accept _ | .reject _ => True
  | .stuck => False

theorem Settles.isPath (hc : table.IsCoherent items) {stack : Stack} {r : Settled} (hs : Settles table kind stack r)
    (h : stack.IsPath table) : r.IsPath table kind := by
  induction hs with
  | shift ha => exact ⟨Table.next?_of_action ha, h⟩
  | reject ha => trivial
  | accept ha ht hu he => trivial
  | stuck ha hp => exact hc.fits h ha hp
  | reduce hr hs ih => exact ih (hr.isPath h)

theorem parseOn_ne_stuck (hc : table.IsCoherent items) {stack : Stack} (h : stack.IsPath table)
    (tokens : List Token) : parseOn table stack tokens ≠ .stuck := by
  induction tokens generalizing stack with
  | nil =>
    have hs := (settles table .endOfInput stack).isPath hc h
    rw [parseOn]
    split
    · rintro ⟨⟩
    · rintro ⟨⟩
    · rename_i hq
      rw [hq] at hs
      exact absurd hs.1 (by rw [hc.input]; rintro ⟨⟩)
    · rename_i hq
      rw [hq] at hs
      exact hs.elim
  | cons t ts ih =>
    have hs := (settles table t.kind stack).isPath hc h
    rw [parseOn]
    split
    · rename_i hq
      rw [hq] at hs
      exact ih hs
    · rintro ⟨⟩
    · rintro ⟨⟩
    · rename_i hq
      rw [hq] at hs
      exact hs.elim

/-- With a coherent table the parser accepts or rejects every list of tokens. -/
theorem parseTokens_ne_stuck (hc : table.IsCoherent items) (tokens : List Token) :
    parseTokens table tokens ≠ .stuck := @parseOn_ne_stuck table items hc [] trivial tokens

end FlatScope.Grammar
