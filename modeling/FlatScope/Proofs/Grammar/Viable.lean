/-
  The parser never reads a token too many. Every class has a phrase (`Sym.nonempty_derivation`), so a rule of which some
  symbols were read can be read to its end. A table has an outlook (`Table.HasOutlook`) if every step over a symbol
  is within a rule whose phrase takes more than that symbol from the stack or is of a lower rank. With such a
  table whatever is on the stack is the beginning of a unit (`Stack.IsPath.exists_unit`), although the table may
  have reduced in front of a token that cannot stand there.
-/
import FlatScope.Proofs.Grammar.Validation

namespace FlatScope.Grammar

/-! ## Every class has a phrase -/

/-- A symbol has a derivation of at most some height. -/
def Sym.isDerivable : Nat → Sym → Bool
  | _, .t _ => true
  | 0, .n _ => false
  | height + 1, .n x => x.rules.any fun p => p.rhs.all (Sym.isDerivable height)

theorem Forest.nonempty : {ss : List Sym} → (∀ s ∈ ss, Nonempty (Derivation s)) → Nonempty (Forest ss)
  | [], _ => ⟨.nil⟩
  | _ :: _, h => by
    obtain ⟨d⟩ := h _ List.mem_cons_self
    obtain ⟨f⟩ := Forest.nonempty fun s hs => h s (List.mem_cons_of_mem _ hs)
    exact ⟨.cons d f⟩

theorem Sym.nonempty_of_isDerivable {height : Nat} {s : Sym} (h : s.isDerivable height = true) :
    Nonempty (Derivation s) := by
  induction height generalizing s with
  | zero =>
    cases s with
    | t kind => exact ⟨(exists_leaf (blankToken kind) rfl).choose⟩
    | n x => cases h
  | succ height ih =>
    cases s with
    | t kind => exact ⟨(exists_leaf (blankToken kind) rfl).choose⟩
    | n x =>
      obtain ⟨p, hp, hall⟩ := List.any_eq_true.mp h
      obtain ⟨f⟩ := Forest.nonempty fun s hs => ih (List.all_eq_true.mp hall s hs)
      obtain rfl : p.lhs = x := of_decide_eq_true (List.mem_filter.mp hp).2
      exact ⟨.node p f⟩

theorem Sym.nonempty_derivation (s : Sym) : Nonempty (Derivation s) := by
  have h : s.isDerivable 4 = true := by
    cases s with
    | t kind => rfl
    | n x => cases x <;> decide +kernel
  exact Sym.nonempty_of_isDerivable h

/-! ## A way to the end from every state -/

/-- The rank of a symbol. A rule that makes a phrase of a single symbol lowers it. -/
def Sym.rank : Sym → Nat
  | .n .opener => 17
  | s => 2 * s.weight

namespace Table

/-- A rule with a state behind its first `d + 1` symbols, the last of which is `s`, leads on to the end: it makes the
stack shorter, or it makes a phrase of a lower rank. -/
def leadsOn (s : Sym) (p : Production) : Nat → Bool
  | 0 => false
  | d + 1 => p.lhs = .unit || 0 < d || (Sym.n p.lhs).rank < s.rank

/-- A table that goes no way without an end. -/
structure HasOutlook (table : Table) (items : Items) : Prop where
  /-- Every step is within a rule that leads on. -/
  step : ∀ {q s q'}, table.next? q s = some q' → ∃ i ∈ items q', leadsOn s i.1 i.2 = true
  /-- Only at the end of the input is something taken for a whole unit. -/
  unit : ∀ {q kind p}, table.action q kind = .reduce p → p.lhs = .unit → kind = .endOfInput

/-- The test whether a table has an outlook. -/
def checkOutlook (table : Table) (items : Items) : Bool :=
  (List.range table.rows.size).all fun q =>
    ((table.row q).moves.all fun m => (items m.2).any fun i => leadsOn m.1 i.1 i.2)
      && (table.row q).reductions.all fun r => r.1.lhs ≠ .unit || r.2.all fun kind => kind = .endOfInput

variable {table : Table} {items : Items}

theorem hasOutlook_of_check (h : table.checkOutlook items = true) : table.HasOutlook items := by
  simp only [checkOutlook, List.all_eq_true, List.any_eq_true, Bool.and_eq_true, Bool.or_eq_true,
    decide_eq_true_eq] at h
  refine ⟨fun hq => ?_, fun {q kind p} ha hp => ?_⟩
  · have hm := mem_moves hq
    exact (h _ (List.mem_range.mpr (lt_size_of_move hm))).1 _ hm
  · obtain ⟨r, hr, rfl, hkind⟩ := mem_reductions ha
    have hall := ((h q (List.mem_range.mpr (lt_size_of_reduction hr))).2 r hr).resolve_left (absurd hp)
    exact hall kind hkind

end Table

theorem table_hasOutlook : table.HasOutlook items := Table.hasOutlook_of_check (by decide +kernel)

/-! ## Completing what is on the stack -/

theorem Forest.exists_append {ss ss' : List Sym} (g : Forest ss') (f : Forest ss) :
    ∃ f' : Forest (ss ++ ss'), f'.tokens = f.tokens ++ g.tokens := by
  cases f with
  | nil => exact ⟨g, rfl⟩
  | cons d f =>
    obtain ⟨f', hf⟩ := Forest.exists_append g f
    exact ⟨.cons d f', by rw [Forest.tokens, Forest.tokens, hf, List.append_assoc]⟩

/-- A rule of which some symbols are on top of the stack can be read to its end. -/
theorem Stack.exists_forest {stack : Stack} {p : Production} {d : Nat}
    (h : (stack.take d).map Entry.symbol = (p.rhs.take d).reverse) :
    ∃ f : Forest p.rhs, ∃ more, f.tokens = Stack.tokens (stack.take d) ++ more := by
  have hsymbols : (stack.take d).reverse.map Entry.symbol = p.rhs.take d := by
    rw [List.map_reverse, h, List.reverse_reverse]
  obtain ⟨f, hf⟩ := Option.isSome_iff_exists.mp (Forest.ofEntries?_isSome hsymbols)
  obtain ⟨g⟩ := Forest.nonempty fun s (_ : s ∈ p.rhs.drop d) => s.nonempty_derivation
  have happend := Forest.exists_append g f
  rw [List.take_append_drop, Forest.tokens_of_ofEntries? hf, List.reverse_reverse] at happend
  obtain ⟨f', hf'⟩ := happend
  exact ⟨f', g.tokens, hf'⟩

/-- The rank of what is on top of a stack. -/
def Stack.rank : Stack → Nat
  | [] => 0
  | e :: _ => e.symbol.rank

variable {table : Table} {items : Items}

/-- A rule that the top of a stack is within can be read to its end. Its phrase takes its symbols from the stack and
begins where a phrase of its class can begin. -/
theorem Stack.IsPath.exists_phrase (hc : table.IsCoherent items) {e : Entry} {below : Stack}
    (h : Stack.IsPath table (e :: below)) {p : Production} {d : Nat} (hi : (p, d + 1) ∈ items e.state) :
    d ≤ below.length ∧ table.isWithin items (Stack.state (below.drop d)) p 0 = true
      ∧ ∃ f : Forest p.rhs, ∃ more,
        Stack.tokens (below.drop d) ++ f.tokens = Stack.tokens (e :: below) ++ more := by
  have hd : d + 1 ≤ p.rhs.length := (List.getElem?_eq_some_iff.mp (hc.step h.1 hi).1).1
  have hwithin : table.isWithin items (Stack.state (e :: below)) p (d + 1) = true := List.contains_iff_mem.mpr hi
  obtain ⟨hsymbols, hbegin⟩ := h.within hc hwithin hd
  have hlength := congrArg List.length hsymbols
  simp only [List.length_map, List.length_take, List.length_cons, List.length_reverse] at hlength
  obtain ⟨f, more, hf⟩ := Stack.exists_forest hsymbols
  have htokens : Stack.tokens (List.drop (d + 1) (e :: below)) ++ f.tokens = Stack.tokens (e :: below) ++ more := by
    rw [hf, ← List.append_assoc, ← Stack.tokens_append, List.take_append_drop]
  exact ⟨by omega, hbegin, f, more, htokens⟩

/-- What is on the stack can be completed to a unit. -/
theorem Stack.IsPath.exists_unit (hc : table.IsCoherent items) (ho : table.HasOutlook items) :
    (stack : Stack) → stack.IsPath table →
      ∃ u : Derivation (.n .unit), ∃ rest, u.tokens = Stack.tokens stack ++ rest
  | [], _ => by
    obtain ⟨u⟩ := Sym.nonempty_derivation (.n .unit)
    exact ⟨u, u.tokens, rfl⟩
  | e :: below, h => by
    obtain ⟨⟨p, d⟩, hi, hlead⟩ := ho.step h.1
    cases d with
    | zero => cases hlead
    | succ d =>
      obtain ⟨hlength, hbegin, f, more, htokens⟩ := h.exists_phrase hc hi
      have hpath : Stack.IsPath table (below.drop d) := Stack.IsPath.drop h.2 d
      by_cases hu : p.lhs = .unit
      · -- the rule makes a unit, and nothing is below it
        rw [Table.isWithin, if_pos hu, decide_eq_true_eq] at hbegin
        rw [Stack.state_eq_zero hc hpath hbegin] at htokens
        exact ⟨hu ▸ .node p f, more, (Derivation.tokens_cast_node hu f).trans htokens⟩
      · -- the phrase goes on the stack in place of its parts
        rw [Table.isWithin, if_neg hu] at hbegin
        obtain ⟨q, hq⟩ := Option.isSome_iff_exists.mp hbegin
        have hless : (Sym.n p.lhs).rank < e.symbol.rank ∧ d = 0 ∨ 0 < d := by
          simp only [Table.leadsOn, hu, decide_false, Bool.false_or, Bool.or_eq_true, decide_eq_true_eq] at hlead
          omega
        obtain ⟨u, rest, hrest⟩ := exists_unit hc ho (⟨q, .n p.lhs, .node p f⟩ :: below.drop d) ⟨hq, hpath⟩
        refine ⟨u, more ++ rest, ?_⟩
        rw [hrest, ← List.append_assoc, ← htokens]
        rfl
termination_by stack => (stack.length, stack.rank)
decreasing_by
  rw [Prod.lex_def, List.length_cons, List.length_cons, List.length_drop]
  rcases hless with ⟨hrank, rfl⟩ | hd
  · exact .inr ⟨rfl, hrank⟩
  · exact .inl (by omega)

end FlatScope.Grammar
