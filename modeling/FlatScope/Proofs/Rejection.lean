/-
  The parser rejects the first token that cannot stand where it stands. The kinds it sees end with the end of the input
  (`kindsToEnd`), and some of them are a beginning (`IsBeginning`) if they begin a sentence with that end behind it. What
  was shifted is always a beginning, because the stack can be completed; what is rejected is never one, because
  a table that finds every derivation does not reject a token of one. `rejection?` is the place of the
  rejected token; nothing behind this place has a part in the error (`Program.rejects_first`).
-/
import FlatScope.Parse
import FlatScope.Proofs.Grammar.Viable

namespace FlatScope

namespace Grammar

/-! ## Beginnings of sentences -/

/-- The kinds that the parser sees: behind the last token there is the end of the input. -/
def kindsToEnd (tokens : List Token) : List Kind := tokens.map Token.kind ++ [.endOfInput]

/-- The kinds can be extended to a sentence and the end of the input behind it. -/
def IsBeginning (kinds : List Kind) : Prop := ∃ s rest, Sentence s ∧ kinds ++ rest = s ++ [.endOfInput]

theorem Production.endOfInput_not_mem_rhs (p : Production) : ∀ s ∈ p.rhs, s ≠ .t .endOfInput := by
  cases p <;> decide

mutual

/-- No phrase holds the end of the input. -/
theorem Derivation.kind_ne_endOfInput : {s : Sym} → (d : Derivation s) → s ≠ .t .endOfInput →
    ∀ t ∈ d.tokens, t.kind ≠ .endOfInput
  | _, .leaf _, h => List.forall_mem_singleton.mpr fun hk => h (congrArg Sym.t hk)
  | _, .node p f, _ => f.kind_ne_endOfInput p.endOfInput_not_mem_rhs

theorem Forest.kind_ne_endOfInput : {ss : List Sym} → (f : Forest ss) → (∀ s ∈ ss, s ≠ .t .endOfInput) →
    ∀ t ∈ f.tokens, t.kind ≠ .endOfInput
  | _, .nil, _ => List.forall_mem_nil _
  | _, .cons d f, h => by
    obtain ⟨hd, hf⟩ := List.forall_mem_cons.mp h
    exact List.forall_mem_append.mpr ⟨d.kind_ne_endOfInput hd, f.kind_ne_endOfInput hf⟩

end

theorem endOfInput_not_mem {kinds : List Kind} (h : Viable kinds) : Kind.endOfInput ∉ kinds := by
  obtain ⟨rest, d, hd⟩ := h
  intro hm
  obtain ⟨t, ht, hk⟩ := List.mem_map.mp (hd ▸ List.mem_append_left rest hm)
  exact d.kind_ne_endOfInput nofun t ht hk

theorem Sentence.viable {kinds : List Kind} (h : Sentence kinds) : Viable kinds := ⟨[], by rwa [List.append_nil]⟩

/-- A beginning is one of a sentence, or it is a sentence and the end of the input. -/
theorem isBeginning_iff {kinds : List Kind} :
    IsBeginning kinds ↔ Viable kinds ∨ ∃ s, Sentence s ∧ kinds = s ++ [.endOfInput] := by
  constructor
  · rintro ⟨s, rest, hs, he⟩
    rcases rest.eq_nil_or_concat with rfl | ⟨rest, k, rfl⟩
    · rw [List.append_nil] at he
      exact .inr ⟨s, hs, he⟩
    · rw [List.concat_eq_append, ← List.append_assoc] at he
      obtain ⟨rfl, -⟩ := List.append_inj' he rfl
      exact .inl ⟨rest, hs⟩
  · rintro (⟨rest, hs⟩ | ⟨s, hs, rfl⟩)
    · exact ⟨kinds ++ rest, rest ++ [.endOfInput], hs, (List.append_assoc ..).symm⟩
    · exact ⟨s, [], hs, List.append_nil _⟩

/-- With the end of the input, the beginnings are whole sentences. -/
theorem isBeginning_end {kinds : List Kind} : IsBeginning (kinds ++ [.endOfInput]) ↔ Sentence kinds := by
  rw [isBeginning_iff]
  constructor
  · rintro (hv | ⟨s, hs, he⟩)
    · exact absurd (List.mem_append_right kinds (List.mem_singleton.mpr rfl)) (endOfInput_not_mem hv)
    · obtain ⟨rfl, -⟩ := List.append_inj' he rfl
      exact hs
  · exact fun hs => .inr ⟨kinds, hs, rfl⟩

theorem IsBeginning.of_append {kinds more : List Kind} (h : IsBeginning (kinds ++ more)) : IsBeginning kinds := by
  obtain ⟨s, rest, hs, he⟩ := h
  exact ⟨s, more ++ rest, hs, by rwa [← List.append_assoc]⟩

/-- Behind the end of the input nothing can stand. -/
theorem not_isBeginning_behind_end {kinds : List Kind} (kind : Kind) :
    ¬IsBeginning (kinds ++ [.endOfInput] ++ [kind]) := by
  have hmem : Kind.endOfInput ∈ kinds ++ [.endOfInput] := List.mem_append_right kinds (List.mem_singleton.mpr rfl)
  rw [isBeginning_iff]
  rintro (hv | ⟨s, hs, he⟩)
  · exact endOfInput_not_mem hv (List.mem_append_left _ hmem)
  · obtain ⟨rfl, -⟩ := List.append_inj' he rfl
    exact endOfInput_not_mem hs.viable hmem

/-! ## The place of the rejected token -/

/-- How many tokens are in front of the one that the parser rejects, on a stack for those before. The end of the input
is rejected behind all of them. An end of the input among the tokens is accepted, and what comes next is not. -/
def rejection? (table : Table) (stack : Stack) : List Token → Option Nat
  | [] =>
    match settle table .endOfInput stack with
    | .reject _ => some 0
    | _ => none
  | token :: tokens =>
    match settle table token.kind stack with
    | .shift next stack => (rejection? table (⟨next, .t token.kind, .leaf token⟩ :: stack) tokens).map (· + 1)
    | .reject _ => some 0
    | .accept _ => some 1
    | .stuck => none

section

variable {table : Table} {stack : Stack} {tokens : List Token} {i : Nat}

/-- What the parser gives if it rejects the token at a place, whatever tokens come behind it. -/
theorem parseOn_of_rejection? (h : rejection? table stack tokens = some i) :
    ∃ expected, ∀ rest, (i = tokens.length → rest = []) →
      parseOn table stack (tokens.take (i + 1) ++ rest) = .rejected tokens[i]? expected := by
  induction tokens generalizing stack i with
  | nil =>
    rw [rejection?] at h
    split at h
    · rename_i state hs
      obtain rfl := Option.some.inj h
      refine ⟨table.expected state, fun rest hrest => ?_⟩
      rw [hrest rfl, List.append_nil, List.take_nil, parseOn, hs]
      rfl
    · cases h
  | cons t ts ih =>
    rw [rejection?] at h
    split at h
    · rename_i next stack' hs
      obtain ⟨j, hj, rfl⟩ := Option.map_eq_some_iff.mp h
      obtain ⟨expected, hrun⟩ := ih hj
      refine ⟨expected, fun rest hrest => ?_⟩
      rw [List.take_succ_cons, List.cons_append, parseOn, hs, List.getElem?_cons_succ]
      exact hrun rest fun hl => hrest (congrArg (· + 1) hl)
    · rename_i state hs
      obtain rfl := Option.some.inj h
      refine ⟨table.expected state, fun rest _ => ?_⟩
      rw [List.take_succ_cons, List.cons_append, parseOn, hs]
      rfl
    · rename_i unit hs
      obtain rfl := Option.some.inj h
      refine ⟨[], fun rest hrest => ?_⟩
      rw [List.take_succ_cons, List.cons_append, parseOn, hs]
      cases ts with
      | nil => rw [hrest rfl]; rfl
      | cons t' ts => rfl
    · cases h

/-- Without such a place the parser accepts, unless it is stuck. -/
theorem parseOn_of_rejection?_eq_none (h : rejection? table stack tokens = none) :
    parseOn table stack tokens = .stuck ∨ ∃ unit, parseOn table stack tokens = .accepted unit := by
  induction tokens generalizing stack with
  | nil =>
    rw [rejection?] at h
    rw [parseOn]
    split at h
    · cases h
    · rename_i hs
      cases hr : settle table .endOfInput stack with
      | reject state => exact absurd hr (hs state)
      | accept unit => exact .inr ⟨unit, rfl⟩
      | shift | stuck => exact .inl rfl
  | cons t ts ih =>
    rw [rejection?] at h
    rw [parseOn]
    cases hs : settle table t.kind stack with
    | shift next stack' =>
      rw [hs] at h
      exact ih (Option.map_eq_none_iff.mp h)
    | reject state | accept unit =>
      rw [hs] at h
      cases h
    | stuck => exact .inl rfl

/-- What only a whole unit makes the parser do, it does at the end of the input. -/
theorem Settles.kind_of_accept {items : Items} (ho : table.HasOutlook items) {kind : Kind} {r : Settled}
    (h : Settles table kind stack r) {unit : Derivation (.n .unit)} (hr : r = .accept unit) : kind = .endOfInput := by
  induction h with
  | shift ha => cases hr
  | reject ha => cases hr
  | accept ha ht hu he => exact ho.unit ha hu
  | stuck ha hp => cases hr
  | reduce _ hs ih => exact ih hr

end

/-! ## What is shifted and what is rejected -/

variable {stack : Stack} {tokens : List Token} {i : Nat}

/-- A stack is what the parser has after some tokens. -/
structure Stack.IsAfter (before : List Token) (stack : Stack) : Prop where
  path : stack.IsPath table
  tokens : stack.tokens = before
  run : ∀ rest, parseTokens table (before ++ rest) = parseOn table stack rest

namespace Stack.IsAfter

variable {before : List Token} {kind : Kind}

theorem nil : IsAfter [] [] := ⟨trivial, rfl, fun _ => rfl⟩

/-- What was read is the beginning of a sentence. -/
theorem viable (h : IsAfter before stack) : Viable (before.map Token.kind) := by
  obtain ⟨unit, rest, hu⟩ := h.path.exists_unit table_isCoherent table_hasOutlook
  refine ⟨rest.map Token.kind, unit, ?_⟩
  rw [hu, h.tokens, List.map_append]

theorem shift {t : Token} {next : Nat} {stack' : Stack} (h : IsAfter before stack)
    (hs : settle table t.kind stack = .shift next stack') :
    IsAfter (before ++ [t]) (⟨next, .t t.kind, .leaf t⟩ :: stack') := by
  have hpath := (settles table t.kind stack).isPath table_isCoherent h.path
  have htokens := (settles table t.kind stack).derives
  rw [hs] at hpath htokens
  refine ⟨hpath, ?_, fun rest => ?_⟩
  · show Stack.tokens stack' ++ [t] = before ++ [t]
    rw [show Stack.tokens stack' = stack.tokens from htokens, h.tokens]
  · rw [List.append_assoc, List.singleton_append, h.run, parseOn, hs]

/-- A whole unit was read, and the end of the input comes next. -/
theorem accept {unit : Derivation (.n .unit)} (h : IsAfter before stack)
    (hs : settle table kind stack = .accept unit) : kind = .endOfInput ∧ Sentence (before.map Token.kind) := by
  have htokens := (settles table kind stack).derives
  rw [hs] at htokens
  refine ⟨(settles table kind stack).kind_of_accept table_hasOutlook hs, unit, ?_⟩
  rw [show unit.tokens = stack.tokens from htokens, h.tokens]

/-- The tokens of a sentence that begins with what was read are not rejected. -/
theorem exists_accepted (h : IsAfter before stack) {rest : List Kind}
    (hs : Sentence (before.map Token.kind ++ rest)) :
    ∃ unit, parseOn table stack (rest.map blankToken) = .accepted unit := by
  have hkinds : (before ++ rest.map blankToken).map Token.kind = before.map Token.kind ++ rest := by
    rw [List.map_append, List.map_map]
    exact congrArg _ (List.map_id rest)
  rw [← hkinds] at hs
  obtain ⟨unit, hu⟩ := derives_map_kind.mp hs
  exact ⟨unit, by rw [← h.run, ← hu, parseTokens_tokens table_isComplete]⟩

/-- What is rejected cannot come next. -/
theorem reject {state : Nat} (h : IsAfter before stack) (hs : settle table kind stack = .reject state) :
    ¬IsBeginning (before.map Token.kind ++ [kind]) := by
  rw [isBeginning_iff]
  rintro (⟨rest, hv⟩ | ⟨s, hv, he⟩)
  · rw [List.append_assoc] at hv
    obtain ⟨unit, hrun⟩ := h.exists_accepted hv
    rw [List.singleton_append, List.map_cons, parseOn,
      show settle table (blankToken kind).kind stack = .reject state from hs] at hrun
    cases hrun
  · obtain ⟨rfl, hk⟩ := List.append_inj' he rfl
    obtain rfl : kind = .endOfInput := List.singleton_inj.mp hk
    rw [← List.append_nil (before.map Token.kind)] at hv
    obtain ⟨unit, hrun⟩ := h.exists_accepted hv
    rw [List.map_nil, parseOn, hs] at hrun
    cases hrun

end Stack.IsAfter

theorem kindsToEnd_cons (t : Token) (ts : List Token) : kindsToEnd (t :: ts) = t.kind :: kindsToEnd ts := rfl

/-- The kinds in front of the rejected one are a beginning, and with it they are none. -/
theorem isBeginning_of_rejection? {before : List Token} (ha : stack.IsAfter before)
    (h : rejection? table stack tokens = some i) :
    IsBeginning (before.map Token.kind ++ (kindsToEnd tokens).take i)
      ∧ ¬IsBeginning (before.map Token.kind ++ (kindsToEnd tokens).take (i + 1)) := by
  have hbefore : IsBeginning (before.map Token.kind) := isBeginning_iff.mpr (.inl ha.viable)
  induction tokens generalizing stack before i with
  | nil =>
    rw [rejection?] at h
    split at h
    · rename_i state hs
      obtain rfl := Option.some.inj h
      rw [List.take_zero, List.append_nil]
      exact ⟨hbefore, ha.reject hs⟩
    · cases h
  | cons t ts ih =>
    rw [rejection?] at h
    split at h
    · rename_i next stack' hs
      obtain ⟨j, hj, rfl⟩ := Option.map_eq_some_iff.mp h
      have ha' := ha.shift hs
      have hstep := ih ha' hj (isBeginning_iff.mpr (.inl ha'.viable))
      rw [List.map_append, List.append_assoc, List.append_assoc] at hstep
      exact hstep
    · rename_i state hs
      obtain rfl := Option.some.inj h
      rw [List.take_zero, List.append_nil]
      exact ⟨hbefore, ha.reject hs⟩
    · rename_i unit hs
      obtain rfl := Option.some.inj h
      obtain ⟨hk, hsentence⟩ := ha.accept hs
      obtain ⟨kind, kinds, hnext⟩ : ∃ kind kinds, kindsToEnd ts = kind :: kinds := by
        cases ts with
        | nil => exact ⟨_, _, rfl⟩
        | cons t' ts => exact ⟨_, _, rfl⟩
      rw [kindsToEnd_cons, hk, hnext]
      refine ⟨isBeginning_end.mpr hsentence, ?_⟩
      have hnot := @not_isBeginning_behind_end (before.map Token.kind) kind
      rwa [List.append_assoc] at hnot
    · cases h

/-- Without a rejected token all is a beginning. -/
theorem isBeginning_of_rejection?_eq_none (h : rejection? table [] tokens = none) :
    IsBeginning (kindsToEnd tokens) := by
  rcases parseOn_of_rejection?_eq_none h with hstuck | ⟨unit, hu⟩
  · exact absurd hstuck (parseTokens_ne_stuck table_isCoherent tokens)
  · exact isBeginning_end.mpr ⟨unit, by rw [tokens_of_parseTokens hu]⟩

theorem IsBeginning.take {kinds : List Kind} {m n : Nat} (h : IsBeginning (kinds.take n)) (hle : m ≤ n) :
    IsBeginning (kinds.take m) := by
  obtain ⟨more, hmore⟩ := @List.take_prefix_take_left _ kinds _ _ hle
  rw [← hmore] at h
  exact h.of_append

/-- The parser rejects the first kind with which the kinds are no beginning. -/
theorem rejection?_eq_some_iff :
    rejection? table [] tokens = some i ↔
      IsBeginning ((kindsToEnd tokens).take i) ∧ ¬IsBeginning ((kindsToEnd tokens).take (i + 1)) := by
  refine ⟨isBeginning_of_rejection? .nil, fun ⟨hi, hnot⟩ => ?_⟩
  cases hr : rejection? table [] tokens with
  | none =>
    have hall := isBeginning_of_rejection?_eq_none hr
    rw [← List.take_append_drop (i + 1) (kindsToEnd tokens)] at hall
    exact absurd hall.of_append hnot
  | some j =>
    obtain ⟨hj, hjnot⟩ := isBeginning_of_rejection? .nil hr
    rcases Nat.lt_trichotomy i j with hlt | rfl | hlt
    · exact absurd (hj.take hlt) hnot
    · rfl
    · exact absurd (hi.take hlt) hjnot

theorem exists_rejection?_iff :
    (∃ i, rejection? table [] tokens = some i) ↔
      ∃ token expected, parseTokens table tokens = .rejected token expected := by
  constructor
  · rintro ⟨i, hi⟩
    obtain ⟨expected, hrun⟩ := parseOn_of_rejection? hi
    have hall := hrun (tokens.drop (i + 1)) fun hl => by rw [hl, List.drop_eq_nil_iff]; omega
    rw [List.take_append_drop] at hall
    exact ⟨_, _, hall⟩
  · rintro ⟨token, expected, hp⟩
    rw [← Option.isSome_iff_exists, Option.isSome_iff_ne_none]
    intro hnone
    rcases parseOn_of_rejection?_eq_none hnone with hstuck | ⟨unit, hu⟩
    · cases hp.symm.trans hstuck
    · cases hp.symm.trans hu

end Grammar

namespace SyntaxError

/-- The error for a rejected token is about its kind. -/
theorem found?_ofRejection (file : Option String) (tokens : List Token) (rejected : Option Token)
    (expected : List Kind) :
    (ofRejection file tokens rejected expected).fault.found? = some ((rejected.map Token.kind).getD .endOfInput) := by
  have hfault : ∀ found lexeme, (SyntaxFault.ofRejection found lexeme expected).found? = some found := by
    intro found lexeme
    rw [SyntaxFault.ofRejection]
    split <;> rfl
  cases rejected with
  | none => exact hfault .endOfInput ""
  | some t => exact hfault t.kind t.lexeme

end SyntaxError

namespace Program

open Grammar

/-- How tokens are refused that are no sentence. -/
structure RejectsFirst (file : Option String) (tokens : List Token) : Prop where
  /-- The automaton fails if it rejects some token or the end of the input. -/
  fails : (∃ i, rejection? table [] tokens = some i)
    ↔ ∃ token expected, parseTokens table tokens = .rejected token expected
  /-- It does so at a place exactly if the kinds before can be extended to a sentence and those up to it cannot. -/
  place : ∀ i, rejection? table [] tokens = some i
    ↔ IsBeginning ((kindsToEnd tokens).take i) ∧ ¬IsBeginning ((kindsToEnd tokens).take (i + 1))
  /-- The error names the kind and the place of the rejected token, the end of the input being shown at the last token.
  What comes behind does not change it. -/
  error : ∀ i, rejection? table [] tokens = some i → ∃ e : SyntaxError,
    e.fault.found? = (kindsToEnd tokens)[i]? ∧ some e.span = (tokens[i]?.or tokens.getLast?).map Token.span
      ∧ ∀ rest, (i = tokens.length → rest = []) → ofTokens file (tokens.take (i + 1) ++ rest) = .error (.syntactic e)

variable {tokens : List Token} {i : Nat}

theorem le_length_of_rejection? (h : rejection? table [] tokens = some i) : i ≤ tokens.length := by
  obtain ⟨hi, hnot⟩ := rejection?_eq_some_iff.mp h
  refine Nat.le_of_not_lt fun hlt => ?_
  have hlength : (kindsToEnd tokens).length ≤ i := by
    rw [kindsToEnd, List.length_append, List.length_map]
    exact hlt
  rw [List.take_of_length_le hlength] at hi
  rw [List.take_of_length_le (Nat.le_succ_of_le hlength)] at hnot
  exact hnot hi

/-- The end of the input is rejected behind some token only, because nothing at all is a sentence. -/
theorem ne_nil_of_rejection? (h : rejection? table [] tokens = some i) : tokens ≠ [] := by
  rintro rfl
  obtain rfl : i = 0 := Nat.le_zero.mp (le_length_of_rejection? h)
  have hempty : IsBeginning ([] ++ [.endOfInput]) := isBeginning_end.mpr ⟨.node .unitEmpty .nil, rfl⟩
  exact (rejection?_eq_some_iff.mp h).2 hempty

theorem getElem?_kindsToEnd (h : i ≤ tokens.length) :
    (kindsToEnd tokens)[i]? = some ((tokens[i]?.map Token.kind).getD .endOfInput) := by
  rcases Nat.lt_or_eq_of_le h with hlt | rfl
  · rw [kindsToEnd, List.getElem?_append_left (by rwa [List.length_map]), List.getElem?_map,
      List.getElem?_eq_getElem hlt]
    rfl
  · have hlength : (tokens.map Token.kind).length ≤ tokens.length := Nat.le_of_eq (List.length_map _)
    rw [kindsToEnd, List.getElem?_append_right hlength, List.length_map, Nat.sub_self,
      List.getElem?_eq_none (Nat.le_refl _)]
    rfl

/-- The first token with which no sentence begins is the one that the automaton rejects, and the error is about it. -/
theorem rejects_first (file : Option String) (tokens : List Token) : RejectsFirst file tokens := by
  refine ⟨exists_rejection?_iff, fun i => rejection?_eq_some_iff, fun i h => ?_⟩
  have hle := le_length_of_rejection? h
  obtain ⟨expected, hrun⟩ := parseOn_of_rejection? h
  refine ⟨.ofRejection file tokens tokens[i]? expected, ?_, ?_, fun rest hrest => ?_⟩
  · rw [SyntaxError.found?_ofRejection, getElem?_kindsToEnd hle]
  · cases htoken : tokens[i]? with
    | some t => rfl
    | none =>
      obtain ⟨t, ht⟩ := Option.ne_none_iff_exists'.mp (mt List.getLast?_eq_none_iff.mp (ne_nil_of_rejection? h))
      rw [SyntaxError.ofRejection, ht]
      rfl
  · have hparse : parseTokens table (tokens.take (i + 1) ++ rest) = .rejected tokens[i]? expected := hrun rest hrest
    rw [ofTokens, hparse]
    cases htoken : tokens[i]? with
    | some t => rfl
    | none =>
      have hlength : tokens.length ≤ i := List.getElem?_eq_none_iff.mp htoken
      rw [hrest (Nat.le_antisymm hle hlength), List.append_nil,
        List.take_of_length_le (Nat.le_succ_of_le hlength)]

end Program

end FlatScope
