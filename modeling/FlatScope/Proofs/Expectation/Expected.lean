/-
  What an error names as expected. The kinds are read off the state in which the parser rejects a token, after whatever it
  reduced in front of that token; so some may be named that cannot stand there, and some that can are left out. Where
  the parser reduces by rules for statements only it never goes wrong: what it takes it keeps (`keeps_between`). So nothing
  is left out but openers and stars that touch a name, a type or what can be called (`Settles.takes_of_reject`), and behind
  a keyword, an assignment sign or a separator the kinds are exactly those that can come next
  (`Stack.IsRead.takes_iff`).
-/
import FlatScope.Proofs.Expectation.Ahead

namespace FlatScope

namespace Kind

/-- Kinds behind which no phrase ends but statements. -/
def isSteady : Kind → Bool
  | constKw | varKw | structKw | funKw | ifKw | elseKw | whileKw | breakKw | continueKw | labelKw | gotoKw
  | assign | comma | semicolon | openBrace | paren => true
  | _ => false

/-- Kinds behind which a name, a type or an expression may go on with an opener or a star that touches, and opening
brackets. -/
def isSuffixable : Kind → Bool
  | intKw | floatKw | byteKw | voidKw | name | builtin | closeBracket | closeParen | star | bracket | spacedBracket => true
  | _ => false

end Kind

namespace Grammar

/-- A phrase of the class is a statement, a row of them or a unit. -/
def Nonterminal.isStatement : Nonterminal → Bool
  | .unit | .stmts | .stmt | .assignStmt | .callStmt | .ifStmt | .whileStmt | .breakStmt | .continueStmt | .labelStmt
  | .gotoStmt => true
  | _ => false

/-! ## The states of the table -/

namespace Table

/-- A state takes a kind or reduces by a rule for statements in front of it. -/
def takesBetween (table : Table) (kind : Kind) (state : Nat) : Bool :=
  match table.action state kind with
  | .shift _ => true
  | .reduce p => p.lhs.isStatement
  | .reject => false

/-- Each state reduces by one rule at most, which is one for statements unless the state takes only kinds that touch.
-/
def checkReductions (table : Table) : Bool :=
  (List.range table.rows.size).all fun q =>
    (table.row q).reductions.length ≤ 1 && (table.row q).reductions.all fun r =>
      r.1.lhs.isStatement || (table.row q).moves.all fun m =>
        match m.1 with
        | .t kind => kind.touches
        | .n _ => true

/-- States behind a steady kind reduce by rules for statements only, and those behind a kind that is neither steady nor
suffixable reject what touches. -/
def checkBehind (table : Table) : Bool :=
  (table.row 0).reductions.all (·.1.lhs.isStatement) && (List.range table.rows.size).all fun q =>
    (table.row q).moves.all fun m =>
      match m.1 with
      | .t kind =>
        if kind.isSteady then (table.row m.2).reductions.all (·.1.lhs.isStatement)
        else kind.isSuffixable || Kind.all.all fun next => !next.touches || table.action m.2 next = .reject
      | .n _ => true

end Table

theorem keeps_between (kind : Kind) : table.Keeps kind (table.takesBetween kind) := by
  have hcheck : (Kind.all.all fun kind => table.checkKeeps kind (table.takesBetween kind)) = true := by decide +kernel
  refine Table.keeps_of_check (fun hq ha => ?_) (List.all_eq_true.mp hcheck kind (Kind.mem_all kind))
  rw [Table.takesBetween, ha] at hq
  cases hq

variable {q : Nat} {kind kind' : Kind} {p p' : Production}

theorem table_checkReductions (q : Nat) (hq : q < table.rows.size) :
    (table.row q).reductions.length ≤ 1 ∧ ∀ r ∈ (table.row q).reductions, r.1.lhs.isStatement = true
      ∨ ∀ m ∈ (table.row q).moves, ∀ kind, m.1 = .t kind → kind.touches = true := by
  have hcheck : table.checkReductions = true := by decide +kernel
  have hrow := List.all_eq_true.mp hcheck q (List.mem_range.mpr hq)
  rw [Bool.and_eq_true, decide_eq_true_eq, List.all_eq_true] at hrow
  refine ⟨hrow.1, fun r hr => ?_⟩
  obtain h | h := Bool.or_eq_true_iff.mp (hrow.2 r hr)
  · exact .inl h
  · refine .inr fun m hm kind hkind => ?_
    have hall := List.all_eq_true.mp h m hm
    rwa [hkind] at hall

/-- A state reduces by a single rule, whatever kind comes next. -/
theorem eq_of_reduce (h : table.action q kind = .reduce p) (h' : table.action q kind' = .reduce p') : p = p' := by
  obtain ⟨r, hr, rfl, -⟩ := Table.mem_reductions h
  obtain ⟨r', hr', rfl, -⟩ := Table.mem_reductions h'
  obtain ⟨hle, -⟩ := table_checkReductions q (Table.lt_size_of_reduction hr)
  obtain ⟨i, hi, rfl⟩ := List.mem_iff_getElem.mp hr
  obtain ⟨j, hj, rfl⟩ := List.mem_iff_getElem.mp hr'
  obtain rfl : i = j := by omega
  rfl

/-- A state that reduces by another rule than one for statements takes only kinds that touch. -/
theorem touches_of_shift (h : table.action q kind = .reduce p) (hp : p.lhs.isStatement = false) {next : Nat}
    (h' : table.action q kind' = .shift next) : kind'.touches = true := by
  obtain ⟨r, hr, rfl, -⟩ := Table.mem_reductions h
  obtain ⟨-, hall⟩ := table_checkReductions q (Table.lt_size_of_reduction hr)
  obtain hs | hmoves := hall r hr
  · rw [hp] at hs
    cases hs
  · exact hmoves _ (Table.mem_moves (Table.next?_of_action h')) kind' rfl

theorem table_checkBehind : (∀ r ∈ (table.row 0).reductions, r.1.lhs.isStatement = true)
    ∧ ∀ {r q kind}, table.next? r (.t kind) = some q →
      if kind.isSteady then ∀ r ∈ (table.row q).reductions, r.1.lhs.isStatement = true
      else kind.isSuffixable = true ∨ ∀ next, next.touches = true → table.action q next = .reject := by
  have hcheck : table.checkBehind = true := by decide +kernel
  obtain ⟨hfirst, hrows⟩ := (Bool.and_eq_true _ _).mp hcheck
  refine ⟨List.all_eq_true.mp hfirst, fun {r q kind} h => ?_⟩
  have hm := Table.mem_moves h
  have hall := List.all_eq_true.mp (List.all_eq_true.mp hrows r (List.mem_range.mpr (Table.lt_size_of_move hm))) _ hm
  dsimp only at hall
  split at hall
  · rename_i hs
    rw [if_pos hs]
    exact List.all_eq_true.mp hall
  · rename_i hs
    rw [if_neg hs]
    refine (Bool.or_eq_true_iff.mp hall).imp_right fun h next hnext => ?_
    have hrej := List.all_eq_true.mp h next (Kind.mem_all next)
    rw [hnext, Bool.not_true, Bool.false_or] at hrej
    exact of_decide_eq_true hrej

/-! ## What is left out -/

variable {stack : Stack} {before : List Token} {state : Nat}

/-- The parser rejects nothing once it reduced by a rule for statements. -/
theorem Settles.ne_reject_of_isStatement {r : Settled} (h : Settles table kind stack r)
    (ha : table.action stack.state kind = .reduce p) (hp : p.lhs.isStatement = true) (state : Nat) : r ≠ .reject state := by
  refine (keeps_between kind).ne_reject h ?_ state
  rw [Table.takesBetween, ha]
  exact hp

/-- A kind that does not touch and that can come next is taken by the state that rejects another. -/
theorem Settles.takes_of_reject {r : Settled} (h : Settles table kind stack r) (hr : r = .reject state)
    (ht : kind'.touches = false) (hnot : ∀ other, settle table kind' stack ≠ .reject other) :
    table.action state kind' ≠ .reject := by
  induction h with
  | shift | accept | stuck => cases hr
  | @reject stack ha =>
    obtain rfl := Settled.reject.inj hr
    intro hrej
    exact hnot stack.state (by rw [settle, hrej])
  | @reduce stack _ _ hred hrest ih =>
    have hsettles := Settles.reduce hred hrest
    cases hred with
    | @intro p f q ha htop hu hq =>
      have hp : p.lhs.isStatement = false := by
        rw [← Bool.not_eq_true]
        exact fun hp => hsettles.ne_reject_of_isStatement ha hp state hr
      cases ha' : table.action stack.state kind' with
      | shift next =>
        rw [touches_of_shift ha hp ha'] at ht
        cases ht
      | reject => exact absurd (by rw [settle, ha']) (hnot stack.state)
      | reduce p' =>
        obtain rfl := eq_of_reduce ha ha'
        refine ih hr fun other => ?_
        rw [← settle_reduce ha' htop hu hq]
        exact hnot other

/-! ## Where the kinds are exact -/

theorem Stack.IsRead.exists_next (h : stack.IsRead before) {t : Token} (ht : before.getLast? = some t) :
    ∃ r, table.next? r (.t t.kind) = some stack.state := by
  have htop := h.top
  rw [ht] at htop
  cases stack with
  | nil => cases htop
  | cons e below =>
    have hsymbol : e.symbol = .t t.kind := Option.some.inj htop
    exact ⟨_, hsymbol ▸ h.path.1⟩

/-- Behind a steady kind the parser reduces by rules for statements only. -/
theorem Stack.IsRead.isStatement (h : stack.IsRead before) (hs : ∀ t ∈ before.getLast?, t.kind.isSteady = true)
    (ha : table.action stack.state kind = .reduce p) : p.lhs.isStatement = true := by
  obtain ⟨r, hr, rfl, -⟩ := Table.mem_reductions ha
  cases ht : before.getLast? with
  | none =>
    have htop := h.top
    rw [ht] at htop
    obtain rfl : stack = [] := List.head?_eq_none_iff.mp (Option.map_eq_none_iff.mp htop)
    exact table_checkBehind.1 r hr
  | some t =>
    obtain ⟨q, hq⟩ := h.exists_next ht
    have hall := table_checkBehind.2 hq
    rw [if_pos (hs t ht)] at hall
    exact hall r hr

/-- Behind a steady kind the state that rejects a kind takes exactly those that can come next. -/
theorem Stack.IsRead.takes_iff (h : stack.IsRead before) (hs : ∀ t ∈ before.getLast?, t.kind.isSteady = true)
    (hr : settle table kind stack = .reject state) :
    table.action state kind' ≠ .reject ↔ ∀ other, settle table kind' stack ≠ .reject other := by
  have hsettles := settles table kind stack
  rw [hr] at hsettles
  cases hsettles with
  | reject ha =>
    refine ⟨fun htakes => (keeps_between kind').ne_reject (settles ..) ?_, fun hnot hrej => ?_⟩
    · rw [Table.takesBetween]
      split
      · rfl
      · rename_i p hp
        exact h.isStatement hs hp
      · rename_i hrej
        exact absurd hrej htakes
    · exact hnot stack.state (by rw [settle, hrej])
  | reduce hred hrest =>
    have hall := Settles.reduce hred hrest
    cases hred with
    | intro ha => exact absurd rfl (hall.ne_reject_of_isStatement ha (h.isStatement hs ha) state)

end Grammar

namespace Program

open Grammar

/-- How kinds that are named as expected behind tokens are related to those that can come next. -/
structure NamesNext (before : List Token) (expected : List Kind) : Prop where
  /-- Nothing is left out, unless it is an opener or a star that touches a suffixable kind. -/
  complete : ∀ kind, IsBeginning (before.map Token.kind ++ [kind]) →
    kind ∈ expected ∨ kind.touches = true ∧ ∃ t ∈ before.getLast?, t.kind.isSuffixable = true
  /-- At the beginning and behind a steady kind, the kinds are those that can come next. -/
  exact : (∀ t ∈ before.getLast?, t.kind.isSteady = true) →
    ∀ kind, kind ∈ expected ↔ IsBeginning (before.map Token.kind ++ [kind])

variable {tokens : List Token} {i : Nat}

/-- What the error for a rejected token names as expected. -/
theorem exists_namesNext (file : Option String) (h : rejection? table [] tokens = some i) :
    ∃ e, ofTokens file tokens = .error (.syntactic e) ∧ NamesNext (tokens.take i) e.fault.expected := by
  obtain ⟨expected, herror, hcases⟩ := exists_expected file h
  refine ⟨_, herror, ?_⟩
  rw [SyntaxError.fault_ofRejection, SyntaxFault.expected_ofRejection]
  obtain ⟨stack, state, hread, hreject, hexpected⟩ | ⟨⟨kinds, hkinds⟩, hexpected⟩ := hcases
  · have hmem : ∀ kind, kind ∈ expected ↔ table.action state kind ≠ .reject := fun kind => by
      rw [hexpected, Table.expected, List.mem_filter, and_iff_right (Kind.mem_all kind), decide_eq_true_eq]
    have hexact : (∀ t ∈ (tokens.take i).getLast?, t.kind.isSteady = true) →
        ∀ kind, kind ∈ expected ↔ IsBeginning ((tokens.take i).map Token.kind ++ [kind]) := by
      intro hs kind
      rw [hmem, hread.isBeginning_iff]
      exact hread.takes_iff hs hreject
    refine ⟨fun kind hk => ?_, hexact⟩
    have hnot := hread.isBeginning_iff.mp hk
    cases ht : kind.touches with
    | false => exact .inl ((hmem kind).mpr ((settles ..).takes_of_reject hreject ht hnot))
    | true =>
      cases hlast : (tokens.take i).getLast? with
      | none => exact .inl ((hexact (by rw [hlast]; nofun) kind).mpr hk)
      | some t =>
        obtain ⟨q, hq⟩ := hread.exists_next hlast
        have hbehind := table_checkBehind.2 hq
        split at hbehind
        · rename_i hs
          refine .inl ((hexact (fun t' ht' => ?_) kind).mpr hk)
          obtain rfl : t = t' := Option.some.inj (hlast.symm.trans ht')
          exact hs
        · obtain hsuffix | hrej := hbehind
          · exact .inr ⟨rfl, t, rfl, hsuffix⟩
          · exact absurd (by rw [settle, hrej kind ht]) (hnot stack.state)
  · have hnot : ∀ kind, ¬IsBeginning ((tokens.take i).map Token.kind ++ [kind]) := fun kind => by
      rw [hkinds]
      exact not_isBeginning_behind_end kind
    rw [hexpected]
    exact ⟨fun kind hk => absurd hk (hnot kind), fun _ kind => iff_of_false List.not_mem_nil (hnot kind)⟩

/-- The kinds that the error for tokens names as expected. -/
def expectedKinds (tokens : List Token) : List Kind :=
  match ofTokens none tokens with
  | .error (.syntactic e) => e.fault.expected
  | _ => []

/-- Tokens with an assignment for a condition, as in `fun f void() { if x := 1 {} }`. -/
def assignmentAsCondition : List Token :=
  [Kind.funKw, .name, .voidKw, .paren, .closeParen, .openBrace, .ifKw, .name, .assign, .integer, .openBrace, .closeBrace,
    .closeBrace].map blankToken

theorem exists_namesNext_condition :
    rejection? table [] assignmentAsCondition = some 8
      ∧ ∃ e, ofTokens none assignmentAsCondition = .error (.syntactic e)
        ∧ NamesNext (assignmentAsCondition.take 8) e.fault.expected :=
  ⟨by decide +kernel, exists_namesNext none (by decide +kernel)⟩

/-- The sign is taken for the end of the condition before it is rejected. So the error names a closing brace, which cannot stand
there, and leaves out the opening parenthesis of a call. -/
theorem expectedKinds_condition :
    rejection? table [] assignmentAsCondition = some 8
      ∧ (.closeBrace ∈ expectedKinds assignmentAsCondition
        ∧ ¬IsBeginning ((assignmentAsCondition.take 8).map Token.kind ++ [.closeBrace]))
      ∧ .paren ∉ expectedKinds assignmentAsCondition
        ∧ IsBeginning ((assignmentAsCondition.take 8).map Token.kind ++ [.paren]) := by
  have hrejected : rejection? table [] (assignmentAsCondition.take 8 ++ [blankToken .closeBrace]) = some 8 := by
    decide +kernel
  have hend : rejection? table [] (assignmentAsCondition.take 8 ++ [blankToken .paren]) = some 9 := by decide +kernel
  exact ⟨by decide +kernel, ⟨by decide +kernel, (rejection?_eq_some_iff.mp hrejected).2⟩, by decide +kernel,
    (rejection?_eq_some_iff.mp hend).1⟩

end Program

end FlatScope
