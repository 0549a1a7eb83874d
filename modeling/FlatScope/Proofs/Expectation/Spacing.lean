/-
  White space in front of an opener or a star. The parser speaks of white space if its state takes the touching form of the
  rejected kind. What it reduces by in front of the spaced form it reduces by in front of the touching one
  (`reduces_touching`), and a state that takes only the touching form keeps it (`keeps_touching`). So it speaks of white space
  exactly if the touching form could stand at that place (`Program.hintsAtSpaces`).
-/
import FlatScope.Proofs.Expectation.Ahead
import FlatScope.Proofs.Grammar.Proper

namespace FlatScope

namespace Kind

/-- The kinds of lexemes that stand apart though they could touch. -/
def spaced : List Kind := [spacedBracket, spacedParen, spacedStar]

theorem mem_spaced {k : Kind} (h : k.isSpaced = true) : k ∈ spaced := by
  cases k <;> first | decide | cases h

end Kind

namespace Grammar

/-! ## The states of the table -/

/-- A state takes the touching form of a kind but not the spaced one. -/
def Table.takesOnlyTouching (table : Table) (kind : Kind) (state : Nat) : Bool :=
  table.action state kind = .reject && table.action state kind.touching ≠ .reject

/-- The table reduces by the same rules in front of the touching form of a kind as in front of the spaced one. -/
def Table.checkTouching (table : Table) (kind : Kind) : Bool :=
  (List.range table.rows.size).all fun q =>
    match table.action q kind with
    | .reduce p => table.action q kind.touching = .reduce p
    | _ => true

theorem reduces_touching {kind : Kind} (hk : kind.isSpaced = true) {q : Nat} {p : Production}
    (h : table.action q kind = .reduce p) : table.action q kind.touching = .reduce p := by
  have hcheck : Kind.spaced.all table.checkTouching = true := by decide +kernel
  obtain ⟨r, hr, -⟩ := Table.mem_reductions h
  have hall := List.all_eq_true.mp (List.all_eq_true.mp hcheck kind (Kind.mem_spaced hk)) q
    (List.mem_range.mpr (Table.lt_size_of_reduction hr))
  rw [h] at hall
  exact of_decide_eq_true hall

theorem keeps_touching {kind : Kind} (hk : kind.isSpaced = true) :
    table.Keeps kind.touching (table.takesOnlyTouching kind) := by
  have hcheck : (Kind.spaced.all fun kind => table.checkKeeps kind.touching (table.takesOnlyTouching kind)) = true := by
    decide +kernel
  refine Table.keeps_of_check (fun hq => ?_) (List.all_eq_true.mp hcheck kind (Kind.mem_spaced hk))
  rw [Table.takesOnlyTouching, Bool.and_eq_true, decide_eq_true_eq, decide_eq_true_eq] at hq
  exact hq.2

/-! ## Settling in front of the touching form -/

/-- Where the parser rejects a spaced kind, its state takes the touching form exactly if the parser does not reject it. -/
theorem Settles.takes_touching {kind : Kind} (hk : kind.isSpaced = true) {stack : Stack} {r : Settled}
    (h : Settles table kind stack r) {state : Nat} (hr : r = .reject state) :
    table.action state kind.touching ≠ .reject ↔ ∀ other, settle table kind.touching stack ≠ .reject other := by
  induction h with
  | shift | accept | stuck => cases hr
  | @reject stack ha =>
    obtain rfl := Settled.reject.inj hr
    refine ⟨fun htakes other => ?_, fun hnot hr => ?_⟩
    · refine (keeps_touching hk).ne_reject (settles ..) ?_ other
      rw [Table.takesOnlyTouching, ha, decide_eq_true rfl, Bool.true_and]
      exact decide_eq_true htakes
    · refine hnot stack.state ?_
      rw [settle, hr]
  | reduce hred hrest ih =>
    cases hred with
    | intro ha ht hu hq =>
      rw [settle_reduce (reduces_touching hk ha) ht hu hq]
      exact ih hr

end Grammar

/-! ## The wording -/

namespace SyntaxFault

/-- A fault speaks of white space. -/
def SpeaksOfSpace (fault : SyntaxFault) (text : String) : Prop :=
  fault.message = "whitespace is not permitted before " ++ text

theorem head?_append {s t : String} {c : Char} (h : s.toList.head? = some c) : (s ++ t).toList.head? = some c := by
  rw [String.toList_append, List.head?_append, h]
  rfl

/-- The first letters of the wordings tell the fault for a space from the others. -/
theorem SpeaksOfSpace.head? {fault : SyntaxFault} {text : String} (h : fault.SpeaksOfSpace text) :
    fault.message.toList.head? = some 'w' := by
  rw [h]
  exact head?_append (by simp)

/-- Only the fault for a space is worded so. -/
theorem speaksOfSpace_iff {fault : SyntaxFault} {text : String} :
    fault.SpeaksOfSpace text ↔ ∃ found expected, fault = spaceBefore found expected ∧ text = found.display := by
  constructor
  · intro h
    cases fault with
    | spaceBefore found expected =>
      have h : "whitespace is not permitted before " ++ found.display = "whitespace is not permitted before " ++ text := h
      exact ⟨found, expected, rfl, ((String.append_right_inj _).mp h).symm⟩
    | unexpected found lexeme expected =>
      have hu : (unexpected found lexeme expected).message.toList.head? = some 'u' :=
        head?_append (head?_append (head?_append (by simp)))
      cases hu.symm.trans h.head?
    | bareExpression =>
      have he : "expected ':=' or a call; a bare expression is not a statement".toList.head? = some 'e' := by simp
      cases he.symm.trans h.head?
    | badTarget =>
      have ha : "assignment target must be a variable optionally followed by [selectors]".toList.head? = some 'a' := by simp
      cases ha.symm.trans h.head?
  · rintro ⟨found, expected, rfl, rfl⟩
    rfl

theorem ofRejection_speaksOfSpace_iff {found : Kind} {lexeme text : String} {expected : List Kind} :
    (ofRejection found lexeme expected).SpeaksOfSpace text
      ↔ (found.isSpaced = true ∧ found.touching ∈ expected) ∧ text = found.display := by
  rw [speaksOfSpace_iff, ofRejection]
  split
  · rename_i h
    refine ⟨?_, fun ht => ⟨found, expected, rfl, ht.2⟩⟩
    rintro ⟨_, _, he, rfl⟩
    obtain ⟨rfl, -⟩ := SyntaxFault.spaceBefore.inj he
    exact ⟨h, rfl⟩
  · rename_i h
    refine iff_of_false ?_ fun ht => h ht.1
    rintro ⟨_, _, he, -⟩
    cases he

end SyntaxFault

/-! ## The hint is exact -/

/-- The token with the kind it has if it touches the token before it. -/
def Token.touching (t : Token) : Token := { t with kind := t.kind.touching }

namespace Program

open Grammar

/-- How an error for tokens speaks of white space. -/
structure HintsAtSpaces (file : Option String) (tokens : List Token) : Prop where
  /-- It does so in front of a rejected kind with a touching form, exactly if the touching form would not be rejected there
  and nothing would be before. -/
  exact : ∀ i t, rejection? table [] tokens = some i → tokens[i]? = some t → t.kind.isSpaced = true →
    ∃ e, ofTokens file tokens = .error (.syntactic e)
      ∧ (e.fault.SpeaksOfSpace t.kind.display ↔ ∀ j, rejection? table [] (tokens.set i t.touching) = some j → i < j)
  /-- It does so in front of such a kind only. -/
  only : ∀ e text, ofTokens file tokens = .error (.syntactic e) → e.fault.SpeaksOfSpace text →
    ∃ i t, rejection? table [] tokens = some i ∧ tokens[i]? = some t ∧ t.kind.isSpaced = true ∧ text = t.kind.display

variable {file : Option String} {tokens : List Token} {i : Nat}

/-- The tokens up to a changed one are no longer rejected exactly if its new kind can come next. -/
theorem lt_rejection?_set_iff {t : Token} (hi : i < tokens.length) :
    (∀ j, rejection? table [] (tokens.set i t) = some j → i < j)
      ↔ IsBeginning ((tokens.take i).map Token.kind ++ [t.kind]) := by
  have hkinds : (kindsToEnd (tokens.set i t)).take (i + 1) = (tokens.take i).map Token.kind ++ [t.kind] := by
    rw [kindsToEnd, List.take_append_of_le_length (by rwa [List.length_map, List.length_set]), ← List.map_take,
      List.take_add_one, List.take_set_of_le (Nat.le_refl i), List.getElem?_set_self hi, List.map_append]
    rfl
  rw [← hkinds, isBeginning_take_iff]
  rfl

theorem hintsAtSpaces (file : Option String) (tokens : List Token) : HintsAtSpaces file tokens := by
  refine ⟨fun i t h ht hk => ?_, fun e text he htext => ?_⟩
  · obtain ⟨expected, herror, hcases⟩ := exists_expected file h
    rw [ht] at herror
    refine ⟨_, herror, ?_⟩
    obtain ⟨hi, hget⟩ := List.getElem?_eq_some_iff.mp ht
    rw [SyntaxError.fault_ofRejection, SyntaxFault.ofRejection_speaksOfSpace_iff, lt_rejection?_set_iff hi, Option.map_some,
      Option.getD_some, and_iff_left rfl, and_iff_right hk]
    obtain ⟨stack, state, hread, hreject, hexpected⟩ | ⟨⟨kinds, hkinds⟩, hexpected⟩ := hcases
    · rw [List.drop_eq_getElem_cons hi, hget] at hreject
      have hmem : t.kind.touching ∈ expected ↔ table.action state t.kind.touching ≠ .reject := by
        rw [hexpected, Table.expected, List.mem_filter, and_iff_right (Kind.mem_all _), decide_eq_true_eq]
      rw [hmem, (settles table t.kind stack).takes_touching hk hreject]
      exact hread.isBeginning_iff.symm
    · rw [hexpected, hkinds]
      exact iff_of_false List.not_mem_nil (not_isBeginning_behind_end _)
  · obtain ⟨found, expected, hfault, rfl⟩ := SyntaxFault.speaksOfSpace_iff.mp htext
    cases hp : parseTokens table tokens with
    | stuck => exact absurd hp (parseTokens_ne_stuck table_isCoherent tokens)
    | accepted unit =>
      -- what is found in reading the derivation is about no token
      rw [ofTokens, hp] at he
      dsimp only at he
      split at he
      · rename_i e' he'
        obtain rfl := Except.error.inj he
        have hfound := unit.found?_of_fault? he'
        rw [hfault] at hfound
        cases hfound
      · cases he
    | rejected token expected' =>
      obtain ⟨i, hi⟩ := exists_rejection?_iff.mpr ⟨token, expected', hp⟩
      obtain ⟨expected', herror, -⟩ := exists_expected file hi
      obtain rfl := SourceError.syntactic.inj (Except.error.inj (he.symm.trans herror))
      rw [SyntaxError.fault_ofRejection, SyntaxFault.ofRejection_speaksOfSpace_iff] at htext
      obtain ⟨⟨hk, -⟩, htext⟩ := htext
      cases ht : tokens[i]? with
      | some t =>
        rw [ht] at hk htext
        exact ⟨i, t, hi, ht, hk, htext⟩
      | none =>
        rw [ht] at hk
        exact absurd hk Bool.false_ne_true

end Program

end FlatScope
