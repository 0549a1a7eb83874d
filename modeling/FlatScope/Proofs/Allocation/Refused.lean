/-
  Types that are not allocated. Behind the name of a builtin a parenthesis opens in calls only, and so the argument of an allocation
  is found among the tokens of any unit (`Derivation.beginsArguments`). It is a type among arguments, which can be told from an
  expression, or it is an expression, which has no star outside of its brackets and so is a name with lengths at most. No other type
  is allocated in a unit that is parsed (`Program.isTelling_or_isBare`).
-/
import FlatScope.Proofs.Allocation.Argument
import FlatScope.Proofs.Grammar.Phrase
import FlatScope.Proofs.Parsing

namespace FlatScope

namespace Grammar

/-! ## Calls of builtins -/

/-- A symbol is a type, or what stands in one. -/
def Sym.isTyping : Sym → Bool
  | .t kind => kind ≠ .builtin
  | .n x => x matches .type | .types | .baseType | .primitive | .arraySize | .typeArg

theorem Production.isTyping_of_mem_rhs (p : Production) (h : (Sym.n p.lhs).isTyping = true) : ∀ s ∈ p.rhs, s.isTyping = true := by
  revert h
  cases p <;> decide

/-- No builtin is named in a type. -/
theorem Derivation.kind_ne_builtin {s : Sym} (d : Derivation s) (h : s.isTyping = true) : ∀ t ∈ d.tokens, t.kind ≠ .builtin :=
  fun t ht => of_decide_eq_true (d.forall_tokens (P := fun s => s.isTyping = true) Production.isTyping_of_mem_rhs h t ht)

/-- Tokens that can stand behind the parenthesis that opens a call: it closes at once, or an argument comes first and
an end behind it. -/
def BeginsArguments (ts : List Token) : Prop :=
  (∃ t rest, ts = t :: rest ∧ t.kind = .closeParen)
    ∨ ∃ (a : Derivation (.n .arg)) (t : Token) (rest : List Token), ts = a.tokens ++ t :: rest ∧ t.kind.isEnd false = true

theorem BeginsArguments.append {ts : List Token} (h : BeginsArguments ts) (more : List Token) : BeginsArguments (ts ++ more) := by
  obtain ⟨t, rest, rfl, ht⟩ | ⟨a, t, rest, rfl, ht⟩ := h
  · exact .inl ⟨t, rest ++ more, rfl, ht⟩
  · exact .inr ⟨a, t, rest ++ more, by rw [List.append_assoc]; rfl, ht⟩

/-- Suffixes are arguments, if it is a parenthesis that they begin with. -/
def Derivation.OpensCall : {s : Sym} → Derivation s → Prop
  | .n .suffixes, d | .n .suffix, d | .n .callSuffix, d => ∀ t ts, d.tokens = t :: ts → t.kind = .paren → BeginsArguments ts
  | _, _ => True

theorem Derivation.opensCall {s : Sym} (d : Derivation s) : d.OpensCall := by
  induction d using Derivation.induct with
  | leaf t => trivial
  | node p f h =>
    cases p
    case suffixesOne | suffixCall =>
      match f, h with
      | .cons x .nil, ⟨hx, _⟩ =>
        intro t ts htokens ht
        exact hx t ts ((List.append_nil _).symm.trans htokens) ht
    case suffixesMore =>
      match f, h with
      | .cons xs (.cons x .nil), ⟨hxs, _⟩ =>
        intro t ts htokens ht
        have htokens : xs.tokens ++ (x.tokens ++ []) = t :: ts := htokens
        obtain ⟨t', ts', hhead, -⟩ := xs.head_mem_starts (by decide)
        rw [hhead] at htokens
        obtain ⟨rfl, rfl⟩ := List.cons.inj htokens
        exact (hxs t' ts' hhead ht).append _
    case suffixIndex =>
      match f with
      | .cons x .nil =>
        intro t ts htokens ht
        obtain ⟨t', ts', hhead, hstarts⟩ := x.head_mem_starts (by decide)
        have htokens : x.tokens ++ [] = t :: ts := htokens
        rw [hhead] at htokens
        obtain ⟨rfl, -⟩ := List.cons.inj htokens
        rw [List.mem_singleton.mp hstarts] at ht
        cases ht
    case callMany =>
      match f with
      | .cons o (.cons a (.cons as (.cons c .nil))) =>
        intro t ts htokens _
        obtain ⟨o', -, ho, -⟩ := o.isFolded
        obtain ⟨e, rest, hhead, hstarts⟩ := as.head_mem_starts (by decide)
        have htokens : o.tokens ++ (a.tokens ++ (as.tokens ++ (c.tokens ++ []))) = t :: ts := htokens
        rw [ho, hhead] at htokens
        obtain ⟨-, rfl⟩ := List.cons.inj htokens
        refine .inr ⟨a, e, rest ++ (c.tokens ++ []), rfl, ?_⟩
        rw [List.mem_singleton.mp hstarts]
        rfl
    case callOne =>
      match f with
      | .cons o (.cons a (.cons c .nil)) =>
        intro t ts htokens _
        obtain ⟨o', -, ho, -⟩ := o.isFolded
        obtain ⟨e, he, hc, -⟩ := c.isFolded
        have htokens : o.tokens ++ (a.tokens ++ (c.tokens ++ [])) = t :: ts := htokens
        rw [ho, hc] at htokens
        obtain ⟨-, rfl⟩ := List.cons.inj htokens
        refine .inr ⟨a, e, [], rfl, ?_⟩
        rw [he]
        rfl
    case callNone =>
      match f with
      | .cons o (.cons c .nil) =>
        intro t ts htokens _
        obtain ⟨o', -, ho, -⟩ := o.isFolded
        obtain ⟨e, he, hc, -⟩ := c.isFolded
        have htokens : o.tokens ++ (c.tokens ++ []) = t :: ts := htokens
        rw [ho, hc] at htokens
        obtain ⟨-, rfl⟩ := List.cons.inj htokens
        exact .inl ⟨e, [], rfl, he⟩
    all_goals trivial

/-- Parentheses open behind types and in suffixes only. -/
def opensInSuffixes : List Sym → Bool
  | s :: s' :: ss => (s.isTyping || s' = .n .suffix || s' = .n .suffixes || .paren ∉ s'.starts) && opensInSuffixes (s' :: ss)
  | _ => true

theorem Production.opensInSuffixes_rhs (p : Production) : opensInSuffixes p.rhs = true := by
  cases p <;> decide

variable {b t : Token}

mutual

/-- A parenthesis behind the name of a builtin opens the arguments of a call. -/
theorem Derivation.beginsArguments (hb : b.kind = .builtin) (ht : t.kind = .paren) : {s : Sym} → (d : Derivation s) →
    (front back : List Token) → d.tokens = front ++ b :: t :: back → BeginsArguments back
  | _, .leaf _, front, back, h => by
    have hlength := congrArg List.length h
    rw [List.length_append] at hlength
    exact absurd hlength (by simp [Derivation.tokens]; omega)
  | _, .node p f, front, back, h => f.beginsArguments hb ht p.opensInSuffixes_rhs p.unit_not_mem_rhs front back h

theorem Forest.beginsArguments (hb : b.kind = .builtin) (ht : t.kind = .paren) : {ss : List Sym} → (f : Forest ss) →
    opensInSuffixes ss = true → .n .unit ∉ ss → (front back : List Token) → f.tokens = front ++ b :: t :: back →
    BeginsArguments back
  | _, .nil, _, _, front, back, h => absurd h.symm (by simp [Forest.tokens])
  | s :: ss, .cons d f, hopens, hunit, front, back, h => by
    obtain ⟨before, -, hf⟩ | ⟨rest, hd, hback⟩ := append_eq_append_cons (show d.tokens ++ f.tokens = _ from h)
    · refine f.beginsArguments hb ht ?_ (fun h => hunit (List.mem_cons_of_mem _ h)) before back hf
      cases ss with
      | nil => rfl
      | cons s' ss => exact (Bool.and_eq_true_iff.mp hopens).2
    · cases rest with
      | cons t' rest =>
        obtain ⟨rfl, rfl⟩ := List.cons.inj hback
        exact (d.beginsArguments hb ht front rest hd).append _
      | nil =>
        -- The name ends the first part and the parenthesis begins the next one.
        match f with
        | .nil => cases hback
        | .cons d' f =>
          have hback : d'.tokens ++ f.tokens = t :: back := hback.symm
          obtain ⟨t', ts, hhead, hstarts⟩ := d'.head_mem_starts fun h => hunit (h ▸ .tail _ (.head _))
          rw [hhead] at hback
          obtain ⟨rfl, rfl⟩ := List.cons.inj hback
          have hopens := (Bool.and_eq_true_iff.mp hopens).1
          simp only [Bool.or_eq_true, decide_eq_true_eq] at hopens
          obtain ((htyping | hsuffix) | hsuffixes) | hparen := hopens
          · exact absurd hb (d.kind_ne_builtin htyping b (hd ▸ List.mem_append_right _ (.head _)))
          · subst hsuffix
            exact (d'.opensCall t' ts hhead ht).append _
          · subst hsuffixes
            exact (d'.opensCall t' ts hhead ht).append _
          · exact absurd (ht ▸ hstarts) hparen

end

/-! ## Arguments -/

/-- A type among arguments is a type. -/
def Derivation.IsTold : {s : Sym} → Derivation s → Prop
  | .n .typeArg, a => ∃ w : Derivation (.n .type), w.tokens = a.tokens ∧ w.value = a.value
  | _, _ => True

theorem Derivation.isTold {s : Sym} (d : Derivation s) : d.IsTold := by
  induction d using Derivation.induct with
  | leaf t => trivial
  | node p f h =>
    cases p
    case typeArgPrimitive =>
      match f with
      | .cons word .nil =>
        exact ⟨.node .typeBase (.cons (.node .basePrimitive (.cons word .nil)) .nil), List.append_nil _, rfl⟩
    case typeArgNamedPointer =>
      match f with
      | .cons word rest =>
        refine ⟨.node .typePointer (.cons (.node .typeBase (.cons (.node .baseNamed (.cons word .nil)) .nil)) rest), ?_, rfl⟩
        exact congrArg (· ++ rest.tokens) ((List.append_nil _).trans (List.append_nil _))
    case typeArgPointer =>
      match f, h with
      | .cons a rest, ⟨⟨w, htokens, hvalue⟩, _⟩ =>
        exact ⟨.node .typePointer (.cons w rest), congrArg (· ++ rest.tokens) htokens,
          congrArg (fun v => Production.read .typePointer (v, rest.values)) hvalue⟩
    case typeArgArray =>
      match f, h with
      | .cons a rest, ⟨⟨w, htokens, hvalue⟩, _⟩ =>
        exact ⟨.node .typeArray (.cons w rest), congrArg (· ++ rest.tokens) htokens,
          congrArg (fun v => Production.read .typeArray (v, rest.values)) hvalue⟩
    case typeArgFunMany =>
      match f, h with
      | .cons a rest, ⟨⟨w, htokens, hvalue⟩, _⟩ =>
        exact ⟨.node .typeFunMany (.cons w rest), congrArg (· ++ rest.tokens) htokens,
          congrArg (fun v => Production.read .typeFunMany (v, rest.values)) hvalue⟩
    case typeArgFunOne =>
      match f, h with
      | .cons a rest, ⟨⟨w, htokens, hvalue⟩, _⟩ =>
        exact ⟨.node .typeFunOne (.cons w rest), congrArg (· ++ rest.tokens) htokens,
          congrArg (fun v => Production.read .typeFunOne (v, rest.values)) hvalue⟩
    case typeArgFunNone =>
      match f, h with
      | .cons a rest, ⟨⟨w, htokens, hvalue⟩, _⟩ =>
        exact ⟨.node .typeFunNone (.cons w rest), congrArg (· ++ rest.tokens) htokens,
          congrArg (fun v => Production.read .typeFunNone (v, rest.values)) hvalue⟩
    all_goals trivial

/-- The declaration of a variable of a type, as a unit. -/
def declaring (w : Derivation (.n .type)) : Derivation (.n .unit) :=
  .node .unitDecls (.cons (.node .declsOne (.cons (.node .declVar (.cons (.node .varTyped (.cons (.leaf (blankToken .varKw))
    (.cons (.leaf (blankToken .name)) (.cons w .nil)))) .nil)) .nil)) .nil)

/-- The tokens of a type are read as one type only. -/
theorem Derivation.value_eq_of_tokens {w w' : Derivation (.n .type)} (h : w.tokens = w'.tokens) : w.value = w'.value := by
  have htokens : (declaring w).tokens = (declaring w').tokens := by
    simp only [declaring, Derivation.tokens, Forest.tokens, h]
  have hvalue := congrArg Derivation.value (Derivation.eq_of_tokens table_isComplete htokens)
  exact (VarDecl.mk.inj (Decl.var.inj (List.cons.inj hvalue).1)).2.1

/-- A type is a word with lengths behind it, or a star cuts it. -/
def Derivation.IsCut : {s : Sym} → Derivation s → Prop
  | .n .type, w => (w.value.IsBare ∧ ∀ rest, inside true 0 (w.tokens ++ rest) = w.tokens ++ inside true 0 rest)
    ∨ ∀ rest, (inside true 0 (w.tokens ++ rest)).length < w.tokens.length
  | _, _ => True

theorem Derivation.isCut {s : Sym} (d : Derivation s) : d.IsCut := by
  induction d using Derivation.induct with
  | leaf t => trivial
  | node p f h =>
    cases p
    case typeBase =>
      match f with
      | .cons t .nil =>
        obtain ⟨word, -, hvalue⟩ := t.isFolded
        have htokens : (Derivation.node .typeBase (.cons t .nil)).tokens = t.tokens := List.append_nil _
        have hbare : t.value.IsBare := by
          rw [hvalue]
          trivial
        exact .inl ⟨hbare, fun more => htokens ▸ t.inside_append rfl more⟩
    case typePointer | typeFunMany | typeFunOne | typeFunNone =>
      match f, h with
      | .cons w rest, ⟨h, _⟩ =>
        refine .inr fun more => ?_
        show (inside true 0 (w.tokens ++ rest.tokens ++ more)).length < (w.tokens ++ rest.tokens).length
        rw [List.append_assoc, List.length_append]
        obtain ⟨-, hw⟩ | hw := h
        · rw [hw, List.length_append]
          exact Nat.add_lt_add_left (rest.inside_lt rfl more) _
        · exact Nat.lt_add_right _ (hw _)
    case typeArray =>
      match f, h with
      | .cons w rest, ⟨h, _⟩ =>
        obtain ⟨hbare, hw⟩ | hw := h
        · refine .inl ⟨hbare, fun more => ?_⟩
          show inside true 0 (w.tokens ++ rest.tokens ++ more) = w.tokens ++ rest.tokens ++ inside true 0 more
          rw [List.append_assoc, hw, rest.inside_append (m := 0) rfl, List.append_assoc]
        · refine .inr fun more => ?_
          show (inside true 0 (w.tokens ++ rest.tokens ++ more)).length < (w.tokens ++ rest.tokens).length
          rw [List.append_assoc, List.length_append]
          exact Nat.lt_add_right _ (hw _)
    all_goals trivial

/-- What is a type and an expression is a word with lengths. -/
theorem Derivation.isBare_of_tokens {e : Derivation (.n .expr)} {w : Derivation (.n .type)} (h : e.tokens = w.tokens) :
    w.value.IsBare := by
  obtain ⟨hbare, -⟩ | hcut := w.isCut
  · exact hbare
  · have hlt := hcut []
    rw [← h, e.inside_append rfl, inside, List.append_nil] at hlt
    exact absurd hlt (Nat.lt_irrefl _)

/-- What is a type and a type among arguments can be told from an expression. -/
theorem Derivation.isTelling_of_tokens {a : Derivation (.n .typeArg)} {w : Derivation (.n .type)} (h : a.tokens = w.tokens)
    (hscanned : ∀ t ∈ w.tokens, t.IsScanned) : w.value.IsTelling := by
  obtain ⟨w', htokens, hvalue⟩ := a.isTold
  rw [value_eq_of_tokens (htokens.trans h).symm, hvalue]
  exact (a.isWellFormed_value (h ▸ hscanned) (a.isProper_of_isPure rfl)).2

theorem Derivation.exists_of_arg (a : Derivation (.n .arg)) :
    (∃ e : Derivation (.n .expr), e.tokens = a.tokens) ∨ ∃ t : Derivation (.n .typeArg), t.tokens = a.tokens := by
  suffices h : ∀ {s : Sym} (d : Derivation s), s = .n .arg → (∃ e : Derivation (.n .expr), e.tokens = d.tokens)
      ∨ ∃ t : Derivation (.n .typeArg), t.tokens = d.tokens from h a rfl
  intro s d hs
  cases d with
  | leaf t => cases hs
  | node p f =>
    cases p
    case argExpr =>
      match f with
      | .cons e .nil => exact .inl ⟨e, (List.append_nil _).symm⟩
    case argType =>
      match f with
      | .cons t .nil => exact .inr ⟨t, (List.append_nil _).symm⟩
    all_goals cases hs

/-- What is a type and an argument can be told from an expression or is bare. -/
theorem Derivation.isTelling_or_isBare_of_tokens {a : Derivation (.n .arg)} {w : Derivation (.n .type)} (h : a.tokens = w.tokens)
    (hscanned : ∀ t ∈ w.tokens, t.IsScanned) : w.value.IsTelling ∨ w.value.IsBare := by
  obtain ⟨e, he⟩ | ⟨b, hb⟩ := a.exists_of_arg
  · exact .inr (isBare_of_tokens (he.trans h))
  · exact .inl (isTelling_of_tokens (hb.trans h) hscanned)

end Grammar

open Grammar in
/-- A type that is allocated somewhere in a unit can be told from an expression or is bare. -/
theorem Program.isTelling_or_isBare {file : Option String} (m : Allocation) (w : Derivation (.n .type)) {front back : List Token}
    (hscanned : ∀ t ∈ w.tokens, t.IsScanned) {p : Program} (h : ofTokens file (front ++ m.tokens w.tokens ++ back) = .ok p) :
    w.value.IsTelling ∨ w.value.IsBare := by
  obtain ⟨u, hu, -⟩ := exists_derivation h
  have htokens : u.tokens = (front ++ [m.target, m.assign]) ++ m.callee :: m.opening :: (w.tokens ++ m.closing :: back) := by
    rw [hu, Allocation.tokens]
    simp only [List.append_assoc, List.cons_append, List.nil_append]
  obtain ⟨t, rest, hfirst, ht⟩ | ⟨a, t, rest, hargument, ht⟩ :=
    u.beginsArguments m.callee_kind m.opening_kind _ _ htokens
  · obtain ⟨t', ts, hhead, hstarts⟩ := w.head_mem_starts (by decide)
    rw [hhead] at hfirst
    obtain ⟨rfl, -⟩ := List.cons.inj hfirst
    rw [ht] at hstarts
    exact absurd hstarts (by decide)
  · have hclosing : m.closing.kind.isEnd false = true := by
      rw [m.closing_kind]
      rfl
    have htype : w.tokens = a.tokens := Derivation.tokens_eq_of_append rfl rfl hclosing ht hargument
    exact Derivation.isTelling_or_isBare_of_tokens htype.symm hscanned

end FlatScope
