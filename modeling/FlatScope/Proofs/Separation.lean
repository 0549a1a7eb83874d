/-
  Semicolons mean nothing. Behind each statement of a block there may be a semicolon, and it is in the rules for statement lists only,
  each of which has a twin without it that makes the same of its statements. So tokens without some of their semicolons are
  derived like the tokens themselves (`Grammar.Derivation.thins`), and so are tokens with one semicolon more behind a statement of
  a block (`Grammar.Derivation.HasStatement.exists_ended`). Since what is derived is what the parser accepts, neither changes the
  program (`Program.ofTokens_separated`).
-/
import FlatScope.Proofs.Parsing
import FlatScope.Proofs.Printing.Basic

namespace FlatScope

/-- The second tokens are the first ones without some of their semicolons. -/
inductive Token.Thinned : List Token → List Token → Prop
  | nil : Thinned [] []
  | keep {t : Token} {ts ts' : List Token} (h : Thinned ts ts') : Thinned (t :: ts) (t :: ts')
  | drop {t : Token} {ts ts' : List Token} (ht : t.kind = .semicolon) (h : Thinned ts ts') : Thinned (t :: ts) ts'

namespace Token.Thinned

variable {ts us vs : List Token}

/-- Without any of the semicolons. -/
theorem all (ts : List Token) : Thinned ts (ts.filter fun t => t.kind ≠ .semicolon) := by
  induction ts with
  | nil => exact .nil
  | cons t ts ih =>
    by_cases ht : t.kind = .semicolon
    · rw [List.filter_cons_of_neg (by simpa using ht)]
      exact .drop ht ih
    · rw [List.filter_cons_of_pos (by simpa using ht)]
      exact .keep ih

theorem eq_nil (h : Thinned [] vs) : vs = [] := by
  cases h
  rfl

theorem split (h : Thinned (ts ++ us) vs) : ∃ ts' us', vs = ts' ++ us' ∧ Thinned ts ts' ∧ Thinned us us' := by
  induction ts generalizing vs with
  | nil => exact ⟨[], vs, rfl, .nil, h⟩
  | cons t ts ih =>
    cases h with
    | keep h =>
      obtain ⟨ts', us', rfl, hts, hus⟩ := ih h
      exact ⟨t :: ts', us', rfl, .keep hts, hus⟩
    | drop ht h =>
      obtain ⟨ts', us', rfl, hts, hus⟩ := ih h
      exact ⟨ts', us', rfl, .drop ht hts, hus⟩

/-- A token that is no semicolon stays. -/
theorem single {t : Token} (h : Thinned [t] vs) (ht : t.kind ≠ .semicolon) : vs = [t] := by
  cases h with
  | keep h => rw [h.eq_nil]
  | drop hs _ => exact absurd hs ht

end Token.Thinned

namespace Grammar

open Token (Thinned)

/-! ## What is read and what is wrong -/

/-- A derivation is read like another one, with the same fault if any. -/
structure Derivation.ReadsLike {s : Sym} (d' d : Derivation s) : Prop where
  value : d'.value = d.value
  fault : d'.fault? = d.fault?

structure Forest.ReadsLike {ss : List Sym} (f' f : Forest ss) : Prop where
  values : f'.values = f.values
  faults : f'.faults = f.faults

theorem Derivation.ReadsLike.cons {s : Sym} {ss : List Sym} {d d' : Derivation s} {f f' : Forest ss} (h : d'.ReadsLike d)
    (hf : f'.ReadsLike f) : (Forest.cons d' f').ReadsLike (.cons d f) := by
  refine ⟨?_, ?_⟩
  · rw [Forest.values, Forest.values, h.value, hf.values]
  · rw [Forest.faults_cons, Forest.faults_cons, h.fault, hf.faults]

/-- The complaint of a rule depends on nothing else. -/
theorem Production.fault?_congr (p : Production) {f f' : Forest p.rhs} (h : f'.values = f.values) (faults : List (Option SourceError)) :
    p.fault? f' faults = p.fault? f faults := by
  cases p
  case callChain =>
    match f, f' with
    | .cons e .nil, .cons e' .nil =>
      have he : e'.value = e.value := (Prod.mk.inj h).1
      show (faults.findSome? id <|> Expr.bareFault? e'.value) = (faults.findSome? id <|> Expr.bareFault? e.value)
      rw [he]
  case assignTo =>
    match f, f' with
    | .cons e rest, .cons e' rest' =>
      have he : e'.value = e.value := (Prod.mk.inj h).1
      show ((faults.take 1).findSome? id <|> Expr.targetFault? e'.value <|> (faults.drop 1).findSome? id)
        = ((faults.take 1).findSome? id <|> Expr.targetFault? e.value <|> (faults.drop 1).findSome? id)
      rw [he]
  all_goals rfl

theorem Forest.ReadsLike.node {p : Production} {f f' : Forest p.rhs} (h : f'.ReadsLike f) :
    (Derivation.node p f').ReadsLike (.node p f) := by
  refine ⟨?_, ?_⟩
  · rw [Derivation.value, Derivation.value, h.values]
  · rw [Derivation.fault?, Derivation.fault?, h.faults, p.fault?_congr h.values]

/-! ## Semicolons -/

/-- A derivation of a kind is a token. -/
theorem Derivation.exists_token {s : Sym} (d : Derivation s) {kind : Kind} (hs : s = .t kind) :
    ∃ t : Token, t.kind = kind ∧ d.tokens = [t] ∧ d.fault? = literalFault? t := by
  cases d with
  | leaf t => exact ⟨t, Sym.t.inj hs, rfl, rfl⟩
  | node p f => cases hs

theorem Derivation.fault?_semicolon (d : Derivation (.t .semicolon)) : d.fault? = none := by
  obtain ⟨t, ht, -, hfault⟩ := d.exists_token rfl
  rw [hfault, literalFault?, Token.literalFault?, ht]
  rfl

/-- A semicolon is in two rules, and each of them has a twin without it. -/
theorem Production.of_semicolon {p : Production} (h : .t .semicolon ∈ p.rhs) : p = .stmtsOneSemi ∨ p = .stmtsMoreSemi := by
  revert h
  cases p <;> decide

theorem Production.of_stmt {p : Production} (h : .n .stmt ∈ p.rhs) :
    p = .stmtsOneSemi ∨ p = .stmtsOne ∨ p = .stmtsMoreSemi ∨ p = .stmtsMore := by
  revert h
  cases p <;> decide

theorem readsLike_one (s : Derivation (.n .stmt)) (semi : Derivation (.t .semicolon)) :
    (Derivation.node .stmtsOne (.cons s .nil)).ReadsLike (.node .stmtsOneSemi (.cons s (.cons semi .nil))) := by
  refine ⟨rfl, ?_⟩
  simp only [Derivation.fault?, Forest.faults, semi.fault?_semicolon]
  cases s.fault? <;> rfl

theorem readsLike_more (ss : Derivation (.n .stmts)) (s : Derivation (.n .stmt)) (semi : Derivation (.t .semicolon)) :
    (Derivation.node .stmtsMore (.cons ss (.cons s .nil))).ReadsLike (.node .stmtsMoreSemi (.cons ss (.cons s (.cons semi .nil)))) := by
  refine ⟨rfl, ?_⟩
  simp only [Derivation.fault?, Forest.faults, semi.fault?_semicolon]
  cases ss.fault? <;> cases s.fault? <;> rfl

theorem Derivation.ReadsLike.refl {s : Sym} (d : Derivation s) : d.ReadsLike d := ⟨rfl, rfl⟩

theorem Forest.ReadsLike.refl {ss : List Sym} (f : Forest ss) : f.ReadsLike f := ⟨rfl, rfl⟩

theorem Derivation.ReadsLike.symm {s : Sym} {d d' : Derivation s} (h : d'.ReadsLike d) : d.ReadsLike d' :=
  ⟨h.value.symm, h.fault.symm⟩

theorem Derivation.ReadsLike.trans {s : Sym} {d d' d'' : Derivation s} (h : d''.ReadsLike d') (h' : d'.ReadsLike d) : d''.ReadsLike d :=
  ⟨h.value.trans h'.value, h.fault.trans h'.fault⟩

/-! ## Semicolons left out -/

/-- What is left of a semicolon is the semicolon or nothing. -/
theorem Derivation.thinned_semicolon (d : Derivation (.t .semicolon)) {ts : List Token} (h : Thinned d.tokens ts) :
    ts = d.tokens ∨ ts = [] := by
  obtain ⟨t, -, htokens, -⟩ := d.exists_token rfl
  rw [htokens] at h ⊢
  cases h with
  | keep h => exact .inl (by rw [h.eq_nil])
  | drop _ h => exact .inr h.eq_nil

/-- The tokens of a phrase without some of their semicolons make a phrase that reads like it. Only a semicolon itself
may be gone altogether. -/
def Derivation.Thins {s : Sym} (d : Derivation s) : Prop :=
  s ≠ .t .semicolon → ∀ ts, Thinned d.tokens ts → ∃ d' : Derivation s, d'.tokens = ts ∧ d'.ReadsLike d

theorem Forest.exists_thinned {ss : List Sym} (f : Forest ss) (hf : f.All fun _ d => d.Thins) (hss : .t .semicolon ∉ ss) {ts : List Token}
    (h : Thinned f.tokens ts) : ∃ f' : Forest ss, f'.tokens = ts ∧ f'.ReadsLike f := by
  match ss, f with
  | _, .nil => exact ⟨.nil, h.eq_nil.symm, .refl _⟩
  | _, .cons d f =>
    have h : Thinned (d.tokens ++ f.tokens) ts := h
    obtain ⟨front, back, rfl, hd, hrest⟩ := h.split
    obtain ⟨d', hd', hlike⟩ := hf.1 (fun hs => hss (hs ▸ List.mem_cons_self)) front hd
    obtain ⟨f', hf', hlikes⟩ := f.exists_thinned hf.2 (fun hs => hss (List.mem_cons_of_mem _ hs)) hrest
    refine ⟨.cons d' f', ?_, hlike.cons hlikes⟩
    rw [Forest.tokens, hd', hf']

/-- Without its semicolon a rule gives way to its twin. -/
theorem Production.thins_node (p : Production) (f : Forest p.rhs) (hf : f.All fun _ d => d.Thins) : (Derivation.node p f).Thins := by
  intro _ ts h
  by_cases hsemi : .t .semicolon ∈ p.rhs
  · rcases Production.of_semicolon hsemi with rfl | rfl
    · match f, hf with
      | .cons s (.cons semi .nil), hf =>
        have h : Thinned (s.tokens ++ (semi.tokens ++ [])) ts := h
        obtain ⟨front, back, rfl, hfront, hback⟩ := h.split
        rw [List.append_nil] at hback
        obtain ⟨s', hs', hlike⟩ := hf.1 nofun front hfront
        rcases semi.thinned_semicolon hback with rfl | rfl
        · refine ⟨.node .stmtsOneSemi (.cons s' (.cons semi .nil)), ?_, (hlike.cons (.refl _)).node⟩
          simp only [Derivation.tokens, Forest.tokens, hs', List.append_nil]
        · refine ⟨.node .stmtsOne (.cons s' .nil), ?_, (hlike.cons (.refl _)).node.trans (readsLike_one s semi)⟩
          simp only [Derivation.tokens, Forest.tokens, hs']
    · match f, hf with
      | .cons ss (.cons s (.cons semi .nil)), hf =>
        have h : Thinned (ss.tokens ++ (s.tokens ++ (semi.tokens ++ []))) ts := h
        obtain ⟨front, rest, rfl, hfront, h⟩ := h.split
        obtain ⟨middle, back, rfl, hmiddle, hback⟩ := h.split
        rw [List.append_nil] at hback
        obtain ⟨ss', hss', hlikes⟩ := hf.1 nofun front hfront
        obtain ⟨s', hs', hlike⟩ := hf.2.1 nofun middle hmiddle
        rcases semi.thinned_semicolon hback with rfl | rfl
        · refine ⟨.node .stmtsMoreSemi (.cons ss' (.cons s' (.cons semi .nil))), ?_, (hlikes.cons (hlike.cons (.refl _))).node⟩
          simp only [Derivation.tokens, Forest.tokens, hss', hs', List.append_nil]
        · refine ⟨.node .stmtsMore (.cons ss' (.cons s' .nil)), ?_,
            (hlikes.cons (hlike.cons (.refl _))).node.trans (readsLike_more ss s semi)⟩
          simp only [Derivation.tokens, Forest.tokens, hss', hs']
  · obtain ⟨f', htokens, hlike⟩ := f.exists_thinned hf hsemi h
    exact ⟨.node p f', htokens, hlike.node⟩

theorem Derivation.thins {s : Sym} (d : Derivation s) : d.Thins := by
  refine Derivation.induct (fun t hs ts h => ?_) Production.thins_node d
  rw [h.single fun ht => hs (congrArg Sym.t ht)]
  exact ⟨.leaf t, rfl, .refl _⟩

/-! ## A semicolon more -/

/-- A phrase stands in a list of them, between these tokens of the others. -/
inductive Forest.Holds {s : Sym} (d : Derivation s) : {ss : List Sym} → Forest ss → List Token → List Token → Prop
  | head {ss : List Sym} {f : Forest ss} : Holds d (.cons d f) [] f.tokens
  | tail {s' : Sym} {ss : List Sym} {e : Derivation s'} {f : Forest ss} {front back : List Token} (h : Holds d f front back) :
    Holds d (.cons e f) (e.tokens ++ front) back

/-- A statement of a block stands in a phrase, between these tokens. The statements of a block are what its list of
statements consists of, but for semicolons. -/
inductive Derivation.HasStatement (st : Derivation (.n .stmt)) : {s : Sym} → Derivation s → List Token → List Token → Prop
  | here {p : Production} {f : Forest p.rhs} {front back : List Token} (h : f.Holds st front back) :
    HasStatement st (.node p f) front back
  | inside {p : Production} {f : Forest p.rhs} {s : Sym} {d : Derivation s} {front back before after : List Token}
    (h : f.Holds d front back) (hd : HasStatement st d before after) : HasStatement st (.node p f) (front ++ before) (after ++ back)

theorem Forest.Holds.tokens_eq {s : Sym} {d : Derivation s} {ss : List Sym} {f : Forest ss} {front back : List Token}
    (h : f.Holds d front back) : f.tokens = front ++ (d.tokens ++ back) := by
  induction h with
  | head => rfl
  | tail _ ih => rw [Forest.tokens, ih, List.append_assoc]

theorem Derivation.HasStatement.tokens_eq {st : Derivation (.n .stmt)} {s : Sym} {d : Derivation s} {before after : List Token}
    (h : Derivation.HasStatement st d before after) : d.tokens = before ++ (st.tokens ++ after) := by
  induction h with
  | here h => rw [Derivation.tokens, h.tokens_eq]
  | inside h _ ih => simp only [Derivation.tokens, h.tokens_eq, ih, List.append_assoc]

/-- Another phrase that reads alike can stand in the place of one. -/
theorem Forest.Holds.exists_replaced {s : Sym} {d d' : Derivation s} {ss : List Sym} {f : Forest ss} {front back : List Token}
    (h : f.Holds d front back) (hlike : d'.ReadsLike d) :
    ∃ f' : Forest ss, f'.tokens = front ++ (d'.tokens ++ back) ∧ f'.ReadsLike f := by
  induction h with
  | @head _ f => exact ⟨.cons d' f, rfl, hlike.cons (.refl f)⟩
  | @tail _ _ e f front back _ ih =>
    obtain ⟨f', htokens, hf'⟩ := ih
    refine ⟨.cons e f', ?_, Derivation.ReadsLike.cons (.refl e) hf'⟩
    rw [Forest.tokens, htokens, List.append_assoc]

theorem Forest.Holds.mem {s : Sym} {d : Derivation s} {ss : List Sym} {f : Forest ss} {front back : List Token}
    (h : f.Holds d front back) : s ∈ ss := by
  induction h with
  | head => exact List.mem_cons_self
  | tail _ ih => exact List.mem_cons_of_mem _ ih

/-- A semicolon behind a statement that has none turns the rule into its twin. -/
theorem Forest.Holds.exists_ended {st : Derivation (.n .stmt)} {p : Production} {f : Forest p.rhs} {front back : List Token}
    (h : f.Holds st front back) (hback : ∀ t ∈ back.head?, t.kind ≠ .semicolon) {semi : Derivation (.t .semicolon)} :
    ∃ d' : Derivation (.n p.lhs), d'.tokens = front ++ (st.tokens ++ (semi.tokens ++ back)) ∧ d'.ReadsLike (.node p f) := by
  have hnot (other : Derivation (.t .semicolon)) (tail : List Token) (hb : back = other.tokens ++ tail) : False := by
    obtain ⟨t, ht, htokens, -⟩ := other.exists_token rfl
    rw [hb, htokens] at hback
    exact hback t rfl ht
  rcases Production.of_stmt h.mem with rfl | rfl | rfl | rfl
  · match f with
    | .cons s (.cons other .nil) =>
      cases h with
      | head => exact (hnot other [] rfl).elim
      | tail h => cases h with
        | tail h => cases h
  · match f with
    | .cons s .nil =>
      cases h with
      | head => exact ⟨.node .stmtsOneSemi (.cons st (.cons semi .nil)), rfl, (readsLike_one st semi).symm⟩
      | tail h => cases h
  · match f with
    | .cons ss (.cons s (.cons other .nil)) =>
      cases h with
      | tail h => cases h with
        | head => exact (hnot other [] rfl).elim
        | tail h => cases h with
          | tail h => cases h
  · match f with
    | .cons ss (.cons s .nil) =>
      cases h with
      | tail h => cases h with
        | head =>
          refine ⟨.node .stmtsMoreSemi (.cons ss (.cons st (.cons semi .nil))), ?_, (readsLike_more ss st semi).symm⟩
          simp only [Derivation.tokens, Forest.tokens, List.append_nil]
        | tail h => cases h

/-- A semicolon behind a statement of a block that has none makes a phrase that reads like the one without it. -/
theorem Derivation.HasStatement.exists_ended {st : Derivation (.n .stmt)} {s : Sym} {d : Derivation s} {before after : List Token}
    (h : Derivation.HasStatement st d before after) (hafter : ∀ t ∈ after.head?, t.kind ≠ .semicolon) (semi : Derivation (.t .semicolon)) :
    ∃ d' : Derivation s, d'.tokens = before ++ (st.tokens ++ (semi.tokens ++ after)) ∧ d'.ReadsLike d := by
  induction h with
  | here h => exact h.exists_ended hafter
  | @inside p f s d front back before after h hd ih =>
    -- what follows the statement in the inner phrase follows it in the whole one
    have hinner : ∀ t ∈ after.head?, t.kind ≠ .semicolon := by
      intro t ht
      apply hafter
      rw [List.head?_append, ht]
      rfl
    obtain ⟨d', htokens, hlike⟩ := ih hinner
    obtain ⟨f', hf', hlikes⟩ := h.exists_replaced hlike
    refine ⟨.node p f', ?_, hlikes.node⟩
    rw [Derivation.tokens, hf', htokens]
    simp only [List.append_assoc]

end Grammar

namespace Program

open Grammar

variable {file : Option String} {tokens : List Token} {program : Program}

/-- A unit whose tokens are accepted has no fault, and it is what the program is read from. -/
theorem eq_of_ofTokens_tokens {d : Derivation (.n .unit)} (h : ofTokens file d.tokens = .ok program) :
    d.fault? = none ∧ program = { decls := d.value, file } := by
  rw [ofTokens_tokens] at h
  cases hd : d.fault? with
  | none =>
    rw [hd] at h
    exact ⟨rfl, (Except.ok.inj h).symm⟩
  | some e =>
    rw [hd] at h
    cases h

/-- What reads like an accepted unit is accepted as the same program. -/
theorem ofTokens_of_readsLike {d d' : Derivation (.n .unit)} (h : d'.ReadsLike d) (hd : ofTokens file d.tokens = .ok program) :
    ofTokens file d'.tokens = .ok program := by
  obtain ⟨hfault, rfl⟩ := eq_of_ofTokens_tokens hd
  rw [ofTokens_tokens, h.fault, hfault, h.value]

/-- Semicolons mean nothing. Accepted tokens are accepted as the same program without any of their semicolons. And however they are
derived, they are accepted as the same program with one more behind any statement of a block that has none behind it. -/
theorem ofTokens_separated (h : ofTokens file tokens = .ok program) :
    (∀ tokens', Token.Thinned tokens tokens' → ofTokens file tokens' = .ok program)
    ∧ (∃ d : Derivation (.n .unit), d.tokens = tokens)
    ∧ ∀ d : Derivation (.n .unit), d.tokens = tokens → program = { decls := d.value, file }
      ∧ ∀ st before after, Derivation.HasStatement st d before after → tokens = before ++ (st.tokens ++ after)
        ∧ ((∀ t ∈ after.head?, t.kind ≠ .semicolon) → ∀ semi : Token, semi.kind = .semicolon →
          ofTokens file (before ++ (st.tokens ++ semi :: after)) = .ok program) := by
  obtain ⟨d, rfl, -⟩ := exists_derivation h
  refine ⟨fun tokens' hthin => ?_, ⟨d, rfl⟩, fun d₁ hd₁ => ?_⟩
  · obtain ⟨d', rfl, hlike⟩ := d.thins nofun tokens' hthin
    exact ofTokens_of_readsLike hlike h
  · rw [← hd₁] at h ⊢
    refine ⟨(eq_of_ofTokens_tokens h).2, fun st before after hst => ⟨hst.tokens_eq, fun hafter semi hsemi => ?_⟩⟩
    obtain ⟨leaf, hleaf⟩ := exists_leaf semi hsemi
    obtain ⟨d', htokens, hlike⟩ := hst.exists_ended hafter leaf
    have haccepted := ofTokens_of_readsLike hlike h
    rwa [htokens, hleaf] at haccepted

/-- A loop with a semicolon behind it and one in its body, and a jump without one. -/
def separated : String := "fun f void() \x7b while x \x7b break; \x7d; goto label l \x7d"

theorem ofTokens_separated_loop : ∃ program, ofTokens none (scan separated).tokens = .ok program
    ∧ ((scan separated).tokens.filter fun t => t.kind ≠ .semicolon).length + 2 = (scan separated).tokens.length
    ∧ ofTokens none ((scan separated).tokens.filter fun t => t.kind ≠ .semicolon) = .ok program := by
  have hparsed : (ofTokens none (scan separated).tokens).toOption.isSome = true := by decide +kernel
  cases hprogram : ofTokens none (scan separated).tokens with
  | error e =>
    rw [hprogram] at hparsed
    cases hparsed
  | ok program => exact ⟨program, rfl, by decide +kernel, (ofTokens_separated hprogram).1 _ (.all _)⟩

end Program

end FlatScope
