/-
  Where problems with functions are. The nodes of a function that can have a problem are its places, which stand one behind the
  other in the source (`FuncDecl.areReadOff_places`). A problem with a body is at one of them (`FuncDecl.isPlaced_work`); where it
  is a name that is declared twice, the declaration before stands ahead of it, and where it is a variable that is used too
  early, the declaration stands behind it (`Problem.IsPlaced`).
-/
import FlatScope.Proofs.Pointing.Stmt
import FlatScope.Proofs.Resolution.Body

namespace FlatScope

/-! ## Order -/

/-- One span stands ahead of another one, in nodes that stand one behind the other. -/
def Node.AreInOrder (ns : List Node) (a b : Span) : Prop :=
  ∃ front back, ns = front ++ back ∧ (∃ n ∈ front, n.Spans a) ∧ ∃ n ∈ back, n.Spans b

/-- A problem is at one of some nodes, and a place that its cause names stands ahead of it, if it is that of a previous
declaration, and behind it, if it is that of a later one. -/
structure Problem.IsPlaced (ns : List Node) (q : Problem) : Prop where
  place : ∃ n ∈ ns, n.Spans q.span
  previous : ∀ d, q.cause = .duplicate d → Node.AreInOrder ns d.previous.span q.span
  later : ∀ name declaration, q.cause = .usedBeforeDeclaration name declaration → Node.AreInOrder ns q.span declaration

variable {ns ms : List Node} {n : Node} {q : Problem} {a b : Span}

namespace Node.AreInOrder

theorem append (h : AreInOrder ns a b) (ms : List Node) : AreInOrder (ns ++ ms) a b := by
  obtain ⟨front, back, rfl, ha, n, hn, hb⟩ := h
  exact ⟨front, back ++ ms, List.append_assoc .., ha, n, List.mem_append_left _ hn, hb⟩

theorem behind (h : AreInOrder ns a b) (ms : List Node) : AreInOrder (ms ++ ns) a b := by
  obtain ⟨front, back, rfl, ⟨n, hn, ha⟩, hb⟩ := h
  exact ⟨ms ++ front, back, (List.append_assoc ..).symm, ⟨n, List.mem_append_right _ hn, ha⟩, hb⟩

/-- What is in the nodes of one thing stands ahead of what is in those of a later one. -/
theorem of_flatMap {α : Type} {f : α → List Node} {xs : List α} {i j : Nat} {x y : α} {m : Node} (hx : xs[i]? = some x)
    (hy : xs[j]? = some y) (hij : i < j) (hn : n ∈ f x) (ha : n.Spans a) (hm : m ∈ f y) (hb : m.Spans b) :
    AreInOrder (xs.flatMap f) a b := by
  have hfront : x ∈ xs.take (i + 1) := by
    refine List.mem_of_getElem? (i := i) ?_
    rw [List.getElem?_take_of_lt (Nat.lt_succ_self i), hx]
  have hback : y ∈ xs.drop (i + 1) := by
    refine List.mem_of_getElem? (i := j - (i + 1)) ?_
    rw [List.getElem?_drop, Nat.add_sub_cancel' hij, hy]
  refine ⟨(xs.take (i + 1)).flatMap f, (xs.drop (i + 1)).flatMap f, ?_, ⟨n, List.mem_flatMap.mpr ⟨x, hfront, hn⟩, ha⟩, m,
    List.mem_flatMap.mpr ⟨y, hback, hm⟩, hb⟩
  rw [← List.flatMap_append, List.take_append_drop]

end Node.AreInOrder

namespace Problem.IsPlaced

theorem of_isAlone (hn : n ∈ ns) (hspan : n.Spans q.span) (h : q.cause.IsAlone) : q.IsPlaced ns where
  place := ⟨n, hn, hspan⟩
  previous d hd := by
    rw [hd] at h
    cases h
  later name declaration hd := by
    rw [hd] at h
    cases h

theorem append (h : q.IsPlaced ns) (ms : List Node) : q.IsPlaced (ns ++ ms) where
  place := h.place.imp fun _ hn => hn.imp_left (List.mem_append_left _)
  previous d hd := (h.previous d hd).append ms
  later name declaration hd := (h.later name declaration hd).append ms

theorem behind (h : q.IsPlaced ns) (ms : List Node) : q.IsPlaced (ms ++ ns) where
  place := h.place.imp fun _ hn => hn.imp_left (List.mem_append_right _)
  previous d hd := (h.previous d hd).behind ms
  later name declaration hd := (h.later name declaration hd).behind ms

/-- A name that is declared twice, where the first declaration is in the nodes in front. -/
theorem of_duplicate {d : Duplicate} (hq : q.cause = .duplicate d) (hns : ∃ n ∈ ns, n.Spans d.previous.span) (hn : n ∈ ms)
    (hspan : n.Spans q.span) : q.IsPlaced (ns ++ ms) where
  place := ⟨n, List.mem_append_right _ hn, hspan⟩
  previous d' hd := by
    obtain rfl := Cause.duplicate.inj (hq.symm.trans hd)
    exact ⟨ns, ms, rfl, hns, n, hn, hspan⟩
  later name declaration hd := by
    cases hq.symm.trans hd

end Problem.IsPlaced

/-! ## Places of functions -/

/-- The nodes of a function that can have a problem, in the order of the source. -/
def FuncDecl.places (d : FuncDecl) : List Node :=
  .type d.result :: (d.params.map Member.node ++ (Stmt.flattenAll d.body).flatMap Stmt.heads)

/-- The nodes of a declaration that can have a problem. -/
def Decl.places : Decl → List Node
  | func d => d.places
  | d => [d.node]

theorem FuncDecl.areReadOff_places {ts : List Token} {d : FuncDecl} (h : (Node.func d).IsReadOff ts) :
    Node.AreReadOff ts d.places := by
  refine h.children.expand .single fun h => ?_
  obtain ⟨us, vs, rfl, hparams, hbody⟩ := h.exists_of_append
  refine hparams.append ?_
  rw [← List.append_nil ((Stmt.flattenAll d.body).flatMap Stmt.heads)]
  exact hbody.expand (Stmt.areReadOff_headsBraced d.body d.braces) fun _ => .nil

theorem Decl.areReadOff_places {ts : List Token} {d : Decl} (h : d.node.IsReadOff ts) : Node.AreReadOff ts d.places := by
  cases d with
  | func d => exact d.areReadOff_places h
  | const _ | var _ | struct _ | foreign _ => exact .single h

/-! ## Scopes -/

namespace LocalScope

variable {scope scope' : LocalScope} {s : Symbol}

/-- The symbols of a scope are declared in some nodes. -/
def IsWithin (ns : List Node) (scope : LocalScope) : Prop := ∀ x ∈ scope.symbols, ∃ n ∈ ns, n.Spans x.span

theorem IsWithin.append (h : scope.IsWithin ns) (ms : List Node) : scope.IsWithin (ns ++ ms) :=
  fun x hx => (h x hx).imp fun _ hn => hn.imp_left (List.mem_append_left _)

theorem symbols_of_add (h : scope.add s = .ok scope') :
    scope'.symbols = scope.symbols ++ [{ s with owner := some scope.function }] := by
  unfold add declare at h
  split at h
  · cases h
  · obtain rfl := Except.ok.inj h
    rfl

theorem exists_of_add_eq_error {halt : Halt} (h : scope.add s = .error halt) :
    ∃ d, halt = .problem ⟨.duplicate d, s.span⟩ ∧ d.previous ∈ scope.symbols := by
  obtain ⟨d, hd, rfl⟩ := Except.mapError_eq_error.mp h
  refine ⟨d, rfl, ?_⟩
  unfold declare at hd
  split at hd
  · rename_i previous hprevious
    obtain rfl := Except.error.inj hd
    exact List.mem_of_find?_eq_some hprevious
  · cases hd

theorem IsWithin.add (h : scope.IsWithin ns) (hn : n.Spans s.span) (hadd : scope.add s = .ok scope') :
    scope'.IsWithin (ns ++ [n]) := by
  rw [IsWithin, symbols_of_add hadd]
  refine List.forall_mem_append.mpr ⟨h.append [n], List.forall_mem_singleton.mpr ?_⟩
  exact ⟨n, List.mem_append_right _ (List.mem_singleton.mpr rfl), hn⟩

/-- A symbol that cannot be declared has a previous declaration in front. -/
theorem IsWithin.isPlaced_add (h : scope.IsWithin ns) (hn : n ∈ ms) (hspan : n.Spans s.span)
    (hadd : scope.add s = .error (.problem q)) : q.IsPlaced (ns ++ ms) := by
  obtain ⟨d, heq, hprevious⟩ := exists_of_add_eq_error hadd
  obtain rfl := Halt.problem.inj heq
  exact .of_duplicate rfl (h d.previous hprevious) hn hspan

/-- Symbols that are declared one after the other, each at a node of its own. -/
theorem IsWithin.addAll {ss : List (Except Misplaced Symbol)}
    (hss : List.Forall₂ (fun (s : Except Misplaced Symbol) (m : Node) => ∀ x, s = .ok x → m.Spans x.span) ss ms)
    (h : scope.IsWithin ns) : (scope.addAll ss).1.IsWithin (ns ++ ms)
      ∧ ∀ q, (scope.addAll ss).2 = some (.problem q) → q.IsPlaced (ns ++ ms) := by
  induction hss generalizing scope ns with
  | nil => exact ⟨h.append [], fun q hq => nomatch hq⟩
  | @cons s m ss ms hs _ ih =>
    cases s with
    | error misplaced => exact ⟨h.append _, fun q hq => nomatch hq⟩
    | ok x =>
      have hspan := hs x rfl
      have hone : (Except.ok x : Except Misplaced Symbol).mapError Halt.misplaced >>= scope.add = scope.add x := rfl
      rw [LocalScope.addAll, hone]
      cases hadd : scope.add x with
      | error halt =>
        refine ⟨h.append _, fun q hq => ?_⟩
        obtain rfl := Option.some.inj hq
        exact h.isPlaced_add List.mem_cons_self hspan hadd
      | ok scope' =>
        have hrest := ih (h.add hspan hadd)
        rwa [List.append_assoc] at hrest

end LocalScope

/-! ## Declarations in bodies -/

namespace Stmt

variable {c : Catalog} {k : Nat}

/-- A symbol that a statement declares is where the statement is, and has the number of it. -/
theorem of_symbol? {s : Stmt} {x : Symbol} (h : s.symbol? c k = .ok (some x)) :
    s.heads = [.stmt s] ∧ x.span = s.span ∧ x.order = k := by
  cases s with
  | var d =>
    obtain ⟨t, -, h⟩ := Except.bind_eq_ok.mp h
    obtain rfl := Option.some.inj (Except.ok.inj h)
    exact ⟨rfl, rfl, rfl⟩
  | label name index span =>
    obtain rfl := Option.some.inj (Except.ok.inj h)
    exact ⟨rfl, rfl, rfl⟩
  | ifThen _ _ braces _ _ | whileDo _ _ braces _ => cases braces <;> cases h
  | assign _ _ _ | call _ _ | breakLoop _ | continueLoop _ | goto _ _ _ | block _ _ | foreign _ => cases h

/-- A statement whose symbol cannot be told has the problem in itself. -/
theorem points_of_symbol? {s : Stmt} (h : s.symbol? c k = .error (.problem q)) :
    s.heads = [.stmt s] ∧ (Node.stmt s).Spans q.span ∧ q.cause.IsAlone := by
  cases s with
  | var d =>
    obtain h | ⟨t, -, h⟩ := Except.bind_eq_error.mp h
    · exact ⟨rfl, (d.type.points_of_resolve h).imp_left (.inner List.mem_cons_self)⟩
    · cases h
  | ifThen _ _ braces _ _ | whileDo _ _ braces _ => cases braces <;> cases h
  | label _ _ _ | assign _ _ _ | call _ _ | breakLoop _ | continueLoop _ | goto _ _ _ | block _ _ | foreign _ => cases h

/-- A problem with the declarations of a body is at the head of a statement. -/
theorem isPlaced_collect {ss : List Stmt} {scope : LocalScope} (h : scope.IsWithin ns)
    (hq : (collect c scope k ss).halt = some (.problem q)) : q.IsPlaced (ns ++ ss.flatMap heads) := by
  induction ss generalizing scope ns k with
  | nil => cases hq
  | cons s ss ih =>
    rw [collect] at hq
    rw [List.flatMap_cons, ← List.append_assoc]
    split at hq
    · rename_i hsymbol
      obtain rfl := Option.some.inj hq
      obtain ⟨hheads, hspan, halone⟩ := points_of_symbol? hsymbol
      rw [hheads]
      exact .append (.of_isAlone (List.mem_append_right _ (List.mem_singleton.mpr rfl)) hspan halone) _
    · exact ih (h.append _) hq
    · rename_i symbol hsymbol
      obtain ⟨hheads, hspan, -⟩ := of_symbol? hsymbol
      have hspan : (Node.stmt s).Spans symbol.span := .own (congrArg some hspan.symm)
      rw [hheads]
      split at hq
      · rename_i hadd
        obtain rfl := Option.some.inj hq
        exact (h.isPlaced_add (List.mem_singleton.mpr rfl) hspan hadd).append _
      · rename_i hadd
        exact ih (h.add hspan hadd) hq

/-- A symbol that is declared by a body is where the statement of its number is. -/
theorem exists_of_mem_collect {ss : List Stmt} {scope : LocalScope} {x : Symbol} (hx : x ∈ (collect c scope k ss).scope.symbols) :
    x ∈ scope.symbols ∨ ∃ (j : Nat) (s : Stmt), ss[j]? = some s ∧ s.heads = [.stmt s] ∧ x.span = s.span ∧ x.order = (k + j : Nat) := by
  induction ss generalizing scope k with
  | nil => exact .inl hx
  | cons s ss ih =>
    have hlater {scope : LocalScope} (hx : x ∈ (collect c scope (k + 1) ss).scope.symbols) : x ∈ scope.symbols
        ∨ ∃ (j : Nat) (s' : Stmt), (s :: ss)[j]? = some s' ∧ s'.heads = [.stmt s'] ∧ x.span = s'.span ∧ x.order = (k + j : Nat) := by
      refine (ih hx).imp_right ?_
      rintro ⟨j, s', hs', hheads, hspan, horder⟩
      exact ⟨j + 1, s', hs', hheads, hspan, by rw [horder, Nat.add_right_comm, Nat.add_assoc]⟩
    rw [collect] at hx
    split at hx
    · exact .inl hx
    · exact hlater hx
    · rename_i symbol hsymbol
      split at hx
      · exact .inl hx
      · rename_i hadd
        obtain hx | hx := hlater hx
        · rw [LocalScope.symbols_of_add hadd] at hx
          obtain hx | hx := List.mem_append.mp hx
          · exact .inl hx
          · obtain rfl := List.mem_singleton.mp hx
            obtain ⟨hheads, hspan, horder⟩ := of_symbol? hsymbol
            exact .inr ⟨0, s, rfl, hheads, hspan, horder⟩
        · exact .inr hx

end Stmt

/-! ## Bodies -/

namespace FuncDecl

variable {b : Builtins} {c : Catalog} {s : Signature} {d : FuncDecl}

/-- The symbols that a function has before its body are at its result and at its parameters, in this order. -/
theorem exists_headNodes (hparams : ∀ m ∈ d.params, m.node.span? = some m.span) (s : Signature) :
    ∃ ns ms rest, ns ++ ms ++ rest = .type d.result :: d.params.map Member.node
      ∧ List.Forall₂ (fun (s : Except Misplaced Symbol) (m : Node) => ∀ x, s = .ok x → m.Spans x.span) (d.headSymbols s) ms := by
  have hzip (ps : List Member) (hps : ∀ m ∈ ps, m.node.span? = some m.span) (types : List Ty) :
      ∃ ms rest, ms ++ rest = ps.map Member.node
        ∧ List.Forall₂ (fun (s : Except Misplaced Symbol) (m : Node) => ∀ x, s = .ok x → m.Spans x.span)
          (List.zipWith (fun m t => m.name.map fun name => { name, kind := .param, level := .local, ty := some t, span := m.span }) ps types)
          ms := by
    induction ps generalizing types with
    | nil => exact ⟨[], [], rfl, .nil⟩
    | cons m ps ih =>
      cases types with
      | nil => exact ⟨[], _, rfl, .nil⟩
      | cons t types =>
        obtain ⟨hm, hps⟩ := List.forall_mem_cons.mp hps
        obtain ⟨ms, rest, hms, hforall⟩ := ih hps types
        refine ⟨m.node :: ms, rest, congrArg (_ :: ·) hms, .cons (fun x hx => ?_) hforall⟩
        obtain ⟨name, -, rfl⟩ := Except.map_eq_ok.mp hx
        exact .own hm
  obtain ⟨ms, rest, hms, hforall⟩ := hzip d.params hparams s.params
  unfold headSymbols
  by_cases hresult : s.result = .void
  · refine ⟨[.type d.result], ms, rest, congrArg (_ :: ·) hms, ?_⟩
    rw [if_pos hresult]
    exact hforall
  · refine ⟨[], .type d.result :: ms, rest, congrArg (_ :: ·) hms, ?_⟩
    rw [if_neg hresult]
    refine .cons (fun x hx => ?_) hforall
    obtain rfl := Except.ok.inj hx
    exact .own rfl

/-- A problem with the statements of a body is at the head of one of them. What is used before its declaration is declared by a
later one. -/
theorem isPlaced_checkAll {scope : LocalScope} {left : List Stmt} {bound k : Nat}
    (hscope : ∀ x ∈ scope.symbols, x.order = -1
      ∨ ∃ (j : Nat) (s : Stmt), (Stmt.flattenAll d.body)[j]? = some s ∧ s.heads = [.stmt s] ∧ x.span = s.span ∧ x.order = j)
    (h : Stmt.checkAll ⟨b, c.within scope, d.name⟩ k 0 (Stmt.numberAll bound 0 d.body) = .error (.problem q, left)) :
    q.IsPlaced ((Stmt.flattenAll d.body).flatMap Stmt.heads) := by
  obtain ⟨i, stmt, hstmt, hhalts⟩ := Stmt.exists_of_haltIn_numberAll (Stmt.haltIn_checkAll _ h)
  obtain ⟨n, hn, hspan, hseen⟩ := Stmt.points_of_haltsAt hhalts
  refine ⟨⟨n, List.mem_flatMap.mpr ⟨stmt, List.mem_of_getElem? hstmt, hn⟩, hspan⟩, fun dup hdup => ?_, fun name there hthere => ?_⟩
  · obtain ⟨_, _, hcause, -⟩ := hseen dup.previous.span (by rw [hdup]; rfl)
    cases hdup.symm.trans hcause
  · obtain ⟨name', later, hcause, hfound, hhidden, hplace⟩ := hseen there (by rw [hthere]; rfl)
    have hmem : later ∈ scope.symbols := List.mem_of_find?_eq_some hfound
    have horder : (i : Int) < later.order := by
      have hhidden : (decide (later.kind ≠ .var) || decide (later.order ≤ i)) = false := hhidden
      simpa using (Bool.or_eq_false_iff.mp hhidden).2
    obtain hhead | ⟨j, s, hs, hheads, hspan', hj⟩ := hscope later hmem
    · omega
    · have hij : i < j := by omega
      have hhead : Node.stmt s ∈ s.heads := by
        rw [hheads]
        exact List.mem_singleton.mpr rfl
      have hthere : (Node.stmt s).Spans there := .own (congrArg some (hspan'.symm.trans hplace))
      exact .of_flatMap hstmt hs hij hn hspan hhead hthere

/-- A problem with a body is at a place of the function. -/
theorem isPlaced_work (hparams : ∀ m ∈ d.params, m.node.span? = some m.span) (h : (d.work b c s).halt = some (.problem q)) :
    q.IsPlaced d.places := by
  obtain ⟨ns, ms, rest, hnodes, hheads⟩ := exists_headNodes hparams s
  have hplaces : d.places = ns ++ ms ++ rest ++ (Stmt.flattenAll d.body).flatMap Stmt.heads := by
    rw [hnodes]
    rfl
  have hempty : LocalScope.IsWithin ns { function := d.name } := List.forall_mem_nil _
  obtain ⟨hwithin, hplaced⟩ := hempty.addAll hheads
  unfold work at h
  rw [hplaces]
  split at h
  · rename_i scope halt hadd
    rw [hadd] at hplaced
    exact ((hplaced q h).append rest).append _
  · rename_i scope hadd
    rw [hadd] at hwithin
    have hwithin : scope.IsWithin (ns ++ ms ++ rest) := hwithin.append rest
    have horder : ∀ x ∈ scope.symbols, x.order = -1 := by
      intro x hx
      rw [← show (LocalScope.addAll { function := d.name } (d.headSymbols s)).1 = scope by rw [hadd]] at hx
      obtain hx | ⟨y, owner, hy, rfl⟩ := LocalScope.mem_addAll hx
      · cases hx
      · exact (mem_headSymbols hy).2.2
    split at h
    · cases h
    · unfold workStatements at h
      dsimp only at h
      split at h
      · rename_i hhalt
        obtain rfl := Option.some.inj h
        exact Stmt.isPlaced_collect hwithin hhalt
      · split at h
        · cases h
        · rename_i hcheck
          obtain rfl := Option.some.inj h
          refine (isPlaced_checkAll (fun x hx => ?_) hcheck).behind _
          obtain hx | ⟨j, s, hs, hheads, hspan, hj⟩ := Stmt.exists_of_mem_collect hx
          · exact .inl (horder x hx)
          · exact .inr ⟨j, s, hs, hheads, hspan, by rw [hj, Nat.zero_add]⟩

end FuncDecl

end FlatScope
