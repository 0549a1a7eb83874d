/-
  Where problems with statements are. A body whose check halts at a problem has it from one of its statements, under the
  number of that statement (`Stmt.haltIn_checkAll`). The problem is then at one of the heads of the statement: the nodes of it
  that are not those of statements inside (`Stmt.points_of_haltsAt`). In the order of their numbers, the heads of the
  statements of a body stand one behind the other in the source (`Stmt.areReadOff_headsAll`).
-/
import FlatScope.Proofs.Pointing.Expr
import FlatScope.Proofs.Resolution.Jumps

namespace FlatScope

/-! ## Heads -/

/-- The nodes of a statement that are not those of the statements inside it. -/
def Stmt.heads : Stmt → List Node
  | ifThen c _ _ _ _ | whileDo c _ _ _ => [.expr c]
  | block _ _ => []
  | s => [.stmt s]

namespace Node.AreReadOff

variable {ts : List Token} {n : Node} {ns ms ls : List Node}

/-- Where one node stands in front of others, what is in it stands in front of what is in these. -/
theorem expand (h : AreReadOff ts (n :: ns)) (hn : ∀ {us}, n.IsReadOff us → AreReadOff us ms)
    (hns : ∀ {us}, AreReadOff us ns → AreReadOff us ls) : AreReadOff ts (ms ++ ls) := by
  cases h with
  | cons h hs => exact ((hn h).append (hns hs)).behind _

theorem exists_of_append (h : AreReadOff ts (ns ++ ms)) : ∃ us vs, ts = us ++ vs ∧ AreReadOff us ns ∧ AreReadOff vs ms := by
  induction ns generalizing ts with
  | nil => exact ⟨[], ts, rfl, .nil, h⟩
  | cons n ns ih =>
    cases h with
    | @cons front us back _ _ hn hs =>
      obtain ⟨vs, ws, rfl, hvs, hws⟩ := ih hs
      exact ⟨front ++ (us ++ vs), ws, by simp only [List.append_assoc], .cons hn hvs, hws⟩

end Node.AreReadOff

namespace Stmt

open Node (AreReadOff)

mutual

/-- What is in a statement, its own heads and those of the statements inside, stands in it in the order of the numbers. -/
theorem areReadOff_heads : (s : Stmt) → {ts : List Token} → (Node.stmt s).IsReadOff ts → AreReadOff ts (s.flatten.flatMap heads)
  | .ifThen c body braces otherwise span, _, h => by
    rw [flatten, List.cons_append, List.flatMap_cons, List.flatMap_append]
    exact h.children.expand .single fun h => h.expand (areReadOff_headsBraced body braces) (areReadOff_headsElse otherwise)
  | .whileDo c body braces span, _, h => by
    rw [flatten, List.flatMap_cons, ← List.append_nil ((flattenAll body).flatMap heads)]
    exact h.children.expand .single fun h => h.expand (areReadOff_headsBraced body braces) fun _ => .nil
  | .block body span, _, h => by
    rw [flatten, List.flatMap_cons]
    exact areReadOff_headsAll body h.children
  | .var _, _, h | .assign .., _, h | .call .., _, h | .breakLoop _, _, h | .continueLoop _, _, h | .label .., _, h | .goto .., _, h
  | .foreign _, _, h => .single h

theorem areReadOff_headsElse : (o : Option Stmt) → {ts : List Token} → AreReadOff ts (o.toList.map Node.stmt) →
    AreReadOff ts ((flattenElse o).flatMap heads)
  | some (.ifThen c body braces otherwise span), _, h => by
    rw [flattenElse, List.cons_append, List.flatMap_cons, List.flatMap_append, ← List.append_nil (heads _ ++ _)]
    refine h.expand (fun h => ?_) fun _ => .nil
    exact h.children.expand .single fun h => h.expand (areReadOff_headsBraced body braces) (areReadOff_headsElse otherwise)
  | some (.block body span), _, h => by
    rw [flattenElse, ← List.append_nil ((flattenAll body).flatMap heads)]
    exact h.expand (fun h => areReadOff_headsAll body h.children) fun _ => .nil
  | none, _, _ | some (.var _), _, _ | some (.assign ..), _, _ | some (.call ..), _, _ | some (.whileDo ..), _, _
  | some (.breakLoop _), _, _ | some (.continueLoop _), _, _ | some (.label ..), _, _ | some (.goto ..), _, _
  | some (.foreign _), _, _ => .nil

theorem areReadOff_headsBraced : (body : List Stmt) → (braces : Braces) → {ts : List Token} →
    (braces.block body).IsReadOff ts → AreReadOff ts ((flattenAll body).flatMap heads)
  | body, .around _, _, h => areReadOff_headsAll body h.children
  | _, .missing _, _, h => h.elim

/-- In the order of the numbers, the heads of statements stand one behind the other. -/
theorem areReadOff_headsAll : (ss : List Stmt) → {ts : List Token} → AreReadOff ts (ss.map Node.stmt) →
    AreReadOff ts ((flattenAll ss).flatMap heads)
  | [], _, _ => .nil
  | s :: ss, _, h => by
    rw [flattenAll, List.flatMap_append]
    exact h.expand (areReadOff_heads s) (areReadOff_headsAll ss)

end

/-! ## Statements that halt -/

variable {s : Surroundings} {n : Nat} {q : Problem}

/-- A problem is one that the check of a statement with number `n` halts at, other than in a statement inside. -/
def HaltsAt (s : Surroundings) (n : Nat) (q : Problem) : Stmt → Prop
  | assign target value span => ∃ left, (s.site n).checkAssign target value span = .error (.problem q, left)
  | call e span => ∃ left, (s.site n).checkCall e span = .error (.problem q, left)
  | ifThen c _ _ _ _ | whileDo c _ _ _ => ∃ left, (s.site n).checkCondition c = .error (.problem q, left)
  | breakLoop span => q = ⟨.breakOutsideLoop, span⟩
  | continueLoop span => q = ⟨.continueOutsideLoop, span⟩
  | goto name target span => ∃ left, s.checkGoto name target span = .error (.problem q, left)
  | var _ | label _ _ _ | block _ _ | foreign _ => False

/-- A check halts at a problem in one of some statements, which are numbered from `n` on. -/
def HaltIn (s : Surroundings) (n : Nat) (q : Problem) (ss : List Stmt) : Prop :=
  ∃ (k : Nat) (x : Stmt), ss[k]? = some x ∧ x.HaltsAt s (n + k) q

namespace HaltIn

variable {stmt : Stmt} {ss ts : List Stmt}

theorem head (h : stmt.HaltsAt s n q) : HaltIn s n q (stmt :: ss) := ⟨0, stmt, rfl, h⟩

theorem tail (h : HaltIn s (n + 1) q ss) : HaltIn s n q (stmt :: ss) := by
  obtain ⟨k, x, hx, hhalts⟩ := h
  exact ⟨k + 1, x, hx, by rwa [Nat.add_right_comm] at hhalts⟩

theorem left (h : HaltIn s n q ss) : HaltIn s n q (ss ++ ts) := by
  obtain ⟨k, x, hx, hhalts⟩ := h
  exact ⟨k, x, by rw [List.getElem?_append_left (List.getElem?_eq_some_iff.mp hx).1, hx], hhalts⟩

theorem right (h : HaltIn s (n + ss.length) q ts) : HaltIn s n q (ss ++ ts) := by
  obtain ⟨k, x, hx, hhalts⟩ := h
  refine ⟨ss.length + k, x, ?_, by rwa [← Nat.add_assoc]⟩
  rw [List.getElem?_append_right (Nat.le_add_right _ _), Nat.add_sub_cancel_left, hx]

end HaltIn

mutual

theorem haltIn_check : (stmt : Stmt) → {loops n : Nat} → {left : Stmt} → stmt.check s loops n = .error (.problem q, left) →
    HaltIn s n q stmt.flatten
  | .var _, _, _, _, h | .label .., _, _, _, h => nomatch h
  | .assign .., _, _, _, h | .call .., _, _, _, h | .goto .., _, _, _, h => .head ⟨_, h⟩
  | .ifThen c body braces otherwise span, _, n, _, h => by
    rw [check] at h
    split at h
    · rename_i hcondition
      obtain ⟨rfl, -⟩ := Prod.mk.inj (Except.error.inj h)
      exact .left (.head ⟨_, hcondition⟩)
    · split at h
      · rename_i hall
        obtain ⟨rfl, -⟩ := Prod.mk.inj (Except.error.inj h)
        exact .left (.tail (haltIn_checkAll body hall))
      · split at h
        · rename_i hotherwise
          obtain ⟨rfl, -⟩ := Prod.mk.inj (Except.error.inj h)
          rw [← length_flattenAll] at hotherwise
          exact .tail (.right (haltIn_checkElse otherwise hotherwise))
        · cases h
  | .whileDo c body braces span, _, _, _, h => by
    rw [check] at h
    split at h
    · rename_i hcondition
      obtain ⟨rfl, -⟩ := Prod.mk.inj (Except.error.inj h)
      exact .head ⟨_, hcondition⟩
    · split at h
      · rename_i hall
        obtain ⟨rfl, -⟩ := Prod.mk.inj (Except.error.inj h)
        exact .tail (haltIn_checkAll body hall)
      · cases h
  | .breakLoop _, _, _, _, h | .continueLoop _, _, _, _, h => by
    rw [check] at h
    split at h
    · obtain ⟨heq, -⟩ := Prod.mk.inj (Except.error.inj h)
      exact .head (Halt.problem.inj heq).symm
    · cases h
  | .block body span, _, _, _, h => by
    rw [check] at h
    split at h
    · rename_i hall
      obtain ⟨rfl, -⟩ := Prod.mk.inj (Except.error.inj h)
      exact .tail (haltIn_checkAll body hall)
    · cases h
  | .foreign _, _, _, _, h => nomatch h

theorem haltIn_checkElse : (o : Option Stmt) → {loops n : Nat} → {left : Option Stmt} →
    checkElse s loops n o = .error (.problem q, left) → HaltIn s n q (flattenElse o)
  | none, _, _, _, h => nomatch h
  | some (.block body span), _, _, _, h => by
    rw [checkElse] at h
    split at h
    · rename_i hall
      obtain ⟨rfl, -⟩ := Prod.mk.inj (Except.error.inj h)
      exact haltIn_checkAll body hall
    · cases h
  | some (.ifThen c body braces otherwise span), _, _, _, h => by
    rw [checkElse_of_isIf rfl] at h
    split at h
    · rename_i hcheck
      obtain ⟨rfl, -⟩ := Prod.mk.inj (Except.error.inj h)
      exact haltIn_check (.ifThen c body braces otherwise span) hcheck
    · cases h
  | some (.var _), _, _, _, h | some (.assign ..), _, _, _, h | some (.call ..), _, _, _, h | some (.whileDo ..), _, _, _, h
  | some (.breakLoop _), _, _, _, h | some (.continueLoop _), _, _, _, h | some (.label ..), _, _, _, h
  | some (.goto ..), _, _, _, h | some (.foreign _), _, _, _, h => nomatch h

/-- A check of statements that halts at a problem has it from one of them, under the number of this one. -/
theorem haltIn_checkAll : (ss : List Stmt) → {loops n : Nat} → {left : List Stmt} →
    checkAll s loops n ss = .error (.problem q, left) → HaltIn s n q (flattenAll ss)
  | [], _, _, _, h => nomatch h
  | stmt :: ss, _, n, _, h => by
    rw [checkAll] at h
    split at h
    · rename_i hcheck
      obtain ⟨rfl, -⟩ := Prod.mk.inj (Except.error.inj h)
      exact .left (haltIn_check stmt hcheck)
    · split at h
      · rename_i hrest
        obtain ⟨rfl, -⟩ := Prod.mk.inj (Except.error.inj h)
        rw [← length_flatten] at hrest
        exact .right (haltIn_checkAll ss hrest)
      · cases h

end

/-- Numbers in labels change nothing about that. -/
theorem haltsAt_number {bound m : Nat} {stmt : Stmt} : (stmt.number bound m).HaltsAt s n q ↔ stmt.HaltsAt s n q := by
  cases stmt <;> rfl

/-- A numbered body that halts at a problem has it from a statement that stood there before, under its number. -/
theorem exists_of_haltIn_numberAll {bound : Nat} {ss : List Stmt} (h : HaltIn s 0 q (flattenAll (numberAll bound 0 ss))) :
    ∃ (k : Nat) (stmt : Stmt), (flattenAll ss)[k]? = some stmt ∧ stmt.HaltsAt s k q := by
  obtain ⟨k, x, hx, hhalts⟩ := h
  rw [flattenAll_numberAll, List.getElem?_map, Option.map_eq_some_iff] at hx
  obtain ⟨⟨stmt, m⟩, hstmt, rfl⟩ := hx
  rw [List.getElem?_zipIdx, Option.map_eq_some_iff] at hstmt
  obtain ⟨stmt', hstmt', heq⟩ := hstmt
  obtain ⟨rfl, -⟩ := Prod.mk.inj heq
  rw [haltsAt_number, Nat.zero_add] at hhalts
  exact ⟨k, stmt', hstmt', hhalts⟩

/-! ## Where they halt -/

theorem points_of_checkTarget {site : Site} {target left : Expr} (h : site.checkTarget target = .error (.problem q, left)) :
    (Node.expr target).Spans q.span ∧ q.cause.IsSeen site := by
  unfold Site.checkTarget at h
  split at h
  · cases h
  · split at h
    · obtain ⟨heq, -⟩ := Prod.mk.inj (Except.error.inj h)
      obtain rfl := Halt.problem.inj heq
      exact ⟨.own rfl, .of_eq_none rfl⟩
    · exact target.points_of_check h

theorem points_of_checkAssign {site : Site} {target value : Expr} {span : Span} {left : Stmt}
    (h : site.checkAssign target value span = .error (.problem q, left)) :
    (Node.stmt (.assign target value span)).Spans q.span ∧ q.cause.IsSeen site := by
  unfold Site.checkAssign at h
  split at h
  · rename_i htarget
    obtain ⟨rfl, -⟩ := Prod.mk.inj (Except.error.inj h)
    exact (points_of_checkTarget htarget).imp_left (.inner List.mem_cons_self)
  · split at h
    · rename_i hvalue
      obtain ⟨rfl, -⟩ := Prod.mk.inj (Except.error.inj h)
      exact (value.points_of_check hvalue).imp_left (.inner (List.mem_cons_of_mem _ List.mem_cons_self))
    · split at h
      · cases h
      · obtain ⟨heq, -⟩ := Prod.mk.inj (Except.error.inj h)
        obtain rfl := Halt.problem.inj heq
        exact ⟨.own rfl, .of_eq_none rfl⟩

theorem points_of_checkCondition {site : Site} {c left : Expr} (h : site.checkCondition c = .error (.problem q, left)) :
    (Node.expr c).Spans q.span ∧ q.cause.IsSeen site := by
  unfold Site.checkCondition at h
  split at h
  · rename_i hcheck
    obtain ⟨rfl, -⟩ := Prod.mk.inj (Except.error.inj h)
    exact c.points_of_check hcheck
  · rename_i hcheck
    split at h
    · cases h
    · obtain ⟨heq, -⟩ := Prod.mk.inj (Except.error.inj h)
      obtain rfl := Halt.problem.inj heq
      exact ⟨.own (congrArg some (Expr.span_of_check hcheck).symm), .of_eq_none rfl⟩

/-- A statement that halts at a problem has it in one of its heads. -/
theorem points_of_haltsAt {stmt : Stmt} (h : stmt.HaltsAt s n q) :
    ∃ m ∈ stmt.heads, m.Spans q.span ∧ q.cause.IsSeen (s.site n) := by
  cases stmt with
  | assign target value span =>
    obtain ⟨left, h⟩ := h
    exact ⟨_, List.mem_cons_self, points_of_checkAssign h⟩
  | call e span =>
    obtain ⟨left, h⟩ := h
    refine ⟨_, List.mem_cons_self, ?_⟩
    unfold Site.checkCall at h
    split at h
    · split at h
      · rename_i hcheck
        obtain ⟨rfl, -⟩ := Prod.mk.inj (Except.error.inj h)
        exact (Expr.points_of_check _ hcheck).imp_left (.inner List.mem_cons_self)
      · cases h
    · cases h
  | ifThen c _ _ _ _ | whileDo c _ _ _ =>
    obtain ⟨left, h⟩ := h
    exact ⟨_, List.mem_cons_self, points_of_checkCondition h⟩
  | breakLoop span | continueLoop span =>
    obtain rfl := h
    exact ⟨_, List.mem_cons_self, .own rfl, .of_eq_none rfl⟩
  | goto name target span =>
    obtain ⟨left, h⟩ := h
    unfold Surroundings.checkGoto at h
    split at h
    · obtain ⟨heq, -⟩ := Prod.mk.inj (Except.error.inj h)
      obtain rfl := Halt.problem.inj heq
      exact ⟨_, List.mem_cons_self, .own rfl, .of_eq_none rfl⟩
    · cases h
  | var _ | label _ _ _ | block _ _ | foreign _ => exact h.elim

end Stmt

end FlatScope
