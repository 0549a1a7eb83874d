/-
  Jumps that are checked. A check that goes through gives every jump a target and lets `break` and `continue` pass inside a
  loop only (`Stmt.areAimed_checkAll`). So wherever one of these stands in what a body has become, it stands inside the body
  of a loop that stands there (`Stmt.Stands.aimed`).
-/
import FlatScope.Proofs.Resolution.Check
import FlatScope.Proofs.Scopes.Places

namespace FlatScope

namespace Stmt

mutual

/-- Every jump has a target, and `break` and `continue` are inside loops, be it one around the statement. -/
def IsAimed (inLoop : Bool) : Stmt → Prop
  | .goto _ target _ => target.isSome = true
  | .breakLoop _ | .continueLoop _ => inLoop = true
  | .ifThen _ body _ otherwise _ => AreAimed inLoop body ∧ ElseAimed inLoop otherwise
  | .whileDo _ body _ _ => AreAimed true body
  | .block body _ => AreAimed inLoop body
  | .var _ | .assign .. | .call .. | .label .. | .foreign _ => True

def ElseAimed (inLoop : Bool) : Option Stmt → Prop
  | some (.ifThen _ body _ otherwise _) => AreAimed inLoop body ∧ ElseAimed inLoop otherwise
  | some (.block body _) => AreAimed inLoop body
  | _ => True

def AreAimed (inLoop : Bool) : List Stmt → Prop
  | [] => True
  | s :: ss => s.IsAimed inLoop ∧ AreAimed inLoop ss

end

/-! ## Checks aim jumps -/

section

variable (s : Surroundings)

mutual

theorem isAimed_check (loops n : Nat) : (stmt : Stmt) → {stmt' : Stmt} → stmt.check s loops n = .ok stmt' →
    stmt'.IsAimed (loops ≠ 0)
  | .assign target value span, stmt', h => by
    rw [check] at h
    unfold Site.checkAssign at h
    split at h
    · cases h
    · split at h
      · cases h
      · split at h
        · obtain rfl := Except.ok.inj h
          trivial
        · cases h
  | .call e span, stmt', h => by
    rw [check] at h
    unfold Site.checkCall at h
    split at h
    · split at h
      · cases h
      · obtain rfl := Except.ok.inj h
        trivial
    · cases h
  | .ifThen c body braces otherwise span, stmt', h => by
    rw [check] at h
    split at h
    · cases h
    · split at h
      · cases h
      · rename_i hbody
        split at h
        · cases h
        · rename_i hotherwise
          obtain rfl := Except.ok.inj h
          exact ⟨areAimed_checkAll loops (n + 1) body hbody, elseAimed_checkElse loops _ otherwise hotherwise⟩
  | .whileDo c body braces span, stmt', h => by
    rw [check] at h
    split at h
    · cases h
    · split at h
      · cases h
      · rename_i hbody
        obtain rfl := Except.ok.inj h
        have haimed := areAimed_checkAll (loops + 1) (n + 1) body hbody
        rwa [decide_eq_true (Nat.succ_ne_zero loops)] at haimed
  | .block body span, stmt', h => by
    rw [check] at h
    split at h
    · cases h
    · rename_i hbody
      obtain rfl := Except.ok.inj h
      exact areAimed_checkAll loops (n + 1) body hbody
  | .breakLoop span, stmt', h | .continueLoop span, stmt', h => by
    rw [check] at h
    split at h
    · cases h
    · rename_i hloops
      obtain rfl := Except.ok.inj h
      exact decide_eq_true hloops
  | .goto name target span, stmt', h => by
    rw [check] at h
    unfold Surroundings.checkGoto at h
    split at h
    · cases h
    · obtain rfl := Except.ok.inj h
      exact rfl
  | .var _, stmt', h | .label .., stmt', h => by
    obtain rfl := Except.ok.inj h
    trivial
  | .foreign _, stmt', h => nomatch h

theorem elseAimed_checkElse (loops n : Nat) : (o : Option Stmt) → {o' : Option Stmt} → checkElse s loops n o = .ok o' →
    ElseAimed (loops ≠ 0) o'
  | some (.ifThen c body braces otherwise span), o', h => by
    rw [checkElse_of_isIf rfl] at h
    split at h
    · cases h
    · rename_i branch hbranch
      obtain rfl := Except.ok.inj h
      have haimed := isAimed_check loops n (.ifThen c body braces otherwise span) hbranch
      cases branch with
      | ifThen _ _ _ _ _ | block _ _ => exact haimed
      | _ => trivial
  | some (.block body span), o', h => by
    rw [checkElse] at h
    split at h
    · cases h
    · rename_i hbody
      obtain rfl := Except.ok.inj h
      exact areAimed_checkAll loops n body hbody
  | none, o', h => by
    obtain rfl := Except.ok.inj h
    trivial
  | some (.var _), _, h | some (.assign ..), _, h | some (.call ..), _, h | some (.whileDo ..), _, h | some (.breakLoop _), _, h
  | some (.continueLoop _), _, h | some (.label ..), _, h | some (.goto ..), _, h | some (.foreign _), _, h => nomatch h

/-- What comes of a check that goes through is aimed. -/
theorem areAimed_checkAll (loops n : Nat) : (ss : List Stmt) → {ss' : List Stmt} → checkAll s loops n ss = .ok ss' →
    AreAimed (loops ≠ 0) ss'
  | [], ss', h => by
    obtain rfl := Except.ok.inj h
    trivial
  | stmt :: rest, ss', h => by
    rw [checkAll] at h
    split at h
    · cases h
    · rename_i hstmt
      split at h
      · cases h
      · rename_i hrest
        obtain rfl := Except.ok.inj h
        exact ⟨isAimed_check loops n stmt hstmt, areAimed_checkAll loops _ rest hrest⟩

end

end

/-! ## Where jumps stand -/

theorem AreAimed.get {inLoop : Bool} {ss : List Stmt} (h : AreAimed inLoop ss) {k : Nat} {s : Stmt} (hs : ss[k]? = some s) :
    s.IsAimed inLoop := by
  induction ss generalizing k with
  | nil => exact nomatch hs
  | cons s' ss ih =>
    cases k with
    | zero =>
      obtain rfl := Option.some.inj hs
      exact h.1
    | succ k => exact ih h.2 hs

/-- The address is inside the body of a loop of a body. -/
def InLoop (body : List Stmt) (a : Address) : Prop :=
  ∃ a' c inner braces span, Stands body a' (.whileDo c inner braces span) ∧ (0 :: a') <:+ a

/-- A statement that stands in an aimed body is aimed, as one in a loop only if it is inside one. -/
theorem Stands.aimed {body : List Stmt} (h : AreAimed false body) {a : Address} {s : Stmt} (hs : Stands body a s) :
    ∃ inLoop, s.IsAimed inLoop ∧ (inLoop = true → InLoop body a) := by
  induction hs with
  | top hs => exact ⟨false, h.get hs, nofun⟩
  | @inside a way s t hs ht ih =>
    obtain ⟨inLoop, haimed, hloop⟩ := ih
    have hlonger (hin : inLoop = true) : InLoop body (way ++ a) := by
      obtain ⟨a', c, inner, braces, span, hwhile, hsuffix⟩ := hloop hin
      exact ⟨a', c, inner, braces, span, hwhile, hsuffix.trans (List.suffix_append way a)⟩
    cases ht with
    | inIf ht => exact ⟨inLoop, haimed.1.get ht, hlonger⟩
    | elseIf => exact ⟨inLoop, haimed.2, hlonger⟩
    | inElse ht => exact ⟨inLoop, AreAimed.get haimed.2 ht, hlonger⟩
    | @inWhile c inner braces span k t ht =>
      exact ⟨true, AreAimed.get haimed ht, fun _ => ⟨a, c, inner, braces, span, hs, List.suffix_cons k (0 :: a)⟩⟩
    | inBlock ht => exact ⟨inLoop, AreAimed.get haimed ht, hlonger⟩

end Stmt

end FlatScope
