/-
  Bodies in other braces. A `Rebracing` opens blocks, whose statements then stand where the block stood, and puts what
  follows an `else` into braces of its own. Numbers of statements follow: a block that is opened has none any more, and those
  behind it move up (`Rebracing.number`). What is left of the statements of a body in their order is what is left of each
  (`Stmt.flattenAll_rebraceAll`), so a statement that is left is found under its new number (`Stmt.getElem?_remaining`).
-/
import FlatScope.Proofs.Totality.Numbers
import FlatScope.Resolution.Unit
import Mathlib.Order.Monotone.Basic

namespace FlatScope

/-- Other braces for the statements of a body, by their numbers: which blocks are opened, and which of the statements behind
an `else` are put into braces, and where these are. -/
structure Rebracing where
  opens : Nat → Bool
  wraps : Nat → Option Span

namespace Rebracing

/-- Opens one block. -/
def opening (k : Nat) : Rebracing := ⟨fun n => n = k, fun _ => none⟩

/-- Puts the conditional statement behind one `else` into braces. -/
def wrapping (k : Nat) (span : Span) : Rebracing := ⟨fun _ => false, fun n => if n = k then some span else none⟩

variable (ρ : Rebracing)

/-- The number that a statement has in other braces: the number of those in front of it that are left. -/
def number : Nat → Nat
  | 0 => 0
  | n + 1 => if ρ.opens n then number n else number n + 1

/-- The order of a symbol in other braces. What no statement declares stays in front of all statements. -/
def order : Int → Int
  | .ofNat n => ρ.number n
  | .negSucc n => .negSucc n

variable {ρ} {m n : Nat}

theorem number_succ (h : ρ.opens n = false) : ρ.number (n + 1) = ρ.number n + 1 := by simp [number, h]

theorem number_succ_of_opens (h : ρ.opens n = true) : ρ.number (n + 1) = ρ.number n := by simp [number, h]

theorem monotone_number : Monotone ρ.number := by
  refine monotone_nat_of_le_succ fun n => ?_
  cases h : ρ.opens n with
  | true => rw [number_succ_of_opens h]
  | false =>
    rw [number_succ h]
    exact Nat.le_succ _

/-- A statement that is left stays in front of those behind it. -/
theorem number_lt_iff (h : ρ.opens n = false) : ρ.number n < ρ.number m ↔ n < m := by
  constructor
  · exact monotone_number.reflect_lt
  · intro hlt
    have hle : ρ.number (n + 1) ≤ ρ.number m := monotone_number (Nat.succ_le_of_lt hlt)
    rwa [number_succ h] at hle

@[simp] theorem order_natCast (n : Nat) : ρ.order n = ρ.number n := rfl

/-- What is declared in front of a statement that is left stays so. -/
theorem order_le_iff (h : ρ.opens n = false) (o : Int) : ρ.order o ≤ ρ.number n ↔ o ≤ n := by
  cases o with
  | ofNat m =>
    show (ρ.number m : Int) ≤ ρ.number n ↔ (m : Int) ≤ n
    rw [Int.ofNat_le, Int.ofNat_le, ← not_lt, ← not_lt, number_lt_iff h]
  | negSucc m =>
    rw [order]
    omega

theorem toNat_order (o : Int) : (ρ.order o).toNat = ρ.number o.toNat := by cases o <;> rfl

theorem number_opening (k n : Nat) : (opening k).number n = if n ≤ k then n else n - 1 := by
  induction n with
  | zero => rfl
  | succ n ih =>
    rw [number, ih, opening]
    simp only [decide_eq_true_eq]
    split <;> split <;> split <;> omega

theorem number_wrapping (k : Nat) (span : Span) (n : Nat) : (wrapping k span).number n = n := by
  induction n with
  | zero => rfl
  | succ n ih => rw [number_succ rfl, ih]

theorem order_wrapping (k : Nat) (span : Span) (o : Int) : (wrapping k span).order o = o := by
  cases o with
  | ofNat n => exact congrArg Int.ofNat (number_wrapping k span n)
  | negSucc n => rfl

end Rebracing

variable (ρ : Rebracing)

/-! ## Notes with other numbers -/

/-- A symbol with its order in other braces. -/
def Symbol.renumber (s : Symbol) : Symbol := { s with order := ρ.order s.order }

def LocalScope.renumber (s : LocalScope) : LocalScope := ⟨s.function, s.symbols.map (Symbol.renumber ρ)⟩

namespace Expr

mutual

/-- An expression whose names are noted with symbols in other braces. -/
def renumber : Expr → Expr
  | .int n i => .int n i
  | .real x i => .real x i
  | .byte n i => .byte n i
  | .ident name s i => .ident name (s.map (Symbol.renumber ρ)) i
  | .index b e i => .index b.renumber e.renumber i
  | .field b name i => .field b.renumber name i
  | .call c args i => .call c.renumber (renumberAll args) i
  | .composite es i => .composite (renumberAll es) i
  | .addrOf e i => .addrOf e.renumber i
  | .typeArg t i => .typeArg t i
  | .foreign n => .foreign n

def renumberAll : List Expr → List Expr
  | [] => []
  | e :: es => e.renumber :: renumberAll es

end

@[simp] theorem renumberAll_eq_map (es : List Expr) : renumberAll ρ es = es.map (renumber ρ) := by
  induction es with
  | nil => rfl
  | cons e es ih => simp [renumberAll, ih]

end Expr

/-! ## Problems with other numbers -/

/-- A name declared twice, where the previous declaration is in other braces. -/
def Duplicate.renumber (d : Duplicate) : Duplicate := { d with previous := d.previous.renumber ρ }

/-- A cause in other braces. Only a name declared twice tells of a symbol. -/
def Problem.Cause.renumber : Cause → Cause
  | duplicate d => duplicate (d.renumber ρ)
  | c => c

def Problem.renumber (p : Problem) : Problem := { p with cause := p.cause.renumber ρ }

def Halt.renumber : Halt → Halt
  | problem p => problem (p.renumber ρ)
  | misplaced m => misplaced m

/-- Users are told the same. -/
@[simp] theorem Problem.diagnostic_renumber (p : Problem) : (p.renumber ρ).diagnostic = p.diagnostic := by
  obtain ⟨cause, span⟩ := p
  cases cause <;> rfl

/-! ## Statements in other braces -/

namespace Stmt

def isBlock : Stmt → Bool
  | block .. => true
  | _ => false

mutual

/-- What the statement with number `n` becomes: the statements it contains if it is a block that is opened, or else itself
with what it contains in other braces. Its notes follow the numbers. -/
def rebrace (n : Nat) : Stmt → List Stmt
  | .block body span => if ρ.opens n then rebraceAll (n + 1) body else [.block (rebraceAll (n + 1) body) span]
  | .ifThen c body braces otherwise span =>
    [.ifThen (c.renumber ρ) (rebraceAll (n + 1) body) braces (rebraceElse (n + 1 + sizes body) otherwise) span]
  | .whileDo c body braces span => [.whileDo (c.renumber ρ) (rebraceAll (n + 1) body) braces span]
  | .assign t v span => [.assign (t.renumber ρ) (v.renumber ρ) span]
  | .call c span => [.call (c.renumber ρ) span]
  | .label name index span => [.label name (index.map ρ.number) span]
  | .goto name target span => [.goto name (target.map ρ.number) span]
  | .var d => [.var d]
  | .breakLoop span => [.breakLoop span]
  | .continueLoop span => [.continueLoop span]
  | .foreign node => [.foreign node]

/-- What follows an `else`, where the first statement has number `n`: another `if` may be put into braces. -/
def rebraceElse (n : Nat) : Option Stmt → Option Stmt
  | some (.ifThen c body braces otherwise span) =>
    let branch : Stmt :=
      .ifThen (c.renumber ρ) (rebraceAll (n + 1) body) braces (rebraceElse (n + 1 + sizes body) otherwise) span
    match ρ.wraps n with
    | some around => some (.block [branch] around)
    | none => some branch
  | some (.block body span) => some (.block (rebraceAll n body) span)
  | other => other

/-- Statements in other braces, the first of which has number `n`. -/
def rebraceAll (n : Nat) : List Stmt → List Stmt
  | [] => []
  | s :: ss => s.rebrace n ++ rebraceAll (n + s.size) ss

end

/-- What the statement with number `n` becomes if it is left. -/
def rebraced (n : Nat) (s : Stmt) : Stmt := (s.rebrace ρ n).headD s

/-- What is left of statements in their order, the first of which has number `n`. -/
def remaining (n : Nat) : List Stmt → List Stmt
  | [] => []
  | s :: ss => if ρ.opens n then remaining (n + 1) ss else s.rebraced ρ n :: remaining (n + 1) ss

end Stmt

/-- Whatever is opened among statements in their order, the first of which has number `n`, is a block. -/
def Rebracing.Fits (n : Nat) : List Stmt → Prop
  | [] => True
  | s :: ss => (ρ.opens n = true → s.isBlock = true) ∧ Fits (n + 1) ss

/-! ## Bodies and units in other braces -/

def FuncDecl.rebrace (d : FuncDecl) : FuncDecl := { d with body := Stmt.rebraceAll ρ 0 d.body }

/-- A declaration with its body in other braces, if it is a function. -/
def Decl.rebrace : Decl → Decl
  | func d => func (d.rebrace ρ)
  | d => d

/-- A unit with the body of one declaration in other braces. -/
def Program.rebrace (i : Nat) (p : Program) : Program := { p with decls := p.decls.modify i (Decl.rebrace ρ) }

def Entered.rebrace (e : Entered) : Entered :=
  ⟨e.scope.renumber ρ, Stmt.remaining ρ 0 e.statements, e.problem.map (Problem.renumber ρ)⟩

def FunctionInfo.rebrace (f : FunctionInfo) : FunctionInfo := { f with entered := f.entered.map (Entered.rebrace ρ) }

/-- A declaration in other braces. Problems that are found in front of the bodies stay as they are. -/
def Entry.rebrace (e : Entry) : Entry :=
  ⟨e.decl.rebrace ρ, e.failure.map fun f => if f.1 = .bodies then (f.1, f.2.renumber ρ) else f⟩

/-! ## Flat statements -/

variable {ρ} {n : Nat}

namespace Rebracing

theorem fits_append {xs ys : List Stmt} : ρ.Fits n (xs ++ ys) ↔ ρ.Fits n xs ∧ ρ.Fits (n + xs.length) ys := by
  induction xs generalizing n with
  | nil => exact ⟨fun h => ⟨trivial, h⟩, fun h => h.2⟩
  | cons x xs ih =>
    have hlength : n + 1 + xs.length = n + (x :: xs).length := by rw [List.length_cons, Nat.add_right_comm, Nat.add_assoc]
    rw [List.cons_append, Fits, Fits, ih, hlength, and_assoc]

/-- What is no block is not opened. -/
theorem Fits.not_opens {s : Stmt} {ss : List Stmt} (h : ρ.Fits n (s :: ss)) (hs : s.isBlock = false) : ρ.opens n = false :=
  Bool.eq_false_iff.mpr fun ho => Bool.noConfusion ((h.1 ho).symm.trans hs)

theorem fits_of_forall {xs : List Stmt} (h : ∀ j s, xs[j]? = some s → ρ.opens (n + j) = true → s.isBlock = true) :
    ρ.Fits n xs := by
  induction xs generalizing n with
  | nil => trivial
  | cons x xs ih =>
    refine ⟨h 0 x rfl, ih fun j s hs ho => h (j + 1) s hs ?_⟩
    rwa [Nat.add_right_comm] at ho

end Rebracing

namespace Stmt

theorem flattenAll_append (xs ys : List Stmt) : flattenAll (xs ++ ys) = flattenAll xs ++ flattenAll ys := by
  induction xs with
  | nil => rfl
  | cons x xs ih => rw [List.cons_append, flattenAll, flattenAll, ih, List.append_assoc]

theorem rebrace_eq_singleton (h : ρ.opens n = false) (s : Stmt) : s.rebrace ρ n = [s.rebraced ρ n] := by
  cases s with
  | block body span =>
    rw [rebraced, rebrace, h]
    rfl
  | var _ | assign _ _ _ | call _ _ | ifThen _ _ _ _ _ | whileDo _ _ _ _ | breakLoop _ | continueLoop _ | label _ _ _
  | goto _ _ _ | foreign _ => rfl

theorem rebraced_block (h : ρ.opens n = false) (body : List Stmt) (span : Span) :
    (block body span).rebraced ρ n = .block (rebraceAll ρ (n + 1) body) span := by
  rw [rebraced, rebrace, h]
  rfl

theorem remaining_cons_of_opens (h : ρ.opens n = true) (s : Stmt) (ss : List Stmt) :
    remaining ρ n (s :: ss) = remaining ρ (n + 1) ss := if_pos h

theorem remaining_cons (h : ρ.opens n = false) (s : Stmt) (ss : List Stmt) :
    remaining ρ n (s :: ss) = s.rebraced ρ n :: remaining ρ (n + 1) ss := if_neg (Bool.eq_false_iff.mp h)

theorem remaining_append (xs ys : List Stmt) :
    remaining ρ n (xs ++ ys) = remaining ρ n xs ++ remaining ρ (n + xs.length) ys := by
  induction xs generalizing n with
  | nil => rfl
  | cons x xs ih =>
    have hlength : n + (x :: xs).length = n + 1 + xs.length := by rw [List.length_cons, Nat.add_right_comm, Nat.add_assoc]
    rw [List.cons_append, hlength]
    cases h : ρ.opens n with
    | true => rw [remaining_cons_of_opens h, remaining_cons_of_opens h, ih]
    | false => rw [remaining_cons h, remaining_cons h, ih, List.cons_append]

/-- As many statements are left as there are numbers for them. -/
theorem length_remaining (ss : List Stmt) : ρ.number n + (remaining ρ n ss).length = ρ.number (n + ss.length) := by
  induction ss generalizing n with
  | nil => rfl
  | cons s ss ih =>
    have hlength : n + (s :: ss).length = n + 1 + ss.length := by rw [List.length_cons, Nat.add_right_comm, Nat.add_assoc]
    rw [hlength, ← ih]
    cases h : ρ.opens n with
    | true => rw [remaining_cons_of_opens h, Rebracing.number_succ_of_opens h]
    | false => rw [remaining_cons h, Rebracing.number_succ h, List.length_cons, Nat.add_right_comm, Nat.add_assoc]

theorem length_remaining_take (ss : List Stmt) {m : Nat} (hm : m ≤ ss.length) :
    (remaining ρ 0 (ss.take m)).length = ρ.number m := by
  have hlength := length_remaining (ρ := ρ) (n := 0) (ss.take m)
  rwa [List.length_take_of_le hm, Rebracing.number, Nat.zero_add, Nat.zero_add] at hlength

theorem take_remaining (ss : List Stmt) (m : Nat) :
    (remaining ρ 0 ss).take (ρ.number m) = remaining ρ 0 (ss.take m) := by
  obtain hm | hm := Nat.le_total m ss.length
  · conv_lhs => rw [← List.take_append_drop m ss, remaining_append, ← length_remaining_take ss hm]
    exact List.take_left' rfl
  · have hlength := length_remaining_take (ρ := ρ) ss (Nat.le_refl _)
    rw [List.take_length] at hlength
    rw [List.take_of_length_le hm, List.take_of_length_le]
    exact hlength ▸ Rebracing.monotone_number hm

/-- A statement that is left is found under its new number. -/
theorem getElem?_remaining (h : ρ.opens n = false) (ss : List Stmt) :
    (remaining ρ 0 ss)[ρ.number n]? = ss[n]?.map (rebraced ρ n) := by
  obtain hn | hn := Nat.lt_or_ge n ss.length
  · have hfront := length_remaining_take (ρ := ρ) ss hn.le
    conv_lhs => rw [← List.take_append_drop n ss, remaining_append]
    rw [List.getElem?_append_right hfront.le, hfront, Nat.sub_self, List.length_take_of_le hn.le, Nat.zero_add,
      List.drop_eq_getElem_cons hn, remaining_cons h, List.getElem?_eq_getElem hn]
    rfl
  · have hlength := length_remaining_take (ρ := ρ) ss (Nat.le_refl _)
    rw [List.take_length] at hlength
    rw [List.getElem?_eq_none hn, List.getElem?_eq_none (hlength ▸ Rebracing.monotone_number hn)]
    rfl

/-! ## What is left of a body -/

mutual

/-- The statements of what a statement becomes, in their order, are what is left of its statements. -/
theorem flattenAll_rebrace (n : Nat) : (s : Stmt) → ρ.Fits n s.flatten → flattenAll (s.rebrace ρ n) = remaining ρ n s.flatten
  | .block body span, h => by
    rw [flatten] at h ⊢
    have hbody := flattenAll_rebraceAll (n + 1) body h.2
    cases ho : ρ.opens n with
    | true => rw [rebrace, if_pos ho, remaining_cons_of_opens ho, hbody]
    | false =>
      rw [rebrace_eq_singleton ho, remaining_cons ho, rebraced_block ho, ← hbody]
      exact List.append_nil _
  | .ifThen c body braces otherwise span, h => by
    rw [flatten, List.cons_append] at h ⊢
    obtain ⟨hbody, helse⟩ := Rebracing.fits_append.mp h.2
    rw [length_flattenAll] at helse
    rw [remaining_cons (h.not_opens rfl), remaining_append, length_flattenAll, ← flattenAll_rebraceAll _ body hbody,
      ← flattenElse_rebraceElse _ otherwise helse]
    exact List.append_nil _
  | .whileDo c body braces span, h => by
    rw [flatten] at h ⊢
    rw [remaining_cons (h.not_opens rfl), ← flattenAll_rebraceAll _ body h.2]
    exact List.append_nil _
  | .var _, h | .assign .., h | .call .., h | .breakLoop _, h | .continueLoop _, h | .label .., h | .goto .., h
  | .foreign _, h => by
    symm
    exact remaining_cons (h.not_opens rfl) _ []

theorem flattenElse_rebraceElse (n : Nat) : (o : Option Stmt) → ρ.Fits n (flattenElse o) →
    flattenElse (rebraceElse ρ n o) = remaining ρ n (flattenElse o)
  | some (.ifThen c body braces otherwise span), h => by
    rw [flattenElse, List.cons_append] at h ⊢
    obtain ⟨hbody, helse⟩ := Rebracing.fits_append.mp h.2
    rw [length_flattenAll] at helse
    rw [remaining_cons (h.not_opens rfl), remaining_append, length_flattenAll, ← flattenAll_rebraceAll _ body hbody,
      ← flattenElse_rebraceElse _ otherwise helse, rebraceElse]
    cases ρ.wraps n with
    | none => rfl
    | some around => exact List.append_nil _
  | some (.block body _), h => by
    rw [flattenElse] at h ⊢
    exact flattenAll_rebraceAll n body h
  | some (.var _), _ | some (.assign ..), _ | some (.call ..), _ | some (.whileDo ..), _ | some (.breakLoop _), _
  | some (.continueLoop _), _ | some (.label ..), _ | some (.goto ..), _ | some (.foreign _), _ | none, _ => rfl

theorem flattenAll_rebraceAll (n : Nat) : (ss : List Stmt) → ρ.Fits n (flattenAll ss) →
    flattenAll (rebraceAll ρ n ss) = remaining ρ n (flattenAll ss)
  | [], _ => rfl
  | s :: ss, h => by
    rw [flattenAll] at h ⊢
    obtain ⟨hs, hss⟩ := Rebracing.fits_append.mp h
    rw [length_flatten] at hss
    rw [rebraceAll, flattenAll_append, flattenAll_rebrace n s hs, flattenAll_rebraceAll _ ss hss, remaining_append,
      length_flatten]

end

end Stmt

end FlatScope
