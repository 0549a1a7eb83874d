/-
  The numbers of statements, looked up. Reading what a body declares gives every statement a number, and checking looks the
  number of each up again by the identity of the statement, which is here its address in the body. Both go through the
  statements in reading order, and so no two statements have one address (`Stmt.ordered_addressesAll`); the number is there, and
  it is the one that `check` counts up to (`Stmt.guardedCheckAll_eq`).
-/
import FlatScope.Proofs.Totality.Scan
import FlatScope.Resolution.Stmt
import Mathlib.Data.List.Nodup

namespace FlatScope

/-- Where a statement is in a body: the way to it, with the last turn first. -/
abbrev Address := List Nat

namespace Stmt

mutual

/-- The addresses of a statement and those inside it, in the order of their numbers. -/
def addresses (a : Address) : Stmt → List Address
  | .ifThen _ body _ otherwise _ => a :: (addressesAll (0 :: a) 0 body ++ addressesElse (1 :: a) otherwise)
  | .whileDo _ body _ _ => a :: addressesAll (0 :: a) 0 body
  | .block body _ => a :: addressesAll (0 :: a) 0 body
  | .var _ | .assign .. | .call .. | .breakLoop _ | .continueLoop _ | .label .. | .goto .. | .foreign _ => [a]

def addressesElse (a : Address) : Option Stmt → List Address
  | some (.ifThen _ body _ otherwise _) => a :: (addressesAll (0 :: a) 0 body ++ addressesElse (1 :: a) otherwise)
  | some (.block body _) => addressesAll a 0 body
  | _ => []

/-- The addresses of the statements of a list, the first of which is the one with position `k`. -/
def addressesAll (a : Address) (k : Nat) : List Stmt → List Address
  | [] => []
  | s :: ss => s.addresses (k :: a) ++ addressesAll a (k + 1) ss

end

mutual

theorem length_addresses (a : Address) : (s : Stmt) → (s.addresses a).length = s.size
  | .ifThen _ body _ otherwise _ => by
    rw [addresses, size, List.length_cons, List.length_append, length_addressesAll, length_addressesElse]
    omega
  | .whileDo _ body _ _ | .block body _ => by
    rw [addresses, size, List.length_cons, length_addressesAll, Nat.add_comm]
  | .var _ | .assign .. | .call .. | .breakLoop _ | .continueLoop _ | .label .. | .goto .. | .foreign _ => rfl

theorem length_addressesElse (a : Address) : (o : Option Stmt) → (addressesElse a o).length = elseSize o
  | some (.ifThen _ body _ otherwise _) => by
    rw [addressesElse, elseSize, List.length_cons, List.length_append, length_addressesAll, length_addressesElse]
    omega
  | some (.block body _) => by rw [addressesElse, elseSize, length_addressesAll]
  | some (.var _) | some (.assign ..) | some (.call ..) | some (.whileDo ..) | some (.breakLoop _)
  | some (.continueLoop _) | some (.label ..) | some (.goto ..) | some (.foreign _) | none => rfl

theorem length_addressesAll (a : Address) (k : Nat) : (ss : List Stmt) → (addressesAll a k ss).length = sizes ss
  | [] => rfl
  | s :: ss => by rw [addressesAll, sizes, List.length_append, length_addresses, length_addressesAll]

end

mutual

theorem length_flatten : (s : Stmt) → s.flatten.length = s.size
  | .ifThen c body braces otherwise span => by
    rw [flatten, size, List.length_append, List.length_cons, length_flattenAll, length_flattenElse]
    omega
  | .whileDo _ body _ _ | .block body _ => by rw [flatten, size, List.length_cons, length_flattenAll, Nat.add_comm]
  | .var _ | .assign .. | .call .. | .breakLoop _ | .continueLoop _ | .label .. | .goto .. | .foreign _ => rfl

theorem length_flattenElse : (o : Option Stmt) → (flattenElse o).length = elseSize o
  | some (.ifThen c body braces otherwise span) => by
    rw [flattenElse, elseSize, List.length_append, List.length_cons, length_flattenAll, length_flattenElse]
    omega
  | some (.block body _) => by rw [flattenElse, elseSize, length_flattenAll]
  | some (.var _) | some (.assign ..) | some (.call ..) | some (.whileDo ..) | some (.breakLoop _)
  | some (.continueLoop _) | some (.label ..) | some (.goto ..) | some (.foreign _) | none => rfl

theorem length_flattenAll : (ss : List Stmt) → (flattenAll ss).length = sizes ss
  | [] => rfl
  | s :: ss => by rw [flattenAll, sizes, List.length_append, length_flatten, length_flattenAll]

end

mutual

/-- Writing down the numbers of labels moves no statement. -/
theorem addresses_number (bound n : Nat) (a : Address) : (s : Stmt) → (s.number bound n).addresses a = s.addresses a
  | .ifThen c body braces otherwise span => by
    rw [number, addresses, addresses, addressesAll_numberAll, addressesElse_numberElse]
  | .whileDo _ body _ _ | .block body _ => by rw [number, addresses, addresses, addressesAll_numberAll]
  | .var _ | .assign .. | .call .. | .breakLoop _ | .continueLoop _ | .label .. | .goto .. | .foreign _ => rfl

theorem addressesElse_numberElse (bound n : Nat) (a : Address) : (o : Option Stmt) →
    addressesElse a (numberElse bound n o) = addressesElse a o
  | some (.ifThen _ body _ otherwise _) => by
    rw [numberElse, addressesElse, addressesElse, addressesAll_numberAll, addressesElse_numberElse]
  | some (.block body _) => by rw [numberElse, addressesElse, addressesElse, addressesAll_numberAll]
  | some (.var _) | some (.assign ..) | some (.call ..) | some (.whileDo ..) | some (.breakLoop _)
  | some (.continueLoop _) | some (.label ..) | some (.goto ..) | some (.foreign _) | none => rfl

theorem addressesAll_numberAll (bound n : Nat) (a : Address) (k : Nat) : (ss : List Stmt) →
    addressesAll a k (numberAll bound n ss) = addressesAll a k ss
  | [] => rfl
  | s :: ss => by
    rw [numberAll, addressesAll, addressesAll, addresses_number bound n _ s, addressesAll_numberAll]

end

/-! ## The order of addresses -/

/-- A way that goes on at `a` with any turn passes `a`. -/
theorem suffix_of_turn {k : Nat} {a x : Address} (h : ∃ j, k ≤ j ∧ (j :: a) <:+ x) : a <:+ x := by
  obtain ⟨j, -, hj⟩ := h
  exact (List.suffix_cons j a).trans hj

mutual

/-- The way to a statement inside another one passes the latter. -/
theorem suffix_of_mem_addresses (a : Address) : (s : Stmt) → ∀ x ∈ s.addresses a, a <:+ x
  | .ifThen _ body _ otherwise _ => by
    rw [addresses]
    refine List.forall_mem_cons.mpr ⟨List.suffix_rfl, List.forall_mem_append.mpr ⟨fun x hx => ?_, fun x hx => ?_⟩⟩
    · exact (List.suffix_cons 0 a).trans (suffix_of_turn (suffix_of_mem_addressesAll (0 :: a) 0 body x hx))
    · exact (List.suffix_cons 1 a).trans (suffix_of_mem_addressesElse (1 :: a) otherwise x hx)
  | .whileDo _ body _ _ | .block body _ => by
    rw [addresses]
    refine List.forall_mem_cons.mpr ⟨List.suffix_rfl, fun x hx => ?_⟩
    exact (List.suffix_cons 0 a).trans (suffix_of_turn (suffix_of_mem_addressesAll (0 :: a) 0 body x hx))
  | .var _ | .assign .. | .call .. | .breakLoop _ | .continueLoop _ | .label .. | .goto .. | .foreign _ =>
    List.forall_mem_singleton.mpr List.suffix_rfl

theorem suffix_of_mem_addressesElse (a : Address) : (o : Option Stmt) → ∀ x ∈ addressesElse a o, a <:+ x
  | some (.ifThen _ body _ otherwise _) => by
    rw [addressesElse]
    refine List.forall_mem_cons.mpr ⟨List.suffix_rfl, List.forall_mem_append.mpr ⟨fun x hx => ?_, fun x hx => ?_⟩⟩
    · exact (List.suffix_cons 0 a).trans (suffix_of_turn (suffix_of_mem_addressesAll (0 :: a) 0 body x hx))
    · exact (List.suffix_cons 1 a).trans (suffix_of_mem_addressesElse (1 :: a) otherwise x hx)
  | some (.block body _) => fun x hx => suffix_of_turn (suffix_of_mem_addressesAll a 0 body x hx)
  | some (.var _) | some (.assign ..) | some (.call ..) | some (.whileDo ..) | some (.breakLoop _)
  | some (.continueLoop _) | some (.label ..) | some (.goto ..) | some (.foreign _) | none => List.forall_mem_nil _

theorem suffix_of_mem_addressesAll (a : Address) (k : Nat) : (ss : List Stmt) →
    ∀ x ∈ addressesAll a k ss, ∃ j, k ≤ j ∧ (j :: a) <:+ x
  | [] => List.forall_mem_nil _
  | s :: ss => by
    rw [addressesAll]
    refine List.forall_mem_append.mpr ⟨fun x hx => ?_, fun x hx => ?_⟩
    · exact ⟨k, le_rfl, suffix_of_mem_addresses (k :: a) s x hx⟩
    · obtain ⟨j, hj, hx⟩ := suffix_of_mem_addressesAll a (k + 1) ss x hx
      exact ⟨j, Nat.le_of_succ_le hj, hx⟩

end

end Stmt

/-- An address is in front of another one in reading order. A statement is in front of its parts, and ways that part go
on in the order of their turns. -/
def Address.Before (x y : Address) : Prop := x.reverse < y.reverse

namespace Address

variable {j k : Nat} {a x y : Address}

theorem ne_of_before (h : x.Before y) : x ≠ y := by
  rintro rfl
  exact List.lt_irrefl x.reverse h

/-- A statement is in front of what is inside it. -/
theorem before_of_suffix (h : (k :: a) <:+ x) : a.Before x := by
  obtain ⟨way, rfl⟩ := h
  have hlt : a.reverse ++ [] < a.reverse ++ k :: way.reverse := List.append_left_lt (List.nil_lt_cons k way.reverse)
  rw [Before, List.reverse_append, List.reverse_cons, List.append_assoc]
  rwa [List.append_nil] at hlt

/-- Ways part for good at different turns. -/
theorem before_of_turns (h : j < k) (hx : (j :: a) <:+ x) (hy : (k :: a) <:+ y) : x.Before y := by
  obtain ⟨way, rfl⟩ := hx
  obtain ⟨way', rfl⟩ := hy
  rw [Before, List.reverse_append, List.reverse_append, List.reverse_cons, List.reverse_cons, List.append_assoc, List.append_assoc]
  exact List.append_left_lt (List.cons_lt_cons_iff.mpr (.inl h))

end Address

namespace Stmt

/-- A statement and its parts are in order if its parts are. -/
theorem ordered_inside {a : Address} {xs : List Address} (hxs : xs.Pairwise Address.Before) (h : ∀ x ∈ xs, ∃ k, (k :: a) <:+ x) :
    (a :: xs).Pairwise Address.Before := by
  refine .cons (fun x hx => ?_) hxs
  obtain ⟨k, hk⟩ := h x hx
  exact Address.before_of_suffix hk

theorem ordered_branches {a : Address} {xs ys : List Address} (hxs : xs.Pairwise Address.Before) (hys : ys.Pairwise Address.Before)
    (hx : ∀ x ∈ xs, (0 :: a) <:+ x) (hy : ∀ y ∈ ys, (1 :: a) <:+ y) : (a :: (xs ++ ys)).Pairwise Address.Before := by
  refine ordered_inside (List.pairwise_append.mpr ⟨hxs, hys, fun x hxx y hyy => ?_⟩) ?_
  · exact Address.before_of_turns Nat.zero_lt_one (hx x hxx) (hy y hyy)
  · exact List.forall_mem_append.mpr ⟨fun x hx' => ⟨0, hx x hx'⟩, fun y hy' => ⟨1, hy y hy'⟩⟩

mutual

theorem ordered_addresses (a : Address) : (s : Stmt) → (s.addresses a).Pairwise Address.Before
  | .ifThen _ body _ otherwise _ => by
    rw [addresses]
    exact ordered_branches (ordered_addressesAll _ 0 body) (ordered_addressesElse _ otherwise)
      (fun x hx => suffix_of_turn (suffix_of_mem_addressesAll _ 0 body x hx)) (suffix_of_mem_addressesElse _ otherwise)
  | .whileDo _ body _ _ | .block body _ => by
    rw [addresses]
    exact ordered_inside (ordered_addressesAll _ 0 body) fun x hx =>
      ⟨0, suffix_of_turn (suffix_of_mem_addressesAll _ 0 body x hx)⟩
  | .var _ | .assign .. | .call .. | .breakLoop _ | .continueLoop _ | .label .. | .goto .. | .foreign _ =>
    List.pairwise_singleton _ a

theorem ordered_addressesElse (a : Address) : (o : Option Stmt) → (addressesElse a o).Pairwise Address.Before
  | some (.ifThen _ body _ otherwise _) => by
    rw [addressesElse]
    exact ordered_branches (ordered_addressesAll _ 0 body) (ordered_addressesElse _ otherwise)
      (fun x hx => suffix_of_turn (suffix_of_mem_addressesAll _ 0 body x hx)) (suffix_of_mem_addressesElse _ otherwise)
  | some (.block body _) => ordered_addressesAll a 0 body
  | some (.var _) | some (.assign ..) | some (.call ..) | some (.whileDo ..) | some (.breakLoop _)
  | some (.continueLoop _) | some (.label ..) | some (.goto ..) | some (.foreign _) | none => .nil

/-- The addresses of statements are in reading order. -/
theorem ordered_addressesAll (a : Address) (k : Nat) : (ss : List Stmt) → (addressesAll a k ss).Pairwise Address.Before
  | [] => .nil
  | s :: ss => by
    rw [addressesAll]
    refine List.pairwise_append.mpr ⟨ordered_addresses _ s, ordered_addressesAll a (k + 1) ss, fun x hx y hy => ?_⟩
    obtain ⟨j, hj, hy⟩ := suffix_of_mem_addressesAll a (k + 1) ss y hy
    exact Address.before_of_turns hj (suffix_of_mem_addresses _ s x hx) hy

end

/-- No two statements have one address. -/
theorem nodup_addressesAll (a : Address) (k : Nat) (ss : List Stmt) : (addressesAll a k ss).Nodup :=
  (ordered_addressesAll a k ss).imp Address.ne_of_before

end Stmt

/-! ## Checking with numbers that are looked up -/

/-- The number of the statement with an address, from the addresses of the statements that were read. -/
def Address.number (read : List Address) (a : Address) : Except Breach Nat :=
  match read.idxOf? a with
  | some n => .ok n
  | none => .error .noNumber

/-- Checks a jump, where it is an error to ask for a label when no scope is open. -/
def Surroundings.guardedGoto (s : Surroundings) (label : String) (target : Option Nat) (span : Span) :
    Except Breach (Checked Stmt Stmt) := do
  match ← (s.catalog.lookupLabel label).mapError Breach.refused with
  | none => return .error (.at span (.undefinedLabel label s.function), .goto label target span)
  | some l => return .ok (.goto label (some l.order.toNat) span)

namespace Stmt

mutual

/-- Checks the statement with an address as `check` does, but looks its number up. -/
def guardedCheck (s : Surroundings) (read : List Address) (loops : Nat) (a : Address) :
    Stmt → Except Breach (Checked Stmt Stmt)
  | .var d => do
    let _ ← a.number read
    return .ok (.var d)
  | .label name index span => do
    let _ ← a.number read
    return .ok (.label name index span)
  | .assign target value span => do
    let n ← a.number read
    return (s.site n).checkAssign target value span
  | .call e span => do
    let n ← a.number read
    return (s.site n).checkCall e span
  | .ifThen c body braces otherwise span => do
    let n ← a.number read
    match (s.site n).checkCondition c with
    | .error (halt, c) => return .error (halt, .ifThen c body braces otherwise span)
    | .ok c =>
      match ← guardedCheckAll s read loops (0 :: a) 0 body with
      | .error (halt, body) => return .error (halt, .ifThen c body braces otherwise span)
      | .ok body' =>
        match ← guardedCheckElse s read loops (1 :: a) otherwise with
        | .error (halt, otherwise) => return .error (halt, .ifThen c body' braces otherwise span)
        | .ok otherwise => return .ok (.ifThen c body' braces otherwise span)
  | .whileDo c body braces span => do
    let n ← a.number read
    match (s.site n).checkCondition c with
    | .error (halt, c) => return .error (halt, .whileDo c body braces span)
    | .ok c =>
      match ← guardedCheckAll s read (loops + 1) (0 :: a) 0 body with
      | .error (halt, body) => return .error (halt, .whileDo c body braces span)
      | .ok body => return .ok (.whileDo c body braces span)
  | .breakLoop span => do
    let _ ← a.number read
    return if loops = 0 then .error (.at span .breakOutsideLoop, .breakLoop span) else .ok (.breakLoop span)
  | .continueLoop span => do
    let _ ← a.number read
    return if loops = 0 then .error (.at span .continueOutsideLoop, .continueLoop span) else .ok (.continueLoop span)
  | .goto name target span => do
    let _ ← a.number read
    s.guardedGoto name target span
  | .block body span => do
    let _ ← a.number read
    match ← guardedCheckAll s read loops (0 :: a) 0 body with
    | .error (halt, body) => return .error (halt, .block body span)
    | .ok body => return .ok (.block body span)
  | .foreign node => do
    let _ ← a.number read
    return .error (.misplaced (.statement node.text), .foreign node)

/-- Checks what follows an `else`: another `if` with an address of its own, or a block without one. -/
def guardedCheckElse (s : Surroundings) (read : List Address) (loops : Nat) (a : Address) :
    Option Stmt → Except Breach (Checked (Option Stmt) (Option Stmt))
  | none => return .ok none
  | some (.block body span) => do
    match ← guardedCheckAll s read loops a 0 body with
    | .error (halt, body) => return .error (halt, some (.block body span))
    | .ok body => return .ok (some (.block body span))
  | some branch =>
    if branch.isIf then do
      match ← branch.guardedCheck s read loops a with
      | .error (halt, branch) => return .error (halt, some branch)
      | .ok branch => return .ok (some branch)
    else return .error (.misplaced (.noPart branch.className "statements"), some branch)

/-- Checks the statements of a list, the first of which is the one with position `k`. -/
def guardedCheckAll (s : Surroundings) (read : List Address) (loops : Nat) (a : Address) (k : Nat) :
    List Stmt → Except Breach (Checked (List Stmt) (List Stmt))
  | [] => return .ok []
  | stmt :: rest => do
    match ← stmt.guardedCheck s read loops (k :: a) with
    | .error (halt, stmt) => return .error (halt, stmt :: rest)
    | .ok stmt' =>
      match ← guardedCheckAll s read loops a (k + 1) rest with
      | .error (halt, rest) => return .error (halt, stmt' :: rest)
      | .ok rest => return .ok (stmt' :: rest)

end

end Stmt

/-! ## What is looked up is what is counted -/

variable {read : List Address}

/-- The first of the addresses that are read from number `n` on has that number. -/
theorem Address.number_eq (hread : read.Nodup) {n : Nat} {a : Address} {as : List Address} (h : a :: as <+: read.drop n) :
    a.number read = .ok n := by
  obtain ⟨rest, hrest⟩ := h
  have hn : read[n]? = some a := by
    rw [← List.head?_drop, ← hrest]
    rfl
  obtain ⟨hlt, hget⟩ := List.getElem?_eq_some_iff.mp hn
  have hfirst : ∀ j (hj : j < n), ¬read[j] = a := fun j hj heq =>
    absurd (hread.getElem_inj_iff.mp (heq.trans hget.symm)) (Nat.ne_of_lt hj)
  rw [number, List.idxOf?_eq_some_iff.mpr ⟨hlt, hget, hfirst⟩]

/-- Addresses that are read one after another. -/
theorem Address.read_append {n : Nat} {as bs : List Address} (h : as ++ bs <+: read.drop n) :
    as <+: read.drop n ∧ bs <+: read.drop (n + as.length) := by
  refine ⟨(List.prefix_append as bs).trans h, ?_⟩
  obtain ⟨rest, hrest⟩ := h
  refine ⟨rest, ?_⟩
  rw [← List.drop_drop, ← hrest, List.append_assoc, List.drop_left]

theorem Address.read_cons {n : Nat} {a : Address} {as : List Address} (h : a :: as <+: read.drop n) :
    as <+: read.drop (n + 1) := (read_append (show [a] ++ as <+: read.drop n from h)).2

variable {s : Surroundings}

theorem Surroundings.guardedGoto_eq (h : s.catalog.current.isSome = true) (label : String) (target : Option Nat) (span : Span) :
    s.guardedGoto label target span = .ok (s.checkGoto label target span) := by
  obtain ⟨scope, hscope⟩ := Option.isSome_iff_exists.mp h
  have hlookup : s.catalog.lookupLabel label = .ok (s.catalog.label? label) := by
    rw [Catalog.lookupLabel, Catalog.openScope, hscope]
    rfl
  rw [guardedGoto, hlookup, checkGoto]
  cases s.catalog.label? label <;> rfl

namespace Stmt

mutual

theorem guardedCheck_eq (hopen : s.catalog.current.isSome = true) (hread : read.Nodup) (loops n : Nat) (a : Address) :
    (stmt : Stmt) → stmt.addresses a <+: read.drop n → stmt.guardedCheck s read loops a = .ok (stmt.check s loops n)
  | .ifThen c body braces otherwise span, h => by
    rw [addresses] at h
    obtain ⟨hbody, helse⟩ := Address.read_append (Address.read_cons h)
    rw [length_addressesAll] at helse
    rw [guardedCheck, check, Address.number_eq hread h, guardedCheckAll_eq hopen hread _ _ _ _ body hbody,
      guardedCheckElse_eq hopen hread _ _ _ otherwise helse]
    simp only [bind, Except.bind]
    cases (s.site n).checkCondition c with
    | error left => rfl
    | ok c =>
      cases checkAll s loops (n + 1) body with
      | error left => rfl
      | ok body' => cases checkElse s loops (n + 1 + sizes body) otherwise <;> rfl
  | .whileDo c body braces span, h => by
    rw [addresses] at h
    rw [guardedCheck, check, Address.number_eq hread h, guardedCheckAll_eq hopen hread _ _ _ _ body (Address.read_cons h)]
    simp only [bind, Except.bind]
    cases (s.site n).checkCondition c with
    | error left => rfl
    | ok c => cases checkAll s (loops + 1) (n + 1) body <;> rfl
  | .block body span, h => by
    rw [addresses] at h
    rw [guardedCheck, check, Address.number_eq hread h, guardedCheckAll_eq hopen hread _ _ _ _ body (Address.read_cons h)]
    cases checkAll s loops (n + 1) body <;> rfl
  | .goto name target span, h => by
    rw [guardedCheck, Address.number_eq hread h]
    exact Surroundings.guardedGoto_eq hopen name target span
  | .var _, h | .assign .., h | .call .., h | .breakLoop _, h | .continueLoop _, h | .label .., h | .foreign _, h => by
    rw [guardedCheck, Address.number_eq hread h]
    rfl

theorem guardedCheckElse_eq (hopen : s.catalog.current.isSome = true) (hread : read.Nodup) (loops n : Nat) (a : Address) :
    (o : Option Stmt) → addressesElse a o <+: read.drop n → guardedCheckElse s read loops a o = .ok (checkElse s loops n o)
  | some (.ifThen c body braces otherwise span), h => by
    -- What follows the `else` has the address that it would have as a statement of its own.
    have hif := (ifThen c body braces otherwise span).guardedCheck_eq hopen hread loops n a h
    simp only [guardedCheckElse, checkElse, isIf, if_true, hif]
    cases (ifThen c body braces otherwise span).check s loops n <;> rfl
  | some (.block body span), h => by
    rw [guardedCheckElse, checkElse, guardedCheckAll_eq hopen hread _ _ _ _ body h]
    cases checkAll s loops n body <;> rfl
  | some (.var _), _ | some (.assign ..), _ | some (.call ..), _ | some (.whileDo ..), _ | some (.breakLoop _), _
  | some (.continueLoop _), _ | some (.label ..), _ | some (.goto ..), _ | some (.foreign _), _ | none, _ => rfl

/-- Statements that were read one after another are checked with the numbers that are counted up. -/
theorem guardedCheckAll_eq (hopen : s.catalog.current.isSome = true) (hread : read.Nodup) (loops n : Nat) (a : Address)
    (k : Nat) : (ss : List Stmt) → addressesAll a k ss <+: read.drop n →
    guardedCheckAll s read loops a k ss = .ok (checkAll s loops n ss)
  | [], _ => rfl
  | stmt :: rest, h => by
    rw [addressesAll] at h
    obtain ⟨hfirst, hrest⟩ := Address.read_append h
    rw [length_addresses] at hrest
    rw [guardedCheckAll, checkAll, stmt.guardedCheck_eq hopen hread _ _ _ hfirst,
      guardedCheckAll_eq hopen hread _ _ _ _ rest hrest]
    simp only [bind, Except.bind]
    cases stmt.check s loops n with
    | error left => rfl
    | ok stmt' => cases checkAll s loops (n + stmt.size) rest <;> rfl

end

end Stmt

end FlatScope
