/-
  Statements are numbered and checked in other braces as before (`Stmt.numberAll_rebraceAll`, `Stmt.checkAll_rebraceAll`). A
  block that is opened is checked as the statements it contains, under the same loops; another `if` behind an `else` has the
  number that it has between braces. Numbering and checking turn no statement into a block and no block into anything else,
  so the blocks that are opened in a body are those that are opened in what it becomes.
-/
import FlatScope.Proofs.Rebracing.Expr
import FlatScope.Proofs.Resolution.Jumps

namespace FlatScope

variable {ρ : Rebracing} {n : Nat}

/-! ## Blocks stay blocks -/

theorem Rebracing.fits_congr {xs ys : List Stmt} (h : xs.map Stmt.isBlock = ys.map Stmt.isBlock) :
    ρ.Fits n xs ↔ ρ.Fits n ys := by
  induction xs generalizing ys n with
  | nil =>
    obtain rfl := List.map_eq_nil_iff.mp h.symm
    rfl
  | cons x xs ih =>
    cases ys with
    | nil => cases h
    | cons y ys =>
      obtain ⟨hx, hxs⟩ := List.cons.inj h
      rw [Fits, Fits, hx, ih hxs]

namespace Stmt

theorem map_isBlock_eq (ss : List Stmt) : ss.map isBlock = (ss.map outline).map fun o => decide (o = .block) := by
  rw [List.map_map]
  refine List.map_congr_left fun s _ => ?_
  cases s <;> rfl

/-- Numbers make no block of anything else. -/
theorem map_isBlock_of_outlines {bound : Nat} {ss ss' : List Stmt}
    (h : ss'.map outline = Outline.numberAll bound n (ss.map outline)) : ss'.map isBlock = ss.map isBlock := by
  rw [map_isBlock_eq, map_isBlock_eq, h, Outline.numberAll, List.map_map, ← List.zipIdx_map_fst n (ss.map outline), List.map_map,
    List.zipIdx_map_fst]
  refine List.map_congr_left fun x _ => ?_
  obtain ⟨o, j⟩ := x
  cases o <;> rfl

theorem map_isBlock_of_leads {c : Catalog} {ss ss' : List Stmt} (h : List.Forall₂ (Leads c) ss ss') :
    ss'.map isBlock = ss.map isBlock := by
  rw [map_isBlock_eq, map_isBlock_eq]
  induction h with
  | nil => rfl
  | cons hs _ ih =>
    rw [List.map_cons, List.map_cons, List.map_cons, List.map_cons, ih]
    obtain hs | ⟨name, target, l, hs, -, hs'⟩ := hs
    · rw [hs]
    · rw [hs, hs']
      rfl

theorem map_isBlock_numberAll (bound n : Nat) (ss : List Stmt) :
    (flattenAll (numberAll bound n ss)).map isBlock = (flattenAll ss).map isBlock :=
  map_isBlock_of_outlines (outlines_numberAll bound n ss)

theorem map_isBlock_checkAll (s : Surroundings) (loops n : Nat) (ss : List Stmt) :
    (flattenAll ((checkAll s loops n ss).after id)).map isBlock = (flattenAll ss).map isBlock :=
  map_isBlock_of_leads (leads_checkAll s loops n ss)

/-- As many statements as before are those of which as many as before are blocks. -/
theorem sizes_of_map_isBlock {ss ss' : List Stmt} (h : (flattenAll ss').map isBlock = (flattenAll ss).map isBlock) :
    sizes ss' = sizes ss := by
  have hlength := congrArg List.length h
  rwa [List.length_map, List.length_map, length_flattenAll, length_flattenAll] at hlength

theorem size_of_map_isBlock {s s' : Stmt} (h : s'.flatten.map isBlock = s.flatten.map isBlock) : s'.size = s.size := by
  have hlength := congrArg List.length h
  rwa [List.length_map, List.length_map, length_flatten, length_flatten] at hlength

/-! ## Numbers -/

theorem numberAll_append (bound n : Nat) (xs ys : List Stmt) :
    numberAll bound n (xs ++ ys) = numberAll bound n xs ++ numberAll bound (n + sizes xs) ys := by
  induction xs generalizing n with
  | nil => rfl
  | cons x xs ih => rw [List.cons_append, numberAll, numberAll, ih, sizes, Nat.add_assoc, List.cons_append]

/-- The numbers behind statements in other braces are the new ones. -/
theorem sizes_rebraceAll {ss : List Stmt} (h : ρ.Fits n (flattenAll ss)) :
    ρ.number n + sizes (rebraceAll ρ n ss) = ρ.number (n + sizes ss) := by
  rw [← length_flattenAll, flattenAll_rebraceAll n ss h, length_remaining, length_flattenAll]

theorem sizes_rebrace {s : Stmt} (h : ρ.Fits n s.flatten) : ρ.number n + sizes (s.rebrace ρ n) = ρ.number (n + s.size) := by
  rw [← length_flattenAll, flattenAll_rebrace n s h, length_remaining, length_flatten]

mutual

/-- A statement is numbered in other braces as before. -/
theorem numberAll_rebrace (bound n : Nat) : (s : Stmt) → ρ.Fits n s.flatten →
    numberAll (ρ.number bound) (ρ.number n) (s.rebrace ρ n) = (s.number bound n).rebrace ρ n
  | .block body span, h => by
    rw [flatten] at h
    have hbody := numberAll_rebraceAll bound (n + 1) body h.2
    cases ho : ρ.opens n with
    | true =>
      rw [Rebracing.number_succ_of_opens ho] at hbody
      rw [number, rebrace, rebrace, if_pos ho, if_pos ho, hbody]
    | false =>
      rw [Rebracing.number_succ ho] at hbody
      rw [number, rebrace_eq_singleton ho, rebrace_eq_singleton ho, rebraced_block ho, rebraced_block ho, ← hbody]
      rfl
  | .ifThen c body braces otherwise span, h => by
    rw [flatten, List.cons_append] at h
    obtain ⟨hb, he⟩ := Rebracing.fits_append.mp h.2
    rw [length_flattenAll] at he
    rw [rebrace, number, rebrace, numberAll, number, ← Rebracing.number_succ (h.not_opens rfl), sizes_rebraceAll hb,
      numberAll_rebraceAll bound _ body hb, numberElse_rebraceElse bound _ otherwise he,
      sizes_of_map_isBlock (map_isBlock_numberAll bound (n + 1) body)]
    rfl
  | .whileDo c body braces span, h => by
    rw [flatten] at h
    rw [rebrace, number, rebrace, numberAll, number, ← Rebracing.number_succ (h.not_opens rfl),
      numberAll_rebraceAll bound _ body h.2]
    rfl
  | .label name index span, h => by
    have hlt : ρ.number n < ρ.number bound ↔ n < bound := Rebracing.number_lt_iff (h.not_opens rfl)
    rw [rebrace, number, rebrace, numberAll, number]
    by_cases hn : n < bound
    · rw [if_pos hn, if_pos (hlt.mpr hn)]
      rfl
    · rw [if_neg hn, if_neg (mt hlt.mp hn)]
      rfl
  | .var _, _ | .assign .., _ | .call .., _ | .breakLoop _, _ | .continueLoop _, _ | .goto .., _ | .foreign _, _ => rfl

theorem numberElse_rebraceElse (bound n : Nat) : (o : Option Stmt) → ρ.Fits n (flattenElse o) →
    numberElse (ρ.number bound) (ρ.number n) (rebraceElse ρ n o) = rebraceElse ρ n (numberElse bound n o)
  | some (.ifThen c body braces otherwise span), h => by
    rw [flattenElse, List.cons_append] at h
    obtain ⟨hb, he⟩ := Rebracing.fits_append.mp h.2
    rw [length_flattenAll] at he
    have hbody := numberAll_rebraceAll bound (n + 1) body hb
    have helse := numberElse_rebraceElse bound (n + 1 + sizes body) otherwise he
    rw [Rebracing.number_succ (h.not_opens rfl)] at hbody
    have hsizes : ρ.number n + 1 + sizes (rebraceAll ρ (n + 1) body) = ρ.number (n + 1 + sizes body) := by
      rw [← Rebracing.number_succ (h.not_opens rfl), sizes_rebraceAll hb]
    rw [rebraceElse, numberElse, rebraceElse, sizes_of_map_isBlock (map_isBlock_numberAll bound (n + 1) body)]
    cases ρ.wraps n with
    | none => rw [numberElse, hbody, hsizes, helse]
    | some around =>
      rw [numberElse, numberAll, number, hbody, hsizes, helse]
      rfl
  | some (.block body _), h => by
    rw [flattenElse] at h
    rw [rebraceElse, numberElse, numberElse, rebraceElse, numberAll_rebraceAll bound n body h]
  | some (.var _), _ | some (.assign ..), _ | some (.call ..), _ | some (.whileDo ..), _ | some (.breakLoop _), _
  | some (.continueLoop _), _ | some (.label ..), _ | some (.goto ..), _ | some (.foreign _), _ | none, _ => rfl

theorem numberAll_rebraceAll (bound n : Nat) : (ss : List Stmt) → ρ.Fits n (flattenAll ss) →
    numberAll (ρ.number bound) (ρ.number n) (rebraceAll ρ n ss) = rebraceAll ρ n (numberAll bound n ss)
  | [], _ => rfl
  | s :: ss, h => by
    rw [flattenAll] at h
    obtain ⟨hs, hss⟩ := Rebracing.fits_append.mp h
    rw [length_flatten] at hss
    rw [rebraceAll, numberAll_append, sizes_rebrace hs, numberAll_rebrace bound n s hs, numberAll_rebraceAll bound _ ss hss,
      numberAll, rebraceAll, size_of_map_isBlock (map_isBlock_of_outlines (outlines_number bound n s))]

end

end Stmt

/-! ## Simple statements -/

namespace Site.Stands

variable {site : Site} (h : site.Stands ρ)
include h

theorem checkTarget (target : Expr) : (site.renumber ρ).checkTarget (target.renumber ρ)
    = ρ.checked (Expr.renumber ρ) ρ.typed (site.checkTarget target) := by
  unfold Site.checkTarget
  rw [Expr.root_renumber, Expr.rootName_renumber, target.check_renumber h none]
  cases target.root.rootName with
  | error m => rfl
  | ok name =>
    dsimp only
    rw [h.lookup]
    cases site.lookup name with
    | none => rfl
    | some s =>
      obtain ⟨_, kind, _, _, _, _, _, _⟩ := s
      have hspan := target.span_renumber (ρ := ρ)
      cases kind
      case var | param | result => rfl
      all_goals
        show Except.error (Halt.at (target.renumber ρ).span _, _) = _
        rw [hspan]
        rfl

theorem checkAssign (n : Nat) (target value : Expr) (span : Span) :
    (site.renumber ρ).checkAssign (target.renumber ρ) (value.renumber ρ) span
      = ρ.checked (Stmt.rebraced ρ n) (Stmt.rebraced ρ n) (site.checkAssign target value span) := by
  unfold Site.checkAssign
  rw [h.checkTarget]
  cases site.checkTarget target with
  | error left => rfl
  | ok r =>
    obtain ⟨target', t⟩ := r
    simp only [Rebracing.checked, Rebracing.typed, value.check_renumber h (some t)]
    cases value.check site (some t) with
    | error left => rfl
    | ok r =>
      obtain ⟨value', u⟩ := r
      show (if u = t then _ else _) = ρ.checked _ _ (if u = t then _ else _)
      split <;> rfl

theorem checkCall (n : Nat) (e : Expr) (span : Span) : (site.renumber ρ).checkCall (e.renumber ρ) span
    = ρ.checked (Stmt.rebraced ρ n) (Stmt.rebraced ρ n) (site.checkCall e span) := by
  cases e with
  | call callee args info =>
    have hcall := (Expr.call callee args info).check_renumber h none
    rw [Expr.renumber] at hcall ⊢
    simp only [Site.checkCall, hcall]
    cases (Expr.call callee args info).check site none <;> rfl
  | int _ _ | real _ _ | byte _ _ | ident _ _ _ | index _ _ _ | field _ _ _ | composite _ _ | addrOf _ _ | typeArg _ _
  | foreign _ => rfl

theorem checkCondition (e : Expr) : (site.renumber ρ).checkCondition (e.renumber ρ)
    = ρ.checked (Expr.renumber ρ) (Expr.renumber ρ) (site.checkCondition e) := by
  unfold Site.checkCondition
  rw [e.check_renumber h none]
  cases e.check site none with
  | error left => rfl
  | ok r =>
    obtain ⟨e', t⟩ := r
    simp only [Rebracing.checked, Rebracing.typed, Expr.leftBehind_renumber, Expr.span_renumber]
    split <;> rfl

end Site.Stands

/-- Surroundings in other braces. -/
def Surroundings.renumber (ρ : Rebracing) (s : Surroundings) : Surroundings := ⟨s.builtins, s.catalog.renumber ρ, s.function⟩

theorem Surroundings.checkGoto_renumber (s : Surroundings) (n : Nat) (label : String) (target : Option Nat) (span : Span) :
    (s.renumber ρ).checkGoto label (target.map ρ.number) span
      = ρ.checked (Stmt.rebraced ρ n) (Stmt.rebraced ρ n) (s.checkGoto label target span) := by
  have hlabel : (s.renumber ρ).catalog.label? label = (s.catalog.label? label).map (Symbol.renumber ρ) :=
    s.catalog.label?_renumber label
  unfold Surroundings.checkGoto
  rw [hlabel]
  cases s.catalog.label? label with
  | none => rfl
  | some l => exact congrArg (fun target => Except.ok (Stmt.goto label (some target) span)) (Rebracing.toNat_order l.order)

/-! ## All statements -/

theorem Surroundings.stands (s : Surroundings) (hs : s.catalog.IsUnordered) (ho : ρ.opens n = false) : (s.site n).Stands ρ := ⟨ho, hs⟩

namespace Stmt

variable {s : Surroundings} {loops : Nat}

theorem checkAll_singleton (stmt : Stmt) : checkAll s loops n [stmt] =
    match stmt.check s loops n with
    | .error (halt, stmt) => .error (halt, [stmt])
    | .ok stmt => .ok [stmt] := by
  rw [checkAll]
  cases stmt.check s loops n <;> rfl

theorem checkAll_append (xs ys : List Stmt) : checkAll s loops n (xs ++ ys) =
    match checkAll s loops n xs with
    | .error (halt, xs) => .error (halt, xs ++ ys)
    | .ok xs' =>
      match checkAll s loops (n + sizes xs) ys with
      | .error (halt, ys) => .error (halt, xs' ++ ys)
      | .ok ys => .ok (xs' ++ ys) := by
  induction xs generalizing n with
  | nil =>
    show checkAll s loops n ys = match checkAll s loops n ys with | .error (halt, ys) => _ | .ok ys => _
    cases checkAll s loops n ys <;> rfl
  | cons x xs ih =>
    rw [List.cons_append, checkAll, checkAll, ih, sizes, Nat.add_assoc]
    cases x.check s loops n with
    | error left => rfl
    | ok x' =>
      dsimp only
      cases checkAll s loops (n + x.size) xs with
      | error left => rfl
      | ok xs' => cases checkAll s loops (n + (x.size + sizes xs)) ys <;> rfl

/-- What is checked of one statement in other braces, as a list of statements. -/
def IsFollowed (ρ : Rebracing) (s : Surroundings) (loops n : Nat) (stmt : Stmt) : Prop :=
  checkAll (s.renumber ρ) loops (ρ.number n) (stmt.rebrace ρ n)
    = ρ.checked (rebrace ρ n) (rebrace ρ n) (stmt.check s loops n)

/-- A statement that is left is checked as a list of its own. -/
theorem isFollowed_of_rebraced (ho : ρ.opens n = false) {stmt : Stmt}
    (h : (stmt.rebraced ρ n).check (s.renumber ρ) loops (ρ.number n) = ρ.checked (rebraced ρ n) (rebraced ρ n) (stmt.check s loops n)) :
    stmt.IsFollowed ρ s loops n := by
  rw [IsFollowed, rebrace_eq_singleton ho, checkAll_singleton, h]
  cases stmt.check s loops n with
  | error left =>
    simp only [Rebracing.checked, rebrace_eq_singleton ho]
  | ok stmt' => simp only [Rebracing.checked, rebrace_eq_singleton ho]

/-- A block that is opened is checked as the statements it contains. -/
theorem isFollowed_of_opens (ho : ρ.opens n = true) {body : List Stmt} {span : Span}
    (h : checkAll (s.renumber ρ) loops (ρ.number (n + 1)) (rebraceAll ρ (n + 1) body)
      = ρ.checked (rebraceAll ρ (n + 1)) (rebraceAll ρ (n + 1)) (checkAll s loops (n + 1) body)) :
    (block body span).IsFollowed ρ s loops n := by
  rw [Rebracing.number_succ_of_opens ho] at h
  have hblock (body' : List Stmt) : (block body' span).rebrace ρ n = rebraceAll ρ (n + 1) body' := by rw [rebrace, if_pos ho]
  rw [IsFollowed, hblock, h, check]
  cases checkAll s loops (n + 1) body with
  | error left => simp only [Rebracing.checked, hblock]
  | ok body' => simp only [Rebracing.checked, hblock]

/-- Statements are checked in other braces one after another. -/
theorem checkAll_rebraceAll_cons {stmt : Stmt} {rest : List Stmt} (hfits : ρ.Fits n stmt.flatten)
    (h : stmt.IsFollowed ρ s loops n) (hrest : checkAll (s.renumber ρ) loops (ρ.number (n + stmt.size)) (rebraceAll ρ (n + stmt.size) rest)
      = ρ.checked (rebraceAll ρ (n + stmt.size)) (rebraceAll ρ (n + stmt.size)) (checkAll s loops (n + stmt.size) rest)) :
    checkAll (s.renumber ρ) loops (ρ.number n) (rebraceAll ρ n (stmt :: rest))
      = ρ.checked (rebraceAll ρ n) (rebraceAll ρ n) (checkAll s loops n (stmt :: rest)) := by
  have hsize := size_of_map_isBlock (map_isBlock_of_leads (leads_check s loops n stmt))
  rw [rebraceAll, checkAll_append, h, sizes_rebrace hfits, hrest, checkAll]
  cases hc : stmt.check s loops n with
  | error left =>
    rw [hc] at hsize
    have hsize : left.2.size = stmt.size := hsize
    simp only [Rebracing.checked, rebraceAll, hsize]
  | ok stmt' =>
    rw [hc] at hsize
    have hsize : stmt'.size = stmt.size := hsize
    cases checkAll s loops (n + stmt.size) rest with
    | error left => simp only [Rebracing.checked, rebraceAll, hsize]
    | ok rest' => simp only [Rebracing.checked, rebraceAll, hsize]

/-- What follows an `else` becomes what another `if` becomes, perhaps in braces. -/
theorem rebraceElse_of_isIf {branch : Stmt} (h : branch.isIf = true) : rebraceElse ρ n (some branch) =
    match ρ.wraps n with
    | some around => some (.block [branch.rebraced ρ n] around)
    | none => some (branch.rebraced ρ n) := by
  cases branch with
  | ifThen _ _ _ _ _ => rw [rebraceElse]; rfl
  | var _ | assign _ _ _ | call _ _ | whileDo _ _ _ _ | breakLoop _ | continueLoop _ | label _ _ _ | goto _ _ _ | block _ _
  | foreign _ => cases h

theorem isIf_rebraced {branch : Stmt} (h : branch.isIf = true) : (branch.rebraced ρ n).isIf = true := by
  cases branch with
  | ifThen _ _ _ _ _ => rfl
  | var _ | assign _ _ _ | call _ _ | whileDo _ _ _ _ | breakLoop _ | continueLoop _ | label _ _ _ | goto _ _ _ | block _ _
  | foreign _ => cases h

/-- Another `if` behind an `else` is checked in braces as without. -/
theorem checkElse_rebraceElse_of_isIf {branch : Stmt} (hi : branch.isIf = true)
    (h : (branch.rebraced ρ n).check (s.renumber ρ) loops (ρ.number n) = ρ.checked (rebraced ρ n) (rebraced ρ n) (branch.check s loops n)) :
    checkElse (s.renumber ρ) loops (ρ.number n) (rebraceElse ρ n (some branch))
      = ρ.checked (rebraceElse ρ n) (rebraceElse ρ n) (checkElse s loops n (some branch)) := by
  have hafter := isIf_check s loops n hi
  rw [checkElse_of_isIf hi, rebraceElse_of_isIf hi]
  cases hw : ρ.wraps n with
  | none =>
    have hresult (b : Stmt) (hb : b.isIf = true) : rebraceElse ρ n (some b) = some (b.rebraced ρ n) := by
      rw [rebraceElse_of_isIf hb, hw]
    dsimp only
    rw [checkElse_of_isIf (isIf_rebraced hi), h]
    cases hc : branch.check s loops n with
    | error left => simp only [Rebracing.checked, hresult left.2 (hafter.of_error hc)]
    | ok branch' => simp only [Rebracing.checked, hresult branch' (hafter.of_ok hc)]
  | some around =>
    have hresult (b : Stmt) (hb : b.isIf = true) : rebraceElse ρ n (some b) = some (.block [b.rebraced ρ n] around) := by
      rw [rebraceElse_of_isIf hb, hw]
    dsimp only
    rw [checkElse, checkAll_singleton, h]
    cases hc : branch.check s loops n with
    | error left => simp only [Rebracing.checked, hresult left.2 (hafter.of_error hc)]
    | ok branch' => simp only [Rebracing.checked, hresult branch' (hafter.of_ok hc)]

mutual

/-- A statement that is left is checked in other braces as before. -/
theorem check_rebraced (hs : s.catalog.IsUnordered) (loops n : Nat) (ho : ρ.opens n = false) : (stmt : Stmt) → ρ.Fits n stmt.flatten →
    (stmt.rebraced ρ n).check (s.renumber ρ) loops (ρ.number n) = ρ.checked (rebraced ρ n) (rebraced ρ n) (stmt.check s loops n)
  | .assign target value span, _ => (s.stands hs ho).checkAssign n target value span
  | .call e span, _ => (s.stands hs ho).checkCall n e span
  | .goto name target span, _ => s.checkGoto_renumber n name target span
  | .breakLoop span, _ => by
    show (breakLoop span).check _ _ _ = _
    rw [check, check]
    split <;> rfl
  | .continueLoop span, _ => by
    show (continueLoop span).check _ _ _ = _
    rw [check, check]
    split <;> rfl
  | .block body span, h => by
    rw [flatten] at h
    have hbody := checkAll_rebraceAll hs loops (n + 1) body h.2
    rw [Rebracing.number_succ ho] at hbody
    rw [rebraced_block ho, check, check, hbody]
    cases checkAll s loops (n + 1) body with
    | error left | ok body' => simp only [Rebracing.checked, rebraced_block ho]
  | .whileDo c body braces span, h => by
    rw [flatten] at h
    have hbody := checkAll_rebraceAll hs (loops + 1) (n + 1) body h.2
    rw [Rebracing.number_succ ho] at hbody
    have hcondition : ((s.renumber ρ).site (ρ.number n)).checkCondition (c.renumber ρ) = _ := (s.stands hs ho).checkCondition c
    show (whileDo (c.renumber ρ) (rebraceAll ρ (n + 1) body) braces span).check _ _ _ = _
    rw [check, check, hcondition, hbody]
    cases (s.site n).checkCondition c with
    | error left => rfl
    | ok c' => cases checkAll s (loops + 1) (n + 1) body <;> rfl
  | .ifThen c body braces otherwise span, h => by
    rw [flatten, List.cons_append] at h
    obtain ⟨hb, he⟩ := Rebracing.fits_append.mp h.2
    rw [length_flattenAll] at he
    have hbody := checkAll_rebraceAll hs loops (n + 1) body hb
    have helse := checkElse_rebraceElse hs loops (n + 1 + sizes body) otherwise he
    have hsizes := sizes_of_map_isBlock (map_isBlock_checkAll s loops (n + 1) body)
    have hnumber := sizes_rebraceAll hb
    rw [Rebracing.number_succ ho] at hbody hnumber
    have hcondition : ((s.renumber ρ).site (ρ.number n)).checkCondition (c.renumber ρ) = _ := (s.stands hs ho).checkCondition c
    have hwhole (c : Expr) (body' : List Stmt) (hsizes : sizes body' = sizes body) (otherwise : Option Stmt) :
        (ifThen c body' braces otherwise span).rebraced ρ n = .ifThen (c.renumber ρ) (rebraceAll ρ (n + 1) body') braces
          (rebraceElse ρ (n + 1 + sizes body) otherwise) span := by
      rw [rebraced, rebrace, hsizes]
      rfl
    rw [hwhole c body rfl, check, check, hcondition, hbody, hnumber, helse]
    cases (s.site n).checkCondition c with
    | error left => simp only [Rebracing.checked, hwhole _ body rfl]
    | ok c' =>
      cases hc : checkAll s loops (n + 1) body with
      | error left =>
        rw [hc] at hsizes
        simp only [Rebracing.checked, hwhole _ left.2 hsizes]
      | ok body' =>
        rw [hc] at hsizes
        cases checkElse s loops (n + 1 + sizes body) otherwise with
        | error left | ok otherwise' => simp only [Rebracing.checked, hwhole _ body' hsizes]
  | .var _, _ | .label .., _ | .foreign _, _ => rfl

theorem checkElse_rebraceElse (hs : s.catalog.IsUnordered) (loops n : Nat) : (o : Option Stmt) → ρ.Fits n (flattenElse o) →
    checkElse (s.renumber ρ) loops (ρ.number n) (rebraceElse ρ n o)
      = ρ.checked (rebraceElse ρ n) (rebraceElse ρ n) (checkElse s loops n o)
  | some (.ifThen c body braces otherwise span), h =>
    checkElse_rebraceElse_of_isIf rfl
      ((ifThen c body braces otherwise span).check_rebraced hs loops n (h.not_opens rfl) h)
  | some (.block body span), h => by
    rw [flattenElse] at h
    rw [rebraceElse, checkElse, checkElse, checkAll_rebraceAll hs loops n body h]
    cases checkAll s loops n body <;> rfl
  | some (.var _), _ | some (.assign ..), _ | some (.call ..), _ | some (.whileDo ..), _ | some (.breakLoop _), _
  | some (.continueLoop _), _ | some (.label ..), _ | some (.goto ..), _ | some (.foreign _), _ | none, _ => rfl

theorem checkAll_rebraceAll (hs : s.catalog.IsUnordered) (loops n : Nat) : (ss : List Stmt) → ρ.Fits n (flattenAll ss) →
    checkAll (s.renumber ρ) loops (ρ.number n) (rebraceAll ρ n ss)
      = ρ.checked (rebraceAll ρ n) (rebraceAll ρ n) (checkAll s loops n ss)
  | [], _ => rfl
  | stmt :: rest, h => by
    rw [flattenAll] at h
    obtain ⟨hstmt, hrest⟩ := Rebracing.fits_append.mp h
    rw [length_flatten] at hrest
    refine checkAll_rebraceAll_cons hstmt ?_ (checkAll_rebraceAll hs loops _ rest hrest)
    cases ho : ρ.opens n with
    | false => exact isFollowed_of_rebraced ho (stmt.check_rebraced hs loops n ho hstmt)
    | true =>
      match stmt, hstmt with
      | .block body span, hstmt => exact isFollowed_of_opens ho (checkAll_rebraceAll hs loops (n + 1) body hstmt.2)
      | .var _, hstmt | .assign .., hstmt | .call .., hstmt | .ifThen .., hstmt | .whileDo .., hstmt | .breakLoop _, hstmt
      | .continueLoop _, hstmt | .label .., hstmt | .goto .., hstmt | .foreign _, hstmt => cases hstmt.1 ho

end

end Stmt

end FlatScope
