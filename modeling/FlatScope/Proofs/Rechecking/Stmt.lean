/-
  Checking statements twice. What a check leaves of a statement reads like the statement, counts as many statements and
  declares the same symbols (`Stmt.Keeps`), and is checked once more with the same outcome (`Stmt.isStable`).
-/
import FlatScope.Proofs.Rechecking.Expr
import FlatScope.Resolution.Body

namespace FlatScope

/-! ## Simple statements -/

namespace Site

variable {site : Site}

theorem checkTarget_again (target : Expr) :
    target.ReadsAs ((site.checkTarget target).after Prod.fst)
      ∧ site.checkTarget ((site.checkTarget target).after Prod.fst) = site.checkTarget target := by
  cases hroot : target.root.rootName with
  | error m =>
    have hcheck : site.checkTarget target = .error (.misplaced m, target) := by rw [checkTarget, hroot]
    rw [hcheck]
    exact ⟨.refl target, hcheck⟩
  | ok name =>
    cases hs : (site.lookup name).filter fun s => !s.kind.isStorage with
    | some s =>
      have hcheck : site.checkTarget target = .error (.at target.span (.notAssignable name s.kind), target) := by
        simp only [checkTarget, hroot, hs]
      rw [hcheck]
      exact ⟨.refl target, hcheck⟩
    | none =>
      have hcheck : ∀ e : Expr, e.root.rootName = .ok name → site.checkTarget e = e.check site none := by
        intro e he
        simp only [checkTarget, he, hs]
      have hkept := (target.isKept site).after none
      rw [hcheck target hroot, hcheck _ (hkept.rootName.trans hroot)]
      exact ⟨hkept.toReadsAs, (target.isStable site).again none⟩

theorem checkAssign_again (target value : Expr) (span : Span) :
    ∃ target' value', (site.checkAssign target value span).after id = .assign target' value' span
      ∧ target.ReadsAs target' ∧ value.ReadsAs value'
      ∧ site.checkAssign target' value' span = site.checkAssign target value span := by
  obtain ⟨hread, hagain⟩ := site.checkTarget_again target
  cases ht : site.checkTarget target with
  | error left =>
    rw [ht] at hread hagain
    simp only [Checked.after] at hread hagain
    refine ⟨left.2, value, ?_, hread, .refl value, ?_⟩ <;> simp [checkAssign, ht, hagain, Checked.after]
  | ok r =>
    obtain ⟨target', t⟩ := r
    rw [ht] at hread hagain
    simp only [Checked.after] at hread hagain
    have hvalue := ((value.isKept site).after (some t)).toReadsAs
    have hvalueAgain := (value.isStable site).again (some t)
    cases hv : value.check site (some t) with
    | error left =>
      rw [hv] at hvalue hvalueAgain
      simp only [Checked.after] at hvalue hvalueAgain
      refine ⟨target', left.2, ?_, hread, hvalue, ?_⟩ <;> simp [checkAssign, ht, hv, hagain, hvalueAgain, Checked.after]
    | ok r =>
      obtain ⟨value', u⟩ := r
      rw [hv] at hvalue hvalueAgain
      simp only [Checked.after] at hvalue hvalueAgain
      refine ⟨target', value', ?_, hread, hvalue, by simp [checkAssign, ht, hv, hagain, hvalueAgain]⟩
      by_cases hu : u = t <;> simp [checkAssign, ht, hv, hu, Checked.after]

theorem checkCall_again (e : Expr) (span : Span) :
    ∃ e', (site.checkCall e span).after id = .call e' span ∧ e.ReadsAs e'
      ∧ site.checkCall e' span = site.checkCall e span := by
  cases hcall : e.isCall with
  | false =>
    have hcheck : site.checkCall e span = .error (.misplaced (.noPart e.className "callee"), .call e span) := by
      cases e
      case call => cases hcall
      all_goals rfl
    rw [hcheck]
    exact ⟨e, rfl, .refl e, hcheck⟩
  | true =>
    have hcheck : ∀ e : Expr, e.isCall = true → site.checkCall e span
        = ((e.check site none).mapError fun left => (left.1, .call left.2 span)).map fun r => .call r.1 span := by
      intro e he
      cases e
      case call callee args info =>
        rw [checkCall]
        cases (Expr.call callee args info).check site none <;> rfl
      all_goals cases he
    have hkept := (e.isKept site).after none
    have hagain := (e.isStable site).again none
    have hcall' := hkept.isCall.trans hcall
    cases hc : e.check site none with
    | error left =>
      rw [hc] at hkept hagain hcall'
      simp only [Checked.after] at hkept hagain hcall'
      refine ⟨left.2, ?_, hkept.toReadsAs, ?_⟩
      · simp [hcheck e hcall, hc, Checked.after, Except.map, Except.mapError]
      · simp [hcheck e hcall, hcheck _ hcall', hc, hagain]
    | ok r =>
      rw [hc] at hkept hagain hcall'
      simp only [Checked.after] at hkept hagain hcall'
      refine ⟨r.1, ?_, hkept.toReadsAs, ?_⟩
      · simp [hcheck e hcall, hc, Checked.after, Except.map, Except.mapError]
      · simp [hcheck e hcall, hcheck _ hcall', hc, hagain]

theorem checkCondition_again (e : Expr) :
    e.ReadsAs ((site.checkCondition e).after id)
      ∧ site.checkCondition ((site.checkCondition e).after id) = site.checkCondition e := by
  have hkept := e.isKept site
  have hstable := e.isStable site
  cases hc : e.check site none with
  | error left =>
    have hafter := hkept.after none
    have hagain := hstable.again none
    rw [hc] at hafter hagain
    simp only [Checked.after] at hafter hagain
    simp [checkCondition, hc, hagain, hafter.toReadsAs, Checked.after]
  | ok r =>
    obtain ⟨e', t⟩ := r
    have hafter := hkept.after none
    have hagain := hstable.again none
    rw [hc] at hafter hagain
    simp only [Checked.after] at hafter hagain
    obtain ⟨hbehind, hleft⟩ := hstable.behind none e' t hc
    have hbehindRead := (hkept.behind none e' t hc).toReadsAs
    by_cases ht : t = .int
    · simp [checkCondition, hc, ht, ht ▸ hagain, hafter.toReadsAs, Checked.after]
    · simp [checkCondition, hc, ht, hbehind, hleft, hbehindRead, Checked.after]

end Site

/-! ## Reading the same -/

namespace Stmt

/-- Two statements declare the same, whatever their number is. -/
def DeclaresAs (s s' : Stmt) : Prop := ∀ c n, s'.symbol? c n = s.symbol? c n

/-- A statement reads like another one, counts as many statements, and declares the same symbols. -/
structure ReadsAs (s s' : Stmt) : Prop where
  size : s'.size = s.size
  lines : ∀ depth, s'.lines depth = s.lines depth
  placed : s.misplaced? = none → s'.misplaced? = none
  declares : List.Forall₂ DeclaresAs s.flatten s'.flatten

/-- The same of what stands behind `else`. -/
structure ElseRead (o o' : Option Stmt) : Prop where
  size : elseSize o' = elseSize o
  lines : ∀ depth, elseLines depth o' = elseLines depth o
  placed : misplacedElse? o = none → misplacedElse? o' = none
  declares : List.Forall₂ DeclaresAs (flattenElse o) (flattenElse o')

/-- The same of the statements of a body. -/
structure AllRead (ss ss' : List Stmt) : Prop where
  size : sizes ss' = sizes ss
  lines : ∀ depth, linesAll depth ss' = linesAll depth ss
  placed : misplacedAny? ss = none → misplacedAny? ss' = none
  declares : List.Forall₂ DeclaresAs (flattenAll ss) (flattenAll ss')

theorem forall₂_declaresAs (ss : List Stmt) : List.Forall₂ DeclaresAs ss ss :=
  List.forall₂_same.mpr fun _ _ _ _ => rfl

theorem forall₂_declaresAs_trans {ss ss' ss'' : List Stmt} (h : List.Forall₂ DeclaresAs ss ss')
    (h' : List.Forall₂ DeclaresAs ss' ss'') : List.Forall₂ DeclaresAs ss ss'' := by
  induction h generalizing ss'' with
  | nil => exact h'
  | cons hs _ ih =>
    cases h' with
    | cons hs' hrest => exact .cons (fun c n => (hs' c n).trans (hs c n)) (ih hrest)

theorem ReadsAs.refl (s : Stmt) : s.ReadsAs s := ⟨rfl, fun _ => rfl, id, forall₂_declaresAs _⟩

theorem ElseRead.refl (o : Option Stmt) : ElseRead o o := ⟨rfl, fun _ => rfl, id, forall₂_declaresAs _⟩

theorem AllRead.refl (ss : List Stmt) : AllRead ss ss := ⟨rfl, fun _ => rfl, id, forall₂_declaresAs _⟩

theorem AllRead.trans {ss ss' ss'' : List Stmt} (h : AllRead ss ss') (h' : AllRead ss' ss'') : AllRead ss ss'' where
  size := h'.size.trans h.size
  lines depth := (h'.lines depth).trans (h.lines depth)
  placed hm := h'.placed (h.placed hm)
  declares := forall₂_declaresAs_trans h.declares h'.declares

variable {c c' target target' value value' : Expr} {body body' : List Stmt} {o o' : Option Stmt} {braces : Braces}
  {span : Span}

theorem ReadsAs.assign (ht : target.ReadsAs target') (hv : value.ReadsAs value') :
    (Stmt.assign target value span).ReadsAs (.assign target' value' span) where
  size := rfl
  lines depth := by rw [Stmt.lines, Stmt.lines, ht.source, hv.source]
  placed h := orElse_none (ht.placed (orElse_eq_none_iff.mp h).1) (hv.placed (orElse_eq_none_iff.mp h).2)
  declares := .cons (fun _ _ => rfl) .nil

theorem ReadsAs.call (hc : c.ReadsAs c') : (Stmt.call c span).ReadsAs (.call c' span) where
  size := rfl
  lines depth := by rw [Stmt.lines, Stmt.lines, hc.source]
  placed := hc.placed
  declares := .cons (fun _ _ => rfl) .nil

theorem ReadsAs.goto (name : String) (number number' : Option Nat) :
    (Stmt.goto name number span).ReadsAs (.goto name number' span) :=
  ⟨rfl, fun _ => rfl, id, .cons (fun _ _ => rfl) .nil⟩

theorem ReadsAs.label (name : String) (number number' : Option Nat) :
    (Stmt.label name number span).ReadsAs (.label name number' span) :=
  ⟨rfl, fun _ => rfl, id, .cons (fun _ _ => rfl) .nil⟩

theorem ReadsAs.ifThen (hc : c.ReadsAs c') (hb : AllRead body body') (ho : ElseRead o o') :
    (Stmt.ifThen c body braces o span).ReadsAs (.ifThen c' body' braces o' span) where
  size := by rw [Stmt.size, Stmt.size, hb.size, ho.size]
  lines depth := by rw [Stmt.lines, Stmt.lines, hc.source, hb.lines, ho.lines]
  placed h := by
    obtain ⟨hm, h⟩ := orElse_eq_none_iff.mp h
    obtain ⟨hbraces, h⟩ := orElse_eq_none_iff.mp h
    obtain ⟨hbody, helse⟩ := orElse_eq_none_iff.mp h
    exact orElse_none (hc.placed hm) (orElse_none hbraces (orElse_none (hb.placed hbody) (ho.placed helse)))
  declares := .cons (fun _ _ => rfl) (List.rel_append hb.declares ho.declares)

theorem ReadsAs.whileDo (hc : c.ReadsAs c') (hb : AllRead body body') :
    (Stmt.whileDo c body braces span).ReadsAs (.whileDo c' body' braces span) where
  size := by rw [Stmt.size, Stmt.size, hb.size]
  lines depth := by rw [Stmt.lines, Stmt.lines, hc.source, hb.lines]
  placed h := by
    obtain ⟨hm, h⟩ := orElse_eq_none_iff.mp h
    obtain ⟨hbraces, hbody⟩ := orElse_eq_none_iff.mp h
    exact orElse_none (hc.placed hm) (orElse_none hbraces (hb.placed hbody))
  declares := .cons (fun _ _ => rfl) hb.declares

theorem ReadsAs.block (hb : AllRead body body') : (Stmt.block body span).ReadsAs (.block body' span) where
  size := by rw [Stmt.size, Stmt.size, hb.size]
  lines depth := by rw [Stmt.lines, Stmt.lines, hb.lines]
  placed := hb.placed
  declares := .cons (fun _ _ => rfl) hb.declares

theorem ElseRead.ifThen (hc : c.ReadsAs c') (hb : AllRead body body') (ho : ElseRead o o') :
    ElseRead (some (.ifThen c body braces o span)) (some (.ifThen c' body' braces o' span)) := by
  have hr : (Stmt.ifThen c body braces o span).ReadsAs (.ifThen c' body' braces o' span) := .ifThen hc hb ho
  refine ⟨hr.size, fun depth => ?_, hr.placed, hr.declares⟩
  rw [elseLines, elseLines, hc.source, hb.lines, ho.lines]

theorem ElseRead.block (hb : AllRead body body') :
    ElseRead (some (.block body span)) (some (.block body' span)) where
  size := hb.size
  lines depth := by rw [elseLines, elseLines, hb.lines]
  placed := hb.placed
  declares := hb.declares

theorem AllRead.cons {s s' : Stmt} {ss ss' : List Stmt} (hs : s.ReadsAs s') (hss : AllRead ss ss') :
    AllRead (s :: ss) (s' :: ss') where
  size := by rw [sizes, sizes, hs.size, hss.size]
  lines depth := by rw [linesAll, linesAll, hs.lines, hss.lines]
  placed h := orElse_none (hs.placed (orElse_eq_none_iff.mp h).1) (hss.placed (orElse_eq_none_iff.mp h).2)
  declares := List.rel_append hs.declares hss.declares

/-! ## Keeping the numbers of labels -/

/-- A statement reads like another one, with the numbers of labels written down if they are in the other. -/
structure Keeps (s s' : Stmt) : Prop extends ReadsAs s s' where
  numbered : ∀ bound n, s.number bound n = s → s'.number bound n = s'

structure ElseKeeps (o o' : Option Stmt) : Prop extends ElseRead o o' where
  numbered : ∀ bound n, numberElse bound n o = o → numberElse bound n o' = o'

structure AllKeep (ss ss' : List Stmt) : Prop extends AllRead ss ss' where
  numbered : ∀ bound n, numberAll bound n ss = ss → numberAll bound n ss' = ss'

theorem Keeps.refl (s : Stmt) : s.Keeps s := ⟨.refl s, fun _ _ h => h⟩

theorem ElseKeeps.refl (o : Option Stmt) : ElseKeeps o o := ⟨.refl o, fun _ _ h => h⟩

theorem AllKeep.refl (ss : List Stmt) : AllKeep ss ss := ⟨.refl ss, fun _ _ h => h⟩

theorem Keeps.ifThen (hc : c.ReadsAs c') (hb : AllKeep body body') (ho : ElseKeeps o o') :
    (Stmt.ifThen c body braces o span).Keeps (.ifThen c' body' braces o' span) where
  toReadsAs := .ifThen hc hb.toAllRead ho.toElseRead
  numbered bound n h := by
    obtain ⟨-, hbody, -, helse, -⟩ := ifThen.inj h
    rw [Stmt.number, hb.size, hb.numbered _ _ hbody, ho.numbered _ _ helse]

theorem Keeps.whileDo (hc : c.ReadsAs c') (hb : AllKeep body body') :
    (Stmt.whileDo c body braces span).Keeps (.whileDo c' body' braces span) where
  toReadsAs := .whileDo hc hb.toAllRead
  numbered bound n h := by
    obtain ⟨-, hbody, -, -⟩ := whileDo.inj h
    rw [Stmt.number, hb.numbered _ _ hbody]

theorem Keeps.block (hb : AllKeep body body') : (Stmt.block body span).Keeps (.block body' span) where
  toReadsAs := .block hb.toAllRead
  numbered bound n h := by
    obtain ⟨hbody, -⟩ := block.inj h
    rw [Stmt.number, hb.numbered _ _ hbody]

theorem ElseKeeps.ifThen (hc : c.ReadsAs c') (hb : AllKeep body body') (ho : ElseKeeps o o') :
    ElseKeeps (some (.ifThen c body braces o span)) (some (.ifThen c' body' braces o' span)) := by
  have hk : (Stmt.ifThen c body braces o span).Keeps (.ifThen c' body' braces o' span) := .ifThen hc hb ho
  refine ⟨.ifThen hc hb.toAllRead ho.toElseRead, fun bound n h => ?_⟩
  exact congrArg some (hk.numbered bound n (Option.some.inj h))

theorem ElseKeeps.block (hb : AllKeep body body') :
    ElseKeeps (some (.block body span)) (some (.block body' span)) where
  toElseRead := .block hb.toAllRead
  numbered bound n h := by
    obtain ⟨hbody, -⟩ := block.inj (Option.some.inj h)
    rw [numberElse, hb.numbered _ _ hbody]

theorem AllKeep.cons {s s' : Stmt} {ss ss' : List Stmt} (hs : s.Keeps s') (hss : AllKeep ss ss') :
    AllKeep (s :: ss) (s' :: ss') where
  toAllRead := .cons hs.toReadsAs hss.toAllRead
  numbered bound n h := by
    obtain ⟨hhead, htail⟩ := List.cons.inj h
    rw [numberAll, hs.size, hs.numbered _ _ hhead, hss.numbered _ _ htail]

/-! ## Writing down the numbers of labels -/

mutual

/-- A statement reads the same with the numbers of its labels. -/
theorem readsAs_number (bound n : Nat) : (s : Stmt) → s.ReadsAs (s.number bound n)
  | .label name number _ => .label name number _
  | .ifThen c body _ o _ => .ifThen (.refl c) (allRead_number bound _ body) (elseRead_number bound _ o)
  | .whileDo c body _ _ => .whileDo (.refl c) (allRead_number bound _ body)
  | .block body _ => .block (allRead_number bound _ body)
  | .var _ | .assign .. | .call .. | .breakLoop _ | .continueLoop _ | .goto .. | .foreign _ => .refl _

theorem elseRead_number (bound n : Nat) : (o : Option Stmt) → ElseRead o (numberElse bound n o)
  | some (.ifThen c body _ o _) => .ifThen (.refl c) (allRead_number bound _ body) (elseRead_number bound _ o)
  | some (.block body _) => .block (allRead_number bound _ body)
  | some (.var _) | some (.assign ..) | some (.call ..) | some (.whileDo ..) | some (.breakLoop _)
  | some (.continueLoop _) | some (.label ..) | some (.goto ..) | some (.foreign _) | none => .refl _

theorem allRead_number (bound n : Nat) : (ss : List Stmt) → AllRead ss (numberAll bound n ss)
  | [] => .refl []
  | s :: ss => .cons (readsAs_number bound n s) (allRead_number bound _ ss)

end

mutual

/-- The numbers of labels that are written down once are those that would be written down again. -/
theorem number_number (bound n : Nat) : (s : Stmt) → (s.number bound n).number bound n = s.number bound n
  | .label name index span => by
    rw [number, number]
    split <;> rfl
  | .ifThen c body braces o span => by
    rw [number, number, (allRead_number bound _ body).size, numberAll_numberAll bound _ body,
      numberElse_numberElse bound _ o]
  | .whileDo c body braces span => by rw [number, number, numberAll_numberAll bound _ body]
  | .block body span => by rw [number, number, numberAll_numberAll bound _ body]
  | .var _ | .assign .. | .call .. | .breakLoop _ | .continueLoop _ | .goto .. | .foreign _ => rfl

theorem numberElse_numberElse (bound n : Nat) : (o : Option Stmt) →
    numberElse bound n (numberElse bound n o) = numberElse bound n o
  | some (.ifThen c body braces o span) => by
    rw [numberElse, numberElse, (allRead_number bound _ body).size, numberAll_numberAll bound _ body,
      numberElse_numberElse bound _ o]
  | some (.block body span) => by rw [numberElse, numberElse, numberAll_numberAll bound _ body]
  | some (.var _) | some (.assign ..) | some (.call ..) | some (.whileDo ..) | some (.breakLoop _)
  | some (.continueLoop _) | some (.label ..) | some (.goto ..) | some (.foreign _) | none => rfl

theorem numberAll_numberAll (bound n : Nat) : (ss : List Stmt) →
    numberAll bound n (numberAll bound n ss) = numberAll bound n ss
  | [] => rfl
  | s :: ss => by
    rw [numberAll, numberAll, (readsAs_number bound n s).size, number_number bound n s,
      numberAll_numberAll bound _ ss]

end

/-! ## All statements -/

variable {s : Surroundings}

theorem checkGoto_again (label : String) (target : Option Nat) (span : Span) :
    ∃ target', (s.checkGoto label target span).after id = .goto label target' span
      ∧ s.checkGoto label target' span = s.checkGoto label target span := by
  unfold Surroundings.checkGoto
  cases s.catalog.label? label with
  | none => exact ⟨target, rfl, rfl⟩
  | some l => exact ⟨_, rfl, rfl⟩

/-- A statement is kept by every check of it, and checked with the same outcome once more. -/
structure IsStable (s : Surroundings) (stmt : Stmt) : Prop where
  keeps : ∀ loops n, stmt.Keeps ((stmt.check s loops n).after id)
  again : ∀ loops n, ((stmt.check s loops n).after id).check s loops n = stmt.check s loops n

structure ElseStable (s : Surroundings) (o : Option Stmt) : Prop where
  keeps : ∀ loops n, ElseKeeps o ((checkElse s loops n o).after id)
  again : ∀ loops n, checkElse s loops n ((checkElse s loops n o).after id) = checkElse s loops n o

structure AllStable (s : Surroundings) (ss : List Stmt) : Prop where
  keeps : ∀ loops n, AllKeep ss ((checkAll s loops n ss).after id)
  again : ∀ loops n, checkAll s loops n ((checkAll s loops n ss).after id) = checkAll s loops n ss

theorem isStable_assign (target value : Expr) (span : Span) : (assign target value span).IsStable s := by
  refine ⟨fun loops n => ?_, fun loops n => ?_⟩
  all_goals
    obtain ⟨target', value', hafter, htarget, hvalue, hagain⟩ := (s.site n).checkAssign_again target value span
    rw [check, hafter]
  · exact ⟨.assign htarget hvalue, fun _ _ _ => rfl⟩
  · rw [check, hagain]

theorem isStable_call (e : Expr) (span : Span) : (call e span).IsStable s := by
  refine ⟨fun loops n => ?_, fun loops n => ?_⟩
  all_goals
    obtain ⟨e', hafter, hread, hagain⟩ := (s.site n).checkCall_again e span
    rw [check, hafter]
  · exact ⟨.call hread, fun _ _ _ => rfl⟩
  · rw [check, hagain]

theorem isStable_goto (label : String) (target : Option Nat) (span : Span) : (goto label target span).IsStable s := by
  refine ⟨fun loops n => ?_, fun loops n => ?_⟩
  all_goals
    obtain ⟨target', hafter, hagain⟩ := checkGoto_again (s := s) label target span
    rw [check, hafter]
  · exact ⟨.goto label target target', fun _ _ _ => rfl⟩
  · rw [check, hagain]

/-- What is left of a conditional statement is one, with what is left of its parts. -/
theorem AllStable.ifThen (hb : AllStable s body) (ho : ElseStable s o) (c : Expr) (braces : Braces) (span : Span)
    (loops n : Nat) : ∃ c' body' o', ((Stmt.ifThen c body braces o span).check s loops n).after id = .ifThen c' body' braces o' span
      ∧ c.ReadsAs c' ∧ AllKeep body body' ∧ ElseKeeps o o'
      ∧ (Stmt.ifThen c' body' braces o' span).check s loops n = (Stmt.ifThen c body braces o span).check s loops n := by
  obtain ⟨hread, hagain⟩ := (s.site n).checkCondition_again c
  cases hc : (s.site n).checkCondition c with
  | error left =>
    rw [hc] at hread hagain
    simp only [Checked.after] at hread hagain
    refine ⟨left.2, body, o, ?_, hread, .refl body, .refl o, ?_⟩ <;> simp [check, hc, hagain, Checked.after]
  | ok c' =>
    rw [hc] at hread hagain
    simp only [Checked.after, id] at hread hagain
    have hkeeps := hb.keeps loops (n + 1)
    have hbody := hb.again loops (n + 1)
    cases hcheck : checkAll s loops (n + 1) body with
    | error left =>
      rw [hcheck] at hkeeps hbody
      simp only [Checked.after] at hkeeps hbody
      refine ⟨c', left.2, o, ?_, hread, hkeeps, .refl o, ?_⟩ <;> simp [check, hc, hagain, hcheck, hbody, Checked.after]
    | ok body' =>
      rw [hcheck] at hkeeps hbody
      simp only [Checked.after, id] at hkeeps hbody
      have hother := ho.keeps loops (n + 1 + sizes body)
      have helse := ho.again loops (n + 1 + sizes body)
      cases hcheckElse : checkElse s loops (n + 1 + sizes body) o with
      | error left =>
        rw [hcheckElse] at hother helse
        simp only [Checked.after] at hother helse
        refine ⟨c', body', left.2, ?_, hread, hkeeps, hother, ?_⟩ <;>
          simp [check, hc, hagain, hcheck, hbody, hkeeps.size, hcheckElse, helse, Checked.after]
      | ok o' =>
        rw [hcheckElse] at hother helse
        simp only [Checked.after, id] at hother helse
        refine ⟨c', body', o', ?_, hread, hkeeps, hother, ?_⟩ <;>
          simp [check, hc, hagain, hcheck, hbody, hkeeps.size, hcheckElse, helse, Checked.after]

theorem AllStable.whileDo (hb : AllStable s body) (c : Expr) (braces : Braces) (span : Span) :
    (Stmt.whileDo c body braces span).IsStable s := by
  have hparts : ∀ loops n, ∃ c' body', ((Stmt.whileDo c body braces span).check s loops n).after id = .whileDo c' body' braces span
      ∧ c.ReadsAs c' ∧ AllKeep body body'
      ∧ (Stmt.whileDo c' body' braces span).check s loops n = (Stmt.whileDo c body braces span).check s loops n := by
    intro loops n
    obtain ⟨hread, hagain⟩ := (s.site n).checkCondition_again c
    cases hc : (s.site n).checkCondition c with
    | error left =>
      rw [hc] at hread hagain
      simp only [Checked.after] at hread hagain
      refine ⟨left.2, body, ?_, hread, .refl body, ?_⟩ <;> simp [check, hc, hagain, Checked.after]
    | ok c' =>
      rw [hc] at hread hagain
      simp only [Checked.after, id] at hread hagain
      have hkeeps := hb.keeps (loops + 1) (n + 1)
      have hbody := hb.again (loops + 1) (n + 1)
      cases hcheck : checkAll s (loops + 1) (n + 1) body with
      | error left =>
        rw [hcheck] at hkeeps hbody
        simp only [Checked.after] at hkeeps hbody
        refine ⟨c', left.2, ?_, hread, hkeeps, ?_⟩ <;> simp [check, hc, hagain, hcheck, hbody, Checked.after]
      | ok body' =>
        rw [hcheck] at hkeeps hbody
        simp only [Checked.after, id] at hkeeps hbody
        refine ⟨c', body', ?_, hread, hkeeps, ?_⟩ <;> simp [check, hc, hagain, hcheck, hbody, Checked.after]
  refine ⟨fun loops n => ?_, fun loops n => ?_⟩
  all_goals
    obtain ⟨c', body', hafter, hread, hkeeps, hagain⟩ := hparts loops n
    rw [hafter]
  · exact .whileDo hread hkeeps
  · exact hagain

theorem AllStable.block (hb : AllStable s body) (span : Span) : (Stmt.block body span).IsStable s := by
  refine ⟨fun loops n => ?_, fun loops n => ?_⟩
  all_goals
    have hkeeps := hb.keeps loops (n + 1)
    have hbody := hb.again loops (n + 1)
    rw [check]
    cases hcheck : checkAll s loops (n + 1) body
    all_goals
      rw [hcheck] at hkeeps hbody
      simp only [Checked.after, id] at hkeeps hbody
  · exact .block hkeeps
  · exact .block hkeeps
  · simp [Checked.after, check, hbody]
  · simp [Checked.after, check, hbody]

theorem AllStable.elseBlock (hb : AllStable s body) (span : Span) : ElseStable s (some (.block body span)) := by
  refine ⟨fun loops n => ?_, fun loops n => ?_⟩
  all_goals
    have hkeeps := hb.keeps loops n
    have hbody := hb.again loops n
    rw [checkElse]
    cases hcheck : checkAll s loops n body
    all_goals
      rw [hcheck] at hkeeps hbody
      simp only [Checked.after, id] at hkeeps hbody
  · exact .block hkeeps
  · exact .block hkeeps
  · simp [Checked.after, checkElse, hbody]
  · simp [Checked.after, checkElse, hbody]

theorem AllStable.elseIf (hb : AllStable s body) (ho : ElseStable s o) (c : Expr) (braces : Braces) (span : Span) :
    ElseStable s (some (.ifThen c body braces o span)) := by
  refine ⟨fun loops n => ?_, fun loops n => ?_⟩
  all_goals
    obtain ⟨c', body', o', hafter, hread, hbody, hother, hagain⟩ := hb.ifThen ho c braces span loops n
    have hsome : (checkElse s loops n (some (.ifThen c body braces o span))).after id
        = some (.ifThen c' body' braces o' span) := by
      rw [← hafter, checkElse_of_isIf rfl]
      cases (Stmt.ifThen c body braces o span).check s loops n <;> rfl
    rw [hsome]
  · exact .ifThen hread hbody hother
  · rw [checkElse_of_isIf rfl, checkElse_of_isIf rfl, hagain]

theorem AllStable.cons {stmt : Stmt} {rest : List Stmt} (hs : stmt.IsStable s) (hr : AllStable s rest) :
    AllStable s (stmt :: rest) := by
  refine ⟨fun loops n => ?_, fun loops n => ?_⟩
  all_goals
    have hkeeps := hs.keeps loops n
    have hagain := hs.again loops n
    have hrest := hr.keeps loops (n + stmt.size)
    have hrestAgain := hr.again loops (n + stmt.size)
    rw [checkAll]
    cases hcheck : stmt.check s loops n
    all_goals
      rw [hcheck] at hkeeps hagain
      simp only [Checked.after, id] at hkeeps hagain
  · exact .cons hkeeps (.refl rest)
  · cases hall : checkAll s loops (n + stmt.size) rest
    all_goals
      rw [hall] at hrest
      exact .cons hkeeps hrest
  · simp [Checked.after, checkAll, hagain]
  · cases hall : checkAll s loops (n + stmt.size) rest
    all_goals
      rw [hall] at hrestAgain
      simp only [Checked.after, id] at hrestAgain
      simp [Checked.after, checkAll, hagain, hkeeps.size, hrestAgain]

mutual

/-- A statement is kept by a check and checked with the same outcome once more. -/
theorem isStable (s : Surroundings) : (stmt : Stmt) → stmt.IsStable s
  | .assign target value span => isStable_assign target value span
  | .call e span => isStable_call e span
  | .goto name target span => isStable_goto name target span
  | .ifThen c body braces o span => by
    refine ⟨fun loops n => ?_, fun loops n => ?_⟩
    all_goals
      obtain ⟨c', body', o', hafter, hread, hbody, hother, hagain⟩ :=
        (allStable s body).ifThen (elseStable s o) c braces span loops n
      rw [hafter]
    · exact .ifThen hread hbody hother
    · exact hagain
  | .whileDo c body braces span => (allStable s body).whileDo c braces span
  | .block body span => (allStable s body).block span
  | .breakLoop span | .continueLoop span => by
    refine ⟨fun loops n => ?_, fun loops n => ?_⟩
    all_goals
      rw [check]
      split
    · exact .refl _
    · exact .refl _
    · simp [Checked.after, check, *]
    · simp [Checked.after, check, *]
  | .var d => ⟨fun _ _ => .refl (.var d), fun _ _ => rfl⟩
  | .label name index span => ⟨fun _ _ => .refl (.label name index span), fun _ _ => rfl⟩
  | .foreign node => ⟨fun _ _ => .refl (.foreign node), fun _ _ => rfl⟩

theorem elseStable (s : Surroundings) : (o : Option Stmt) → ElseStable s o
  | some (.ifThen c body braces o span) => (allStable s body).elseIf (elseStable s o) c braces span
  | some (.block body span) => (allStable s body).elseBlock span
  | none => ⟨fun _ _ => .refl none, fun _ _ => rfl⟩
  | some (.var _) | some (.assign ..) | some (.call ..) | some (.whileDo ..) | some (.breakLoop _)
  | some (.continueLoop _) | some (.label ..) | some (.goto ..) | some (.foreign _) =>
    ⟨fun _ _ => .refl _, fun _ _ => rfl⟩

theorem allStable (s : Surroundings) : (ss : List Stmt) → AllStable s ss
  | [] => ⟨fun _ _ => .refl [], fun _ _ => rfl⟩
  | stmt :: rest => .cons (stmt.isStable s) (allStable s rest)

end

end Stmt

end FlatScope
