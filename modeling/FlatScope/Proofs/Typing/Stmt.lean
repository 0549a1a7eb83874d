/-
  Statements are checked as the rules say. With the numbers of the statements and the count of the loops around them
  as the check carries them along, the check of a statement succeeds exactly if the statement is in order
  (`Stmt.check_iff`).
-/
import FlatScope.Proofs.Typing.Expr
import FlatScope.Resolution.Stmt

namespace FlatScope

namespace Site

variable {site : Site}

/-! ## Assignments -/

/-- What has a type and a name at its root can be assigned to if the name means something stored. -/
theorem isAssignable_of_root (h : site.IsDistinct) {name : String}
    (hs : (site.lookup name).filter (fun s => !s.kind.isStorage) = none) : (e : Expr) → {t : Ty} →
    site.context.HasType site.index e t → e.root.rootName = .ok name → site.context.IsAssignable site.index e
  | .ident name' symbol info, t, ht, hn => by
    obtain rfl := Except.ok.inj hn
    cases ht with
    | @ident _ _ _ s _ hm hk _ =>
      rw [(lookup_eq_some_iff h).mpr hm, Option.filter_some] at hs
      refine ⟨s, hm, ?_⟩
      by_contra hne
      rw [if_pos (by rw [Bool.eq_false_iff.mpr hne]; rfl)] at hs
      cases hs
  | .index b i info, t, ht, hn => by
    have hb : ∃ u, site.context.HasType site.index b u := by
      cases ht with
      | ofArray hb _ => exact ⟨_, hb⟩
      | ofPointer hb _ => exact ⟨_, hb⟩
      | ofStruct hb _ _ => exact ⟨_, hb⟩
    exact isAssignable_of_root h hs b hb.choose_spec hn
  | .field b name' info, t, ht, hn => by
    cases ht with
    | field hb _ _ => exact isAssignable_of_root h hs b hb hn
  | .foreign node, t, ht, _ => nomatch ht
  | .int .., _, _, hn | .real .., _, _, hn | .byte .., _, _, hn | .call .., _, _, hn | .composite .., _, _, hn
  | .addrOf .., _, _, hn | .typeArg .., _, _, hn => nomatch hn

theorem exists_root : (e : Expr) → site.context.IsAssignable site.index e →
    ∃ name s, e.root.rootName = .ok name ∧ site.context.Means site.index name s ∧ s.kind.isStorage = true
  | .ident name _ _, ⟨s, hm, hk⟩ => ⟨name, s, rfl, hm, hk⟩
  | .index b _ _, h => exists_root b h
  | .field b _ _, h => exists_root b h
  | .int .., h | .real .., h | .byte .., h | .call .., h | .composite .., h | .addrOf .., h | .typeArg .., h
  | .foreign _, h => h.elim

/-- A target is checked with success if it can be assigned to and has a type. -/
theorem checkTarget_iff (h : site.IsDistinct) {e : Expr} {t : Ty} : (∃ e', site.checkTarget e = .ok (e', t)) ↔
    site.context.IsAssignable site.index e ∧ site.context.HasType site.index e t := by
  have hd := e.isDecided h
  constructor
  · rintro ⟨e', hc⟩
    unfold checkTarget at hc
    split at hc
    · cases hc
    · rename_i name hn
      split at hc
      · cases hc
      · rename_i hs
        have ht := hd.hasType hc
        exact ⟨isAssignable_of_root h hs e ht hn, ht⟩
  · rintro ⟨ha, ht⟩
    obtain ⟨name, s, hn, hm, hk⟩ := exists_root e ha
    obtain ⟨e', hc⟩ := hd.check_of_hasType none ht
    refine ⟨e', ?_⟩
    rw [checkTarget, hn]
    simp only [(lookup_eq_some_iff h).mpr hm, Option.filter_some, hk]
    exact hc

theorem checkAssign_iff (h : site.IsDistinct) {target value : Expr} {span : Span} :
    (∃ s, site.checkAssign target value span = .ok s) ↔ site.context.IsAssignable site.index target
      ∧ ∃ t, site.context.HasType site.index target t ∧ site.context.Conforms site.index value t := by
  have hd := value.isDecided h
  have hfits : ∀ {t}, site.Fits (some t) value t ↔ site.context.Conforms site.index value t :=
    ⟨fun hf => hf.elim .value And.right, fun hc => .inr ⟨rfl, hc⟩⟩
  constructor
  · rintro ⟨s, hc⟩
    unfold checkAssign at hc
    split at hc
    · cases hc
    · rename_i target' t htarget
      obtain ⟨ha, ht⟩ := (checkTarget_iff h).mp ⟨target', htarget⟩
      split at hc
      · cases hc
      · rename_i value' u hvalue
        split at hc
        · rename_i hu
          subst hu
          exact ⟨ha, u, ht, hfits.mp (hd.sound hvalue).1⟩
        · cases hc
  · rintro ⟨ha, t, ht, hv⟩
    obtain ⟨target', htarget⟩ := (checkTarget_iff h).mpr ⟨ha, ht⟩
    obtain ⟨value', hvalue⟩ := hd.complete (hfits.mpr hv)
    rw [checkAssign, htarget]
    simp only [hvalue, if_true]
    exact ⟨_, rfl⟩

/-! ## Calls and conditions -/

theorem checkCall_iff (h : site.IsDistinct) {e : Expr} {span : Span} : (∃ s, site.checkCall e span = .ok s) ↔
    e.isCall = true ∧ ∃ t, site.context.HasType site.index e t := by
  have hd := e.isDecided h
  constructor
  · rintro ⟨s, hc⟩
    unfold checkCall at hc
    split at hc
    · split at hc
      · cases hc
      · rename_i e' t hcheck
        exact ⟨rfl, t, hd.hasType hcheck⟩
    · cases hc
  · rintro ⟨hcall, t, ht⟩
    cases e
    case call callee args info =>
      obtain ⟨e', hc⟩ := hd.check_of_hasType none ht
      rw [checkCall, hc]
      exact ⟨_, rfl⟩
    all_goals cases hcall

theorem checkCondition_iff (h : site.IsDistinct) {e : Expr} : (∃ e', site.checkCondition e = .ok e') ↔
    site.context.HasType site.index e .int := by
  have hd := e.isDecided h
  constructor
  · rintro ⟨e', hc⟩
    unfold checkCondition at hc
    split at hc
    · cases hc
    · rename_i e'' t hcheck
      split at hc
      · rename_i ht
        subst ht
        exact hd.hasType hcheck
      · cases hc
  · intro ht
    obtain ⟨e', hc⟩ := hd.check_of_hasType none ht
    rw [checkCondition, hc]
    exact ⟨_, if_pos rfl⟩

end Site

namespace Surroundings

variable {s : Surroundings}

/-- The context of the statements of a function. -/
def context (s : Surroundings) : Context := s.catalog.context s.builtins

theorem checkGoto_iff (h : s.catalog.IsDistinct) {name : String} {target : Option Nat} {span : Span} :
    (∃ stmt, s.checkGoto name target span = .ok stmt) ↔ ∃ l ∈ s.context.locals, l.name = name ∧ l.kind = .label := by
  have hlabel : ∀ l, s.catalog.label? name = some l ↔ l ∈ s.context.locals ∧ l.name = name ∧ l.kind = .label := by
    intro l
    rw [Catalog.label?, Catalog.get?_locals, Option.filter_eq_some_iff, Symbol.find?_eq_some_iff h, decide_eq_true_eq,
      and_assoc]
    rfl
  rw [checkGoto]
  constructor
  · rintro ⟨stmt, hc⟩
    split at hc
    · cases hc
    · rename_i l hl
      exact ⟨l, (hlabel l).mp hl⟩
  · rintro ⟨l, hl⟩
    rw [(hlabel l).mpr hl]
    exact ⟨_, rfl⟩

end Surroundings

/-! ## All statements -/

namespace Stmt

variable {s : Surroundings}

theorem isDistinct_site (h : s.catalog.IsDistinct) (n : Nat) : (s.site n).IsDistinct := h

mutual

/-- A statement is checked with success if it is in order. -/
theorem check_iff (h : s.catalog.IsDistinct) (loops n : Nat) : (stmt : Stmt) →
    ((∃ stmt', stmt.check s loops n = .ok stmt') ↔ stmt.IsTyped s.context (decide (loops ≠ 0)) n)
  | .var d => iff_of_true ⟨_, rfl⟩ trivial
  | .label name index span => iff_of_true ⟨_, rfl⟩ trivial
  | .assign target value span => Site.checkAssign_iff (isDistinct_site h n)
  | .call e span => Site.checkCall_iff (isDistinct_site h n)
  | .ifThen c body braces otherwise span => by
    have hc : (∃ c', (s.site n).checkCondition c = .ok c') ↔ s.context.HasType n c .int :=
      Site.checkCondition_iff (isDistinct_site h n)
    have hbody := checkAll_iff h loops (n + 1) body
    have helse := checkElse_iff h loops (n + 1 + sizes body) otherwise
    rw [check, IsTyped, ← hc, ← hbody, ← helse]
    constructor
    · rintro ⟨_, hk⟩
      split at hk
      · cases hk
      · rename_i c' hc'
        split at hk
        · cases hk
        · rename_i body' hb'
          split at hk
          · cases hk
          · rename_i o' ho'
            exact ⟨⟨c', hc'⟩, ⟨body', hb'⟩, o', ho'⟩
    · rintro ⟨⟨c', hc'⟩, ⟨body', hb'⟩, o', ho'⟩
      rw [hc']
      simp only [hb', ho']
      exact ⟨_, rfl⟩
  | .whileDo c body braces span => by
    have hc : (∃ c', (s.site n).checkCondition c = .ok c') ↔ s.context.HasType n c .int :=
      Site.checkCondition_iff (isDistinct_site h n)
    have hbody := checkAll_iff h (loops + 1) (n + 1) body
    rw [decide_eq_true (Nat.succ_ne_zero loops)] at hbody
    rw [check, IsTyped, ← hc, ← hbody]
    constructor
    · rintro ⟨_, hk⟩
      split at hk
      · cases hk
      · rename_i c' hc'
        split at hk
        · cases hk
        · rename_i body' hb'
          exact ⟨⟨c', hc'⟩, body', hb'⟩
    · rintro ⟨⟨c', hc'⟩, body', hb'⟩
      rw [hc']
      simp only [hb']
      exact ⟨_, rfl⟩
  | .breakLoop span | .continueLoop span => by
    rw [check, IsTyped, decide_eq_true_eq]
    split
    · exact iff_of_false (fun ⟨_, he⟩ => nomatch he) (absurd ‹_›)
    · exact iff_of_true ⟨_, rfl⟩ ‹_›
  | .goto name target span => Surroundings.checkGoto_iff h
  | .block body span => by
    have hbody := checkAll_iff h loops (n + 1) body
    rw [check, IsTyped, ← hbody]
    constructor
    · rintro ⟨_, hk⟩
      split at hk
      · cases hk
      · rename_i body' hb'
        exact ⟨body', hb'⟩
    · rintro ⟨body', hb'⟩
      rw [hb']
      exact ⟨_, rfl⟩
  | .foreign node => iff_of_false (fun ⟨_, he⟩ => nomatch he) id

theorem checkElse_iff (h : s.catalog.IsDistinct) (loops n : Nat) : (o : Option Stmt) →
    ((∃ o', checkElse s loops n o = .ok o') ↔ ElseTyped s.context (decide (loops ≠ 0)) n o)
  | none => iff_of_true ⟨_, rfl⟩ trivial
  | some (.block body span) => by
    have hbody := checkAll_iff h loops n body
    rw [checkElse, ElseTyped, ← hbody]
    constructor
    · rintro ⟨_, hk⟩
      split at hk
      · cases hk
      · rename_i body' hb'
        exact ⟨body', hb'⟩
    · rintro ⟨body', hb'⟩
      rw [hb']
      exact ⟨_, rfl⟩
  | some (.ifThen c body braces otherwise span) => by
    have hif := check_iff h loops n (.ifThen c body braces otherwise span)
    rw [IsTyped] at hif
    rw [checkElse_of_isIf rfl, ElseTyped, ← hif]
    constructor
    · rintro ⟨_, hk⟩
      split at hk
      · cases hk
      · rename_i branch hbranch
        exact ⟨branch, hbranch⟩
    · rintro ⟨branch, hbranch⟩
      rw [hbranch]
      exact ⟨_, rfl⟩
  | some (.var _) | some (.assign ..) | some (.call ..) | some (.whileDo ..) | some (.breakLoop _)
  | some (.continueLoop _) | some (.label ..) | some (.goto ..) | some (.foreign _) =>
    iff_of_false (fun ⟨_, he⟩ => nomatch he) id

theorem checkAll_iff (h : s.catalog.IsDistinct) (loops n : Nat) : (ss : List Stmt) →
    ((∃ ss', checkAll s loops n ss = .ok ss') ↔ AreTyped s.context (decide (loops ≠ 0)) n ss)
  | [] => iff_of_true ⟨_, rfl⟩ trivial
  | stmt :: ss => by
    have hs := check_iff h loops n stmt
    have hss := checkAll_iff h loops (n + stmt.size) ss
    rw [checkAll, AreTyped, ← hs, ← hss]
    constructor
    · rintro ⟨_, hk⟩
      split at hk
      · cases hk
      · rename_i stmt' hs'
        split at hk
        · cases hk
        · rename_i ss' hss'
          exact ⟨⟨stmt', hs'⟩, ss', hss'⟩
    · rintro ⟨⟨stmt', hs'⟩, ss', hss'⟩
      rw [hs']
      simp only [hss']
      exact ⟨_, rfl⟩

end

end Stmt

end FlatScope
