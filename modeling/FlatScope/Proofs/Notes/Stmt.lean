/-
  Bodies have sound notes. Statements without notes are settled by their check (`Stmt.settles_checkAll`): everything in
  them is, and what they assign or test is a value, so that only a call that stands on its own can be `void`
  (`Stmt.IsSettled`). The symbols of a function have types that values can have, and so the work on a body leaves sound notes
  behind wherever it ends (`FuncDecl.isSound_work`).
-/
import FlatScope.Proofs.Notes.Expr
import FlatScope.Proofs.Resolution.Body

namespace FlatScope

/-! ## Statements -/

namespace Stmt

/-- The expressions of a statement whose values it uses: all but a call that stands on its own. -/
def values : Stmt → List Expr
  | .call _ _ => []
  | s => s.exprs

/-- The notes in a statement are sound, not counting the statements inside it. -/
def IsNoted (V : Ty → Prop) (structs : List StructInfo) (s : Stmt) : Prop := ∀ e ∈ s.exprs, ∀ x ∈ e.parts, x.IsSound V structs

/-- A statement is in order, not counting the statements inside it. -/
structure IsSettled (V : Ty → Prop) (structs : List StructInfo) (s : Stmt) : Prop where
  settled : ∀ e ∈ s.exprs, ∀ x ∈ e.parts, x.IsSettled V structs
  valued : ∀ e ∈ s.values, e.IsValued V
  noted : ∀ e ∈ s.exprs, e.info.ty.isSome = true

/-- A statement has no notes in its expressions, not counting the statements inside it. -/
def IsBlank (s : Stmt) : Prop := ∀ e ∈ s.exprs, ∀ x ∈ e.parts, x.IsBlank

variable {V : Ty → Prop} {structs : List StructInfo} {s : Stmt}

theorem IsSettled.isNoted (h : s.IsSettled V structs) : s.IsNoted V structs := fun e he x hx => (h.settled e he x hx).sound

theorem IsBlank.isNoted (h : s.IsBlank) : s.IsNoted V structs := fun e he x hx => (h e he x hx).isSound

theorem isNoted_of_exprs (h : s.exprs = []) : s.IsNoted V structs := by
  intro e he
  rw [h] at he
  cases he

theorem isSettled_of_exprs (h : s.exprs = []) : s.IsSettled V structs := by
  have hvalues : s.values = [] := by
    cases s <;> first | exact h | rfl
  refine ⟨?_, ?_, ?_⟩
  · rw [h]
    exact nofun
  · rw [hvalues]
    exact nofun
  · rw [h]
    exact nofun

/-- The notes that a check makes in statements are sound, and the statements are settled if it does not halt. -/
abbrev Settles {α : Type} (V : Ty → Prop) (structs : List StructInfo) (flatten : α → List Stmt) (checked : Checked α α) : Prop :=
  Meets (fun left => left.1.IsPlain V ∧ ∀ s ∈ flatten left.2, s.IsNoted V structs) (fun a => ∀ s ∈ flatten a, s.IsSettled V structs)
    checked

end Stmt

namespace Site

variable {V : Ty → Prop} {site : Site} (h : site.IsSound V)
include h

/-- The target of an assignment is settled, and has a type that values can have: a call is no target. -/
theorem IsSound.meets_checkTarget {e : Expr} (he : ∀ x ∈ e.parts, x.IsBlank) :
    Meets (fun left => IsLeft V site.catalog.structs left.1 left.2.parts)
      (fun r => e.IsFound V site.catalog.structs r.1 r.2 ∧ V r.2) (site.checkTarget e) := by
  have hleft : ∀ x ∈ e.parts, x.IsSound V site.catalog.structs := fun x hx => (he x hx).isSound
  unfold checkTarget
  split
  · exact ⟨trivial, hleft⟩
  · rename_i name hroot
    split
    · exact ⟨Halt.isPlain_at (.notAssignable name _) (.of_kind rfl rfl), hleft⟩
    · refine (Expr.meets_check h e he none (by rintro _ ⟨⟩)).imp (fun _ hleft => hleft) fun r hfound => ⟨hfound, ?_⟩
      refine hfound.value.resolve_right fun hv => ?_
      cases e with
      | call _ _ _ => cases hroot
      | int _ _ | real _ _ | byte _ _ | ident _ _ _ | index _ _ _ | field _ _ _ | composite _ _ | addrOf _ _ | typeArg _ _
      | foreign _ => cases hv.2.1

theorem IsSound.settles_checkAssign {target value : Expr} (htarget : ∀ x ∈ target.parts, x.IsBlank)
    (hvalue : ∀ x ∈ value.parts, x.IsBlank) (span : Span) :
    Stmt.Settles V site.catalog.structs Stmt.flatten (site.checkAssign target value span) := by
  have hnoted {t v : Expr} (ht : ∀ x ∈ t.parts, x.IsSound V site.catalog.structs)
      (hv : ∀ x ∈ v.parts, x.IsSound V site.catalog.structs) :
      ∀ s ∈ (Stmt.assign t v span).flatten, s.IsNoted V site.catalog.structs :=
    List.forall_mem_singleton.mpr (List.forall_mem_cons.mpr ⟨ht, List.forall_mem_singleton.mpr hv⟩)
  have hvalueSound (x : Expr) (hx : x ∈ value.parts) : x.IsSound V site.catalog.structs := (hvalue x hx).isSound
  have htargetCheck := h.meets_checkTarget htarget
  unfold checkAssign
  cases ht : site.checkTarget target with
  | error left => exact ⟨(htargetCheck.of_error ht).1, hnoted (htargetCheck.of_error ht).2 hvalueSound⟩
  | ok r =>
    obtain ⟨target', t⟩ := r
    obtain ⟨htarget', hwf⟩ := htargetCheck.of_ok ht
    have htargetSound (x : Expr) (hx : x ∈ target'.parts) : x.IsSound V site.catalog.structs := (htarget'.settled x hx).sound
    have hvalueCheck := Expr.meets_check h value hvalue (some t) fun u hu => by
      obtain rfl := Option.some.inj hu
      exact hwf
    dsimp only
    cases hv : value.check site (some t) with
    | error left => exact ⟨(hvalueCheck.of_error hv).1, hnoted htargetSound (hvalueCheck.of_error hv).2⟩
    | ok r =>
      obtain ⟨value', u⟩ := r
      have hvalue' := hvalueCheck.of_ok hv
      dsimp only
      split
      · rename_i hu
        subst hu
        have hsettled : (Stmt.assign target' value' span).IsSettled V site.catalog.structs :=
          { settled := List.forall_mem_cons.mpr ⟨htarget'.settled, List.forall_mem_singleton.mpr hvalue'.settled⟩
            valued := List.forall_mem_cons.mpr
              ⟨⟨_, htarget'.noted, hwf⟩, List.forall_mem_singleton.mpr ⟨_, hvalue'.noted, hwf⟩⟩
            noted := List.forall_mem_cons.mpr
              ⟨by rw [htarget'.noted]; rfl, List.forall_mem_singleton.mpr (by rw [hvalue'.noted]; rfl)⟩ }
        exact List.forall_mem_singleton.mpr hsettled
      · rename_i hne
        exact ⟨Halt.isPlain_at (.assignedType u t)
            (.of_types nofun rfl (Ne.symm hne) (.inl hwf) (hvalue'.value.imp_right And.left)),
          hnoted htargetSound fun x hx => (hvalue'.settled x hx).sound⟩

theorem IsSound.settles_checkCall {e : Expr} (he : ∀ x ∈ e.parts, x.IsBlank) (span : Span) :
    Stmt.Settles V site.catalog.structs Stmt.flatten (site.checkCall e span) := by
  have hnoted {c : Expr} (hc : ∀ x ∈ c.parts, x.IsSound V site.catalog.structs) :
      ∀ s ∈ (Stmt.call c span).flatten, s.IsNoted V site.catalog.structs :=
    List.forall_mem_singleton.mpr (List.forall_mem_singleton.mpr hc)
  unfold checkCall
  split
  · have hcheck := Expr.meets_check h _ he none (by rintro _ ⟨⟩)
    split
    · rename_i hc
      exact ⟨(hcheck.of_error hc).1, hnoted (hcheck.of_error hc).2⟩
    · rename_i hc
      have hfound := hcheck.of_ok hc
      refine List.forall_mem_singleton.mpr ⟨List.forall_mem_singleton.mpr hfound.settled, List.forall_mem_nil _, ?_⟩
      refine List.forall_mem_singleton.mpr ?_
      rw [hfound.noted]
      rfl
  · exact ⟨trivial, hnoted fun x hx => (he x hx).isSound⟩

/-- A condition that is in order is an `int`. -/
theorem IsSound.meets_checkCondition {e : Expr} (he : ∀ x ∈ e.parts, x.IsBlank) :
    Meets (fun left => IsLeft V site.catalog.structs left.1 left.2.parts)
      (fun e' => e'.IsValued V ∧ ∀ x ∈ e'.parts, x.IsSettled V site.catalog.structs)
      (site.checkCondition e) := by
  have hcheck := Expr.meets_check h e he none (by rintro _ ⟨⟩)
  unfold checkCondition
  cases hc : e.check site none with
  | error left => exact hcheck.of_error hc
  | ok r =>
    obtain ⟨e', t⟩ := r
    have hfound := hcheck.of_ok hc
    dsimp only
    split
    · rename_i ht
      subst ht
      exact ⟨hfound.valued (by rintro ⟨⟩), hfound.settled⟩
    · rename_i hne
      exact ⟨Halt.isPlain_at (.conditionType t)
          (.of_types nofun rfl (Ne.symm hne) (.inl (h.closed.primitive _)) (hfound.value.imp_right And.left)),
        Expr.isSound_leftBehind he fun x hx => (hfound.settled x hx).sound⟩

end Site

namespace Stmt

theorem settles_checkGoto {V : Ty → Prop} (s : Surroundings) (name : String) (target : Option Nat) (span : Span) :
    Settles V s.catalog.structs flatten (s.checkGoto name target span) := by
  unfold Surroundings.checkGoto
  split
  · exact ⟨Halt.isPlain_at (.undefinedLabel name s.function) (.of_kind rfl rfl), List.forall_mem_singleton.mpr (isNoted_of_exprs rfl)⟩
  · exact List.forall_mem_singleton.mpr (isSettled_of_exprs rfl)

section Flatten

variable {P : Stmt → Prop} {c : Expr} {body : List Stmt} {braces : Braces} {otherwise : Option Stmt} {span : Span}

theorem forall_flatten_ifThen : (∀ t ∈ (ifThen c body braces otherwise span).flatten, P t)
    ↔ P (.ifThen c body braces otherwise span) ∧ (∀ t ∈ flattenAll body, P t) ∧ ∀ t ∈ flattenElse otherwise, P t := by
  rw [flatten, List.forall_mem_append, List.forall_mem_cons, and_assoc]

theorem forall_flatten_whileDo : (∀ t ∈ (whileDo c body braces span).flatten, P t)
    ↔ P (.whileDo c body braces span) ∧ ∀ t ∈ flattenAll body, P t := by
  rw [flatten, List.forall_mem_cons]

theorem forall_flatten_block : (∀ t ∈ (block body span).flatten, P t) ↔ P (.block body span) ∧ ∀ t ∈ flattenAll body, P t := by
  rw [flatten, List.forall_mem_cons]

theorem flattenElse_ifThen :
    flattenElse (some (.ifThen c body braces otherwise span)) = (ifThen c body braces otherwise span).flatten := by
  rw [flattenElse, flatten]

theorem forall_flattenAll_cons {s : Stmt} {ss : List Stmt} :
    (∀ t ∈ flattenAll (s :: ss), P t) ↔ (∀ t ∈ s.flatten, P t) ∧ ∀ t ∈ flattenAll ss, P t := by
  rw [flattenAll, List.forall_mem_append]

end Flatten

theorem IsSettled.of_condition {V : Ty → Prop} {structs : List StructInfo} {s : Stmt} {c : Expr} (hexprs : s.exprs = [c]) (hvalues : s.values = [c])
    (hc : c.IsValued V ∧ ∀ x ∈ c.parts, x.IsSettled V structs) : s.IsSettled V structs := by
  obtain ⟨⟨t, ht, hwf⟩, hsettled⟩ := hc
  refine ⟨?_, ?_, ?_⟩
  · rw [hexprs]
    exact List.forall_mem_singleton.mpr hsettled
  · rw [hvalues]
    exact List.forall_mem_singleton.mpr ⟨t, ht, hwf⟩
  · rw [hexprs, List.forall_mem_singleton, ht]
    rfl

theorem flattenElse_of_isIf {stmt : Stmt} (h : stmt.isIf = true) : flattenElse (some stmt) = stmt.flatten := by
  cases stmt with
  | ifThen _ _ _ _ _ => exact flattenElse_ifThen
  | var _ | assign _ _ _ | call _ _ | whileDo _ _ _ _ | breakLoop _ | continueLoop _ | label _ _ _ | goto _ _ _ | block _ _
  | foreign _ => cases h

/-- What becomes of an `if` is an `if`. -/
theorem isIf_check (s : Surroundings) (loops n : Nat) {stmt : Stmt} (h : stmt.isIf = true) :
    Meets (fun left => left.2.isIf = true) (fun checked => checked.isIf = true) (stmt.check s loops n) := by
  cases stmt with
  | ifThen c body braces otherwise span =>
    rw [check]
    split
    · rfl
    · split
      · rfl
      · split <;> rfl
  | var _ | assign _ _ _ | call _ _ | whileDo _ _ _ _ | breakLoop _ | continueLoop _ | label _ _ _ | goto _ _ _ | block _ _
  | foreign _ => cases h

variable {V : Ty → Prop} {s : Surroundings}

mutual

/-- Statements without notes are settled by their check. -/
theorem settles_check (h : ∀ n, (s.site n).IsSound V) : (stmt : Stmt) → (∀ t ∈ stmt.flatten, t.IsBlank) → (loops n : Nat) →
    Settles V s.catalog.structs flatten (stmt.check s loops n)
  | .var d, _, _, _ | .label .., _, _, _ => List.forall_mem_singleton.mpr (isSettled_of_exprs rfl)
  | .assign target value span, hb, _, n => by
    obtain ⟨ht, hv⟩ := List.forall_mem_cons.mp (List.forall_mem_singleton.mp hb)
    exact (h n).settles_checkAssign ht (List.forall_mem_singleton.mp hv) span
  | .call e span, hb, _, n => (h n).settles_checkCall (List.forall_mem_singleton.mp (List.forall_mem_singleton.mp hb)) span
  | .ifThen c body braces otherwise span, hb, loops, n => by
    obtain ⟨hc, hbody, helse⟩ := forall_flatten_ifThen.mp hb
    have hc := List.forall_mem_singleton.mp hc
    have hcondition := (h n).meets_checkCondition hc
    have hbodyCheck := settles_checkAll h body hbody loops (n + 1)
    have helseCheck := settles_checkElse h otherwise helse loops (n + 1 + sizes body)
    have hbodyNoted (t : Stmt) (ht : t ∈ flattenAll body) : t.IsNoted V s.catalog.structs := (hbody t ht).isNoted
    have helseNoted (t : Stmt) (ht : t ∈ flattenElse otherwise) : t.IsNoted V s.catalog.structs := (helse t ht).isNoted
    rw [check]
    cases hc' : (s.site n).checkCondition c with
    | error left =>
      obtain ⟨hplain, hleft⟩ := hcondition.of_error hc'
      exact ⟨hplain, forall_flatten_ifThen.mpr ⟨List.forall_mem_singleton.mpr hleft, hbodyNoted, helseNoted⟩⟩
    | ok c' =>
      have hsettled := hcondition.of_ok hc'
      have hcNoted (x : Expr) (hx : x ∈ c'.parts) : x.IsSound V s.catalog.structs := (hsettled.2 x hx).sound
      dsimp only
      cases hb' : checkAll s loops (n + 1) body with
      | error left =>
        obtain ⟨hplain, hleft⟩ := hbodyCheck.of_error hb'
        exact ⟨hplain, forall_flatten_ifThen.mpr ⟨List.forall_mem_singleton.mpr hcNoted, hleft, helseNoted⟩⟩
      | ok body' =>
        have hbodySettled := hbodyCheck.of_ok hb'
        dsimp only
        cases he' : checkElse s loops (n + 1 + sizes body) otherwise with
        | error left =>
          obtain ⟨hplain, hleft⟩ := helseCheck.of_error he'
          exact ⟨hplain, forall_flatten_ifThen.mpr
            ⟨List.forall_mem_singleton.mpr hcNoted, fun t ht => (hbodySettled t ht).isNoted, hleft⟩⟩
        | ok otherwise' =>
          exact forall_flatten_ifThen.mpr ⟨.of_condition rfl rfl hsettled, hbodySettled, helseCheck.of_ok he'⟩
  | .whileDo c body braces span, hb, loops, n => by
    obtain ⟨hc, hbody⟩ := forall_flatten_whileDo.mp hb
    have hc := List.forall_mem_singleton.mp hc
    have hcondition := (h n).meets_checkCondition hc
    have hbodyCheck := settles_checkAll h body hbody (loops + 1) (n + 1)
    rw [check]
    cases hc' : (s.site n).checkCondition c with
    | error left =>
      obtain ⟨hplain, hleft⟩ := hcondition.of_error hc'
      exact ⟨hplain, forall_flatten_whileDo.mpr ⟨List.forall_mem_singleton.mpr hleft, fun t ht => (hbody t ht).isNoted⟩⟩
    | ok c' =>
      have hsettled := hcondition.of_ok hc'
      dsimp only
      cases hb' : checkAll s (loops + 1) (n + 1) body with
      | error left =>
        obtain ⟨hplain, hleft⟩ := hbodyCheck.of_error hb'
        exact ⟨hplain, forall_flatten_whileDo.mpr
          ⟨List.forall_mem_singleton.mpr fun x hx => (hsettled.2 x hx).sound, hleft⟩⟩
      | ok body' => exact forall_flatten_whileDo.mpr ⟨.of_condition rfl rfl hsettled, hbodyCheck.of_ok hb'⟩
  | .breakLoop span, _, loops, _ => by
    rw [check]
    split
    · exact ⟨Halt.isPlain_at .breakOutsideLoop (.of_kind rfl rfl), List.forall_mem_singleton.mpr (isNoted_of_exprs rfl)⟩
    · exact List.forall_mem_singleton.mpr (isSettled_of_exprs rfl)
  | .continueLoop span, _, loops, _ => by
    rw [check]
    split
    · exact ⟨Halt.isPlain_at .continueOutsideLoop (.of_kind rfl rfl), List.forall_mem_singleton.mpr (isNoted_of_exprs rfl)⟩
    · exact List.forall_mem_singleton.mpr (isSettled_of_exprs rfl)
  | .goto name target span, _, _, _ => settles_checkGoto s name target span
  | .block body span, hb, loops, n => by
    have hbody := (forall_flatten_block.mp hb).2
    have hbodyCheck := settles_checkAll h body hbody loops (n + 1)
    rw [check]
    cases hb' : checkAll s loops (n + 1) body with
    | error left =>
      obtain ⟨hplain, hleft⟩ := hbodyCheck.of_error hb'
      exact ⟨hplain, forall_flatten_block.mpr ⟨isNoted_of_exprs rfl, hleft⟩⟩
    | ok body' => exact forall_flatten_block.mpr ⟨isSettled_of_exprs rfl, hbodyCheck.of_ok hb'⟩
  | .foreign node, _, _, _ => ⟨trivial, List.forall_mem_singleton.mpr (isNoted_of_exprs rfl)⟩

theorem settles_checkElse (h : ∀ n, (s.site n).IsSound V) : (o : Option Stmt) → (∀ t ∈ flattenElse o, t.IsBlank) → (loops n : Nat) →
    Settles V s.catalog.structs flattenElse (checkElse s loops n o)
  | none, _, _, _ => nofun
  | some (.block body span), hb, loops, n => by
    have hbodyCheck := settles_checkAll h body hb loops n
    rw [checkElse]
    cases hb' : checkAll s loops n body with
    | error left => exact hbodyCheck.of_error hb'
    | ok body' => exact hbodyCheck.of_ok hb'
  | some (.ifThen c body braces otherwise span), hb, loops, n => by
    have hisIf : (ifThen c body braces otherwise span).isIf = true := rfl
    have hbranch := settles_check h (.ifThen c body braces otherwise span) (flattenElse_ifThen ▸ hb) loops n
    have hkept := isIf_check s loops n hisIf
    rw [checkElse_of_isIf hisIf]
    cases hc : (ifThen c body braces otherwise span).check s loops n with
    | error left =>
      obtain ⟨hplain, hleft⟩ := hbranch.of_error hc
      rw [← flattenElse_of_isIf (hkept.of_error hc)] at hleft
      exact ⟨hplain, hleft⟩
    | ok branch =>
      have hsettled := hbranch.of_ok hc
      rw [← flattenElse_of_isIf (hkept.of_ok hc)] at hsettled
      exact hsettled
  | some (.var _), hb, _, _ | some (.assign ..), hb, _, _ | some (.call ..), hb, _, _ | some (.whileDo ..), hb, _, _
  | some (.breakLoop _), hb, _, _ | some (.continueLoop _), hb, _, _ | some (.label ..), hb, _, _
  | some (.goto ..), hb, _, _ | some (.foreign _), hb, _, _ => ⟨trivial, nofun⟩

theorem settles_checkAll (h : ∀ n, (s.site n).IsSound V) : (ss : List Stmt) → (∀ t ∈ flattenAll ss, t.IsBlank) → (loops n : Nat) →
    Settles V s.catalog.structs flattenAll (checkAll s loops n ss)
  | [], _, _, _ => nofun
  | stmt :: rest, hb, loops, n => by
    obtain ⟨hstmt, hrest⟩ := forall_flattenAll_cons.mp hb
    have hcheck := settles_check h stmt hstmt loops n
    have hrestCheck := settles_checkAll h rest hrest loops (n + stmt.size)
    rw [checkAll]
    cases hs : stmt.check s loops n with
    | error left =>
      obtain ⟨hplain, hleft⟩ := hcheck.of_error hs
      exact ⟨hplain, forall_flattenAll_cons.mpr ⟨hleft, fun t ht => (hrest t ht).isNoted⟩⟩
    | ok stmt' =>
      have hsettled := hcheck.of_ok hs
      dsimp only
      cases hr : checkAll s loops (n + stmt.size) rest with
      | error left =>
        obtain ⟨hplain, hleft⟩ := hrestCheck.of_error hr
        exact ⟨hplain, forall_flattenAll_cons.mpr ⟨fun t ht => (hsettled t ht).isNoted, hleft⟩⟩
      | ok rest' => exact forall_flattenAll_cons.mpr ⟨hsettled, hrestCheck.of_ok hr⟩

end

end Stmt

/-! ## Scopes -/

/-- The structs of a catalog are known, and all types in it are types that values can have. -/
structure Catalog.IsSound (c : Catalog) : Prop where
  structs : c.KnowsStructs
  globals : ∀ s ∈ c.globals, s.IsSound (Ty.IsWellFormed c.structNames)
  fields : ∀ i ∈ c.structs, ∀ f ∈ i.fields, f.2.IsWellFormed c.structNames

/-- All builtins have types from a class. -/
def Builtins.AreSound (V : Ty → Prop) (b : Builtins) : Prop := ∀ e ∈ b, V e.2.ty

namespace LocalScope

/-- The symbols of a function have types from a class, as far as they have types. -/
def IsSound (V : Ty → Prop) (scope : LocalScope) : Prop := ∀ s ∈ scope.symbols, s.IsSound V

variable {V W : Ty → Prop} {scope : LocalScope}

theorem IsSound.meets_add (h : scope.IsSound V) {s : Symbol} (hs : s.IsSound V) :
    Meets (Halt.IsPlain W) (IsSound V) (scope.add s) := by
  unfold add declare
  split
  · exact (.of_kind rfl rfl : Problem.Cause.IsPlain W (.duplicate _))
  · exact List.forall_mem_append.mpr ⟨h, List.forall_mem_singleton.mpr hs⟩

theorem IsSound.addAll (h : scope.IsSound V) (ss : List (Except Misplaced Symbol))
    (hss : ∀ s ∈ ss, ∀ symbol, s = .ok symbol → symbol.IsSound V) :
    (scope.addAll ss).1.IsSound V ∧ ∀ halt, (scope.addAll ss).2 = some halt → halt.IsPlain W := by
  induction ss generalizing scope with
  | nil => exact ⟨h, fun _ hhalt => (nomatch hhalt)⟩
  | cons s ss ih =>
    obtain ⟨hs, hss⟩ := List.forall_mem_cons.mp hss
    have hadd : Meets (Halt.IsPlain W) (IsSound V) (s.mapError Halt.misplaced >>= scope.add) := by
      cases s with
      | error m => trivial
      | ok symbol => exact h.meets_add (hs symbol rfl)
    rw [LocalScope.addAll]
    cases ha : s.mapError Halt.misplaced >>= scope.add with
    | error halt =>
      refine ⟨h, fun halt' hhalt => ?_⟩
      obtain rfl := Option.some.inj hhalt
      exact hadd.of_error ha
    | ok scope' => exact ih (hadd.of_ok ha) hss

end LocalScope

/-- The result and the parameters of a function have types that values can have. -/
theorem FuncDecl.isSound_headSymbols {structs : List String} {s : Signature} (hs : s.ty.IsWellFormed structs) (d : FuncDecl) :
    ∀ head ∈ d.headSymbols s, ∀ symbol, head = .ok symbol → symbol.IsSound (Ty.IsWellFormed structs) := by
  obtain ⟨hparams, hresult⟩ := hs
  unfold headSymbols
  refine List.forall_mem_append.mpr ⟨?_, ?_⟩
  · intro head hhead symbol hsymbol t ht
    subst hsymbol
    split at hhead
    · cases hhead
    · rename_i hvoid
      obtain rfl := Except.ok.inj (List.mem_singleton.mp hhead)
      obtain rfl := Option.some.inj ht
      exact hresult.resolve_left hvoid
  · intro head hhead symbol hsymbol t ht
    obtain ⟨i, hi, rfl⟩ := List.mem_iff_getElem.mp hhead
    rw [List.getElem_zipWith] at hsymbol
    obtain ⟨name, -, rfl⟩ := Except.map_eq_ok.mp hsymbol
    obtain rfl := Option.some.inj ht
    exact Ty.areWellFormed_iff.mp hparams _ (List.getElem_mem _)

namespace Stmt

variable {V : Ty → Prop} {c : Catalog} (h : c.KnowsStructs)
include h

theorem meets_symbol? (n : Nat) (s : Stmt) : Meets (Halt.IsPlain V)
    (fun symbol? => ∀ symbol, symbol? = some symbol → symbol.IsSound (Ty.IsWellFormed c.structNames)) (s.symbol? c n) := by
  cases s with
  | var d =>
    refine (d.type.meets_resolve_value h (some (n : Int))).bind fun t ht symbol hsymbol u hu => ?_
    obtain rfl := Option.some.inj hsymbol
    obtain rfl := Option.some.inj hu
    exact ht
  | label name index span =>
    intro symbol hsymbol t ht
    obtain rfl := Option.some.inj hsymbol
    cases ht
  | ifThen _ _ braces _ _ | whileDo _ _ braces _ =>
    cases braces with
    | around _ => exact fun _ hsymbol => (nomatch hsymbol)
    | missing _ => trivial
  | assign _ _ _ | call _ _ | breakLoop _ | continueLoop _ | goto _ _ _ | block _ _ | foreign _ =>
    exact fun _ hsymbol => (nomatch hsymbol)

/-- What the statements of a body declare has types that values can have. -/
theorem isSound_collect (ss : List Stmt) (scope : LocalScope) (hscope : scope.IsSound (Ty.IsWellFormed c.structNames)) (n : Nat) :
    (collect c scope n ss).scope.IsSound (Ty.IsWellFormed c.structNames)
      ∧ ∀ halt, (collect c scope n ss).halt = some halt → halt.IsPlain V := by
  induction ss generalizing scope n with
  | nil => exact ⟨hscope, fun _ hhalt => (nomatch hhalt)⟩
  | cons s ss ih =>
    have hsymbol := meets_symbol? (V := V) (c := c.within scope) h n s
    rw [collect]
    cases hs : s.symbol? (c.within scope) n with
    | error halt =>
      refine ⟨hscope, fun halt' hhalt => ?_⟩
      obtain rfl := Option.some.inj hhalt
      exact hsymbol.of_error hs
    | ok symbol? =>
      cases symbol? with
      | none => exact ih scope hscope (n + 1)
      | some symbol =>
        have hadd := hscope.meets_add (W := V) (hsymbol.of_ok hs symbol rfl)
        dsimp only
        cases ha : scope.add symbol with
        | error halt =>
          refine ⟨hscope, fun halt' hhalt => ?_⟩
          obtain rfl := Option.some.inj hhalt
          exact hadd.of_error ha
        | ok scope' => exact ih scope' (hadd.of_ok ha) (n + 1)

omit h in
mutual

theorem isBlank_number (bound : Nat) : (n : Nat) → (s : Stmt) → (∀ t ∈ s.flatten, t.IsBlank) →
    ∀ t ∈ (s.number bound n).flatten, t.IsBlank
  | n, .ifThen _ body _ otherwise _, h => by
    obtain ⟨hc, hbody, helse⟩ := forall_flatten_ifThen.mp h
    exact forall_flatten_ifThen.mpr ⟨hc, isBlank_numberAll bound (n + 1) body hbody,
      isBlank_numberElse bound (n + 1 + sizes body) otherwise helse⟩
  | n, .whileDo _ body _ _, h => by
    obtain ⟨hc, hbody⟩ := forall_flatten_whileDo.mp h
    exact forall_flatten_whileDo.mpr ⟨hc, isBlank_numberAll bound (n + 1) body hbody⟩
  | n, .block body _, h => by
    obtain ⟨hblock, hbody⟩ := forall_flatten_block.mp h
    exact forall_flatten_block.mpr ⟨hblock, isBlank_numberAll bound (n + 1) body hbody⟩
  | _, .label .., h => List.forall_mem_singleton.mpr nofun
  | _, .var _, h | _, .assign .., h | _, .call .., h | _, .breakLoop _, h | _, .continueLoop _, h | _, .goto .., h
  | _, .foreign _, h => h

theorem isBlank_numberElse (bound : Nat) : (n : Nat) → (o : Option Stmt) → (∀ t ∈ flattenElse o, t.IsBlank) →
    ∀ t ∈ flattenElse (numberElse bound n o), t.IsBlank
  | n, some (.ifThen _ body _ otherwise _), h => by
    rw [flattenElse_ifThen] at h
    obtain ⟨hc, hbody, helse⟩ := forall_flatten_ifThen.mp h
    rw [numberElse, flattenElse_ifThen]
    exact forall_flatten_ifThen.mpr ⟨hc, isBlank_numberAll bound (n + 1) body hbody,
      isBlank_numberElse bound (n + 1 + sizes body) otherwise helse⟩
  | n, some (.block body _), h => isBlank_numberAll bound n body h
  | _, none, h | _, some (.var _), h | _, some (.assign ..), h | _, some (.call ..), h | _, some (.whileDo ..), h
  | _, some (.breakLoop _), h | _, some (.continueLoop _), h | _, some (.label ..), h | _, some (.goto ..), h
  | _, some (.foreign _), h => h

theorem isBlank_numberAll (bound : Nat) : (n : Nat) → (ss : List Stmt) → (∀ t ∈ flattenAll ss, t.IsBlank) →
    ∀ t ∈ flattenAll (numberAll bound n ss), t.IsBlank
  | _, [], h => h
  | n, s :: ss, h => by
    obtain ⟨hs, hss⟩ := forall_flattenAll_cons.mp h
    exact forall_flattenAll_cons.mpr ⟨isBlank_number bound n s hs, isBlank_numberAll bound (n + s.size) ss hss⟩

end

end Stmt

/-! ## Bodies -/

theorem Catalog.IsSound.site {c : Catalog} (h : c.IsSound) {V : Ty → Prop} (hV : Ty.IsClosed V)
    (hwritten : ∀ t, t.IsWellFormed c.structNames → V t) {scope : LocalScope}
    (hscope : scope.IsSound (Ty.IsWellFormed c.structNames)) {b : Builtins} (hb : b.AreSound V) (n : Nat) :
    (Site.mk b (c.within scope) n).IsSound V where
  closed := hV
  written := hwritten
  structs := h.structs
  symbols name s hs := by
    refine Symbol.IsSound.mono ?_ hwritten
    unfold Site.lookup lookup at hs
    split at hs
    · rename_i found hfound
      obtain rfl := Option.some.inj hs
      exact hscope _ (List.mem_of_find?_eq_some (Option.filter_eq_some_iff.mp hfound).1)
    · exact h.globals s (List.mem_of_find?_eq_some hs)
  fields name i hi f hf := hwritten _ (h.fields i (List.mem_of_find?_eq_some hi) f hf)
  builtins name s hs := by
    obtain ⟨before, after, hsplit, -⟩ := List.lookup_eq_some_iff.mp hs
    refine hb (name, s) ?_
    rw [show b = before ++ (name, s) :: after from hsplit]
    exact List.mem_append_right before List.mem_cons_self

/-- What the work on a body has left behind is sound, and in order if the work got to the end. -/
structure Worked.IsSound (V : Ty → Prop) (structs : List StructInfo) (w : Worked) : Prop where
  scope : w.scope.IsSound (Ty.IsWellFormed (structs.map StructInfo.name))
  notes : ∀ s ∈ Stmt.flattenAll w.decl.body, s.IsNoted V structs
  statements : ∀ s ∈ w.statements, s.IsNoted V structs
  halt : ∀ halt, w.halt = some halt → halt.IsPlain V
  settled : w.halt = none → ∀ s ∈ Stmt.flattenAll w.decl.body, s.IsSettled V structs

namespace FuncDecl

variable {V : Ty → Prop} {b : Builtins} {c : Catalog} {d : FuncDecl}

theorem isSound_worked {structs : List StructInfo} (d : FuncDecl) {collected : Collected} {body : List Stmt} {halt? : Option Halt}
    (hscope : collected.scope.IsSound (Ty.IsWellFormed (structs.map StructInfo.name)))
    (hbody : ∀ s ∈ Stmt.flattenAll body, s.IsNoted V structs)
    (hhalt : ∀ halt, halt? = some halt → halt.IsPlain V)
    (hsettled : halt? = none → ∀ s ∈ Stmt.flattenAll body, s.IsSettled V structs) :
    (d.worked collected body halt?).IsSound V structs where
  scope := hscope
  notes := hbody
  statements s hs := hbody s (List.mem_of_mem_take hs)
  halt := hhalt
  settled := hsettled

/-- The work on a body without notes makes sound ones. -/
theorem isSound_work (h : c.IsSound) (hV : Ty.IsClosed V) (hwritten : ∀ t, t.IsWellFormed c.structNames → V t) (hb : b.AreSound V)
    {s : Signature} (hs : s.ty.IsWellFormed c.structNames) (hd : ∀ t ∈ Stmt.flattenAll d.body, t.IsBlank) :
    (d.work b c s).IsSound V c.structs := by
  have hnone (scope : LocalScope) (hscope : scope.IsSound (Ty.IsWellFormed c.structNames)) (halt : Halt) (hhalt : halt.IsPlain V) :
      Worked.IsSound V c.structs ⟨d, scope, [], some halt⟩ :=
    { scope := hscope
      notes := fun t ht => (hd t ht).isNoted
      statements := List.forall_mem_nil _
      halt := fun _ heq => Option.some.inj heq ▸ hhalt
      settled := fun heq => (nomatch heq) }
  have hempty : LocalScope.IsSound (Ty.IsWellFormed c.structNames) { function := d.name } := List.forall_mem_nil _
  have hheads := hempty.addAll (W := V) (d.headSymbols s) (d.isSound_headSymbols hs)
  unfold work
  split
  · rename_i scope halt hadd
    rw [hadd] at hheads
    exact hnone scope hheads.1 halt (hheads.2 halt rfl)
  · rename_i scope hadd
    rw [hadd] at hheads
    split
    · exact hnone scope hheads.1 _ trivial
    · obtain ⟨hscope, hhalt⟩ := Stmt.isSound_collect h.structs (Stmt.flattenAll d.body) scope hheads.1 0
      generalize Stmt.collect c scope 0 (Stmt.flattenAll d.body) = collected at hscope hhalt
      have hblank := Stmt.isBlank_numberAll collected.count 0 d.body hd
      have hcheck := Stmt.settles_checkAll (s := ⟨b, c.within collected.scope, d.name⟩) (fun n => h.site hV hwritten hscope hb n)
        _ hblank 0 0
      unfold workStatements
      dsimp only
      split
      · rename_i halt hcollected
        exact d.isSound_worked hscope (fun t ht => (hblank t ht).isNoted)
          (fun _ heq => hhalt _ (hcollected.trans heq)) fun heq => (nomatch heq)
      · split
        · rename_i body hbody
          have hsettled := hcheck.of_ok hbody
          exact d.isSound_worked hscope (fun t ht => (hsettled t ht).isNoted) (fun _ heq => (nomatch heq)) fun _ => hsettled
        · rename_i halt body hbody
          obtain ⟨hplain, hleft⟩ := hcheck.of_error hbody
          exact d.isSound_worked hscope hleft (fun _ heq => Option.some.inj heq ▸ hplain) fun heq => (nomatch heq)

end FuncDecl

end FlatScope
