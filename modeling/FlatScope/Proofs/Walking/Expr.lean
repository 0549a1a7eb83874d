/-
  Walks through expressions. A walk that begins at the number of a statement stays at it through all of an expression: each part
  of the expression is looked up at this number, and what comes of the walk is what comes of the check there
  (`Expr.looks_walk`). So do walks through what stands in simple statements.
-/
import FlatScope.Proofs.Notes.Expr
import FlatScope.Proofs.Walking.Walk

namespace FlatScope

variable {α β γ δ : Type} {s : Surroundings} {a : Address} {n : Nat}

/-! ## Checks as walks go through them -/

section Checks

variable (site : Site) (base e : Expr) (es args : List Expr) (slot : Slot) (slots : List Slot) (name : String) (info : Info)
  (context : Option Ty) (span : Span)

theorem Site.indexed_eq (t : Ty) (i : Expr) : site.indexed base t i info =
    match t.element? with
    | none => .error (.at info.span (.notIndexed t), .index base i info)
    | some element => (i.check site none).proceed (.index base · info) fun (i', u) =>
      if u = .int then .ok (.index base i' { info with ty := some element }, element)
      else .error (.at i'.span (.indexNotInt u), .index base i' info) := by
  rw [indexed]
  cases t.element? with
  | none => rfl
  | some element => cases i.check site none <;> rfl

namespace Expr

theorem callee_eq : callee site span e =
    match site.callForm? span e with
    | .error halt => .error (halt, e)
    | .ok (some called) => .ok called
    | .ok none => (e.check site none).proceed id fun (e', t) =>
      match t with
      | .func params result => .ok (e', .fixed e.ident? { params, result })
      | t => .error (.at e'.span (.notCallable t), e') := by
  rw [callee]
  cases site.callForm? span e with
  | error halt => rfl
  | ok called =>
    cases called with
    | some called => rfl
    | none =>
      cases e.check site none with
      | error left => rfl
      | ok r =>
        obtain ⟨e', t⟩ := r
        cases t <;> rfl

theorem check_addrOf_eq : (addrOf e info).check site context =
    match site.functionAddress? e with
    | .error halt => .error (halt, .addrOf e info)
    | .ok (some (e', t)) => .ok (.addrOf e' { info with ty := some t }, t)
    | .ok none => (e.check site none).proceed (.addrOf · info) fun (e', t) =>
      if e'.isAddressable then .ok (.addrOf e' { info with ty := some (.pointer t) }, .pointer t)
      else .error (.at e'.span .notAddressable, .addrOf e' info) := by
  rw [check]
  cases site.functionAddress? e with
  | error halt => rfl
  | ok found =>
    cases found with
    | some found => rfl
    | none => cases e.check site none <;> rfl

theorem check_index_eq (i : Expr) : (index base i info).check site context
    = (base.check site none).proceed (.index · i info) fun (base', t) => site.behind base' t i info := by
  rw [check_index]
  cases base.check site none <;> rfl

theorem check_field_eq : (field base name info).check site context = (base.check site none).proceed (.field · name info)
    fun (base', t) => site.select base' t name info.span (.field base' name info) := by
  rw [check]
  cases base.check site none <;> rfl

theorem check_call_eq : (call e args info).check site context
    = (callee site info.span e).proceed (.call · args info) fun (e', form) =>
      match form.slots args.length with
      | .error cause => .error (.at info.span cause, .call e' args info)
      | .ok slots => (checkAll site slots args).proceed (.call e' · info) fun (args', types) =>
        .ok (.call (form.noteCallee types e') args' { info with ty := some (form.result types) }, form.result types) := by
  rw [check_call]
  cases callee site info.span e with
  | error left => rfl
  | ok r =>
    dsimp only [Checked.proceed]
    cases r.2.slots args.length with
    | error cause => rfl
    | ok slots =>
      dsimp only
      cases checkAll site slots args <;> rfl

theorem check_composite_eq (t : Ty) : (composite es info).check site (some t) =
    match site.catalog.elementSlots t es.length with
    | .error cause => .error (.at info.span cause, .composite es info)
    | .ok slots => (checkAll site slots es).proceed (.composite · info) fun (es', _) =>
      .ok (.composite es' { info with ty := some t }, t) := by
  rw [check]
  cases site.catalog.elementSlots t es.length with
  | error cause => rfl
  | ok slots =>
    dsimp only
    cases checkAll site slots es <;> rfl

theorem checkAll_cons_eq : checkAll site (slot :: slots) (e :: es) = (site.operand slot e).proceed (· :: es) fun (e', t) =>
    match slot.refusal? t with
    | some cause => .error (.at e'.span cause, leftBehind e e' :: es)
    | none => (checkAll site slots es).proceed (leftBehind e e' :: ·) fun (es', ts) => .ok (e' :: es', t :: ts) := by
  rw [checkAll_cons]
  cases site.operand slot e with
  | error left => rfl
  | ok r =>
    dsimp only [Checked.proceed]
    cases slot.refusal? r.2 with
    | some cause => rfl
    | none =>
      dsimp only
      cases checkAll site slots es <;> rfl

end Expr

namespace Site

theorem checkAssign_eq (target value : Expr) : site.checkAssign target value span =
    (site.checkTarget target).proceed (.assign · value span) fun (target', t) =>
      (value.check site (some t)).proceed (.assign target' · span) fun (value', u) =>
        if u = t then .ok (.assign target' value' span)
        else .error (.at span (.assignedType u t), .assign target' value' span) := by
  rw [checkAssign]
  cases site.checkTarget target with
  | error left => rfl
  | ok r =>
    dsimp only [Checked.proceed]
    cases value.check site (some r.2) <;> rfl

theorem checkCall_eq : site.checkCall (.call e args info) span
    = ((Expr.call e args info).check site none).proceed (.call · span) fun (e', _) => .ok (.call e' span) := by
  unfold checkCall
  dsimp only
  cases (Expr.call e args info).check site none <;> rfl

theorem checkCondition_eq : site.checkCondition e = (e.check site none).proceed id fun (e', t) =>
    if t = .int then .ok e' else .error (.at e'.span (.conditionType t), leftBehind e e') := by
  rw [checkCondition]
  cases e.check site none <;> rfl

end Site

end Checks

/-! ## Walks that stay where they are -/

/-- A walk that has looked things up for expressions of the statement with an address. -/
def Walk.looked (w : Walk) (a : Address) (es : List Expr) : Walk :=
  { w with moments := w.moments ++ es.map fun e => ⟨a, .look e, w.index, w.loops⟩ }

theorem Walk.looked_nil (w : Walk) (a : Address) : w.looked a [] = w := by
  rw [looked, List.map_nil, List.append_nil]

theorem Walk.looked_looked (w : Walk) (a : Address) (es es' : List Expr) :
    (w.looked a es).looked a es' = w.looked a (es ++ es') := by
  simp only [looked, List.append_assoc, List.map_append]

namespace Walked

/-- A walk from number `n` comes to `r`, with no statement entered and with nothing looked up but expressions of the
statement with an address that are of a kind. -/
def Looks (x : Walked α β) (a : Address) (n : Nat) (r : Checked α β) (P : Expr → Prop) : Prop :=
  ∀ w : Walk, w.index = n → ∃ es, x w = (r, w.looked a es) ∧ ∀ e ∈ es, P e

namespace Looks

variable {x : Walked α β} {r : Checked α β} {P Q : Expr → Prop}

theorem done (r : Checked α β) : (Walked.done r).Looks a n r P := fun w _ =>
  ⟨[], by rw [w.looked_nil, Walked.done], List.forall_mem_nil _⟩

theorem mono (h : x.Looks a n r P) (hPQ : ∀ e, P e → Q e) : x.Looks a n r Q := by
  intro w hw
  obtain ⟨es, hx, hes⟩ := h w hw
  exact ⟨es, hx, fun e he => hPQ e (hes e he)⟩

theorem look {e : Expr} {f : Site → Walked α β} (he : P e) (h : (f (s.site n)).Looks a n r P) :
    (Walked.look s a e f).Looks a n r P := by
  rintro w rfl
  obtain ⟨es, hx, hes⟩ := h (w.looked a [e]) rfl
  refine ⟨[e] ++ es, ?_, List.forall_mem_append.mpr ⟨List.forall_mem_singleton.mpr he, hes⟩⟩
  rw [← w.looked_looked]
  exact hx

/-- What a walk goes on with begins at the same number. -/
theorem proceed {left : α → γ} {f : β → Walked γ δ} {r' : β → Checked γ δ} (hx : x.Looks a n r P)
    (hf : ∀ y, (f y).Looks a n (r' y) P) :
    (x.proceed left f).Looks a n (r.proceed left r') P := by
  intro w hw
  obtain ⟨es, hx, hes⟩ := hx w hw
  rw [Walked.proceed, hx]
  cases r with
  | error left => exact ⟨es, rfl, hes⟩
  | ok y =>
    obtain ⟨es', hf, hes'⟩ := hf y (w.looked a es) hw
    exact ⟨es ++ es', by rw [← w.looked_looked]; exact hf, List.forall_mem_append.mpr ⟨hes, hes'⟩⟩

end Looks

/-! ## The parts of walks -/

variable {P : Expr → Prop} {x : Walked Expr (Expr × Ty)}

theorem looks_indexed {base i : Expr} {info : Info} (hx : x.Looks a n (i.check (s.site n) none) P) (t : Ty) :
    (indexed base t i info x).Looks a n ((s.site n).indexed base t i info) P := by
  rw [Site.indexed_eq, indexed]
  cases t.element? with
  | none => exact .done _
  | some element => exact hx.proceed fun r => .done _

theorem looks_behind {e base i : Expr} {info : Info} (hself : P e) (hx : x.Looks a n (i.check (s.site n) none) P) (t : Ty) :
    (behind s a e base t i info x).Looks a n ((s.site n).behind base t i info) P := by
  cases t with
  | struct name =>
    rw [behind, Site.behind]
    exact .look hself (.done _)
  | primitive _ | void | pointer _ | array _ _ | func _ _ =>
    rw [behind, Site.behind]
    · exact looks_indexed hx _
    all_goals rintro _ ⟨⟩

theorem looks_calling {e : Expr} (hself : P e) (hx : x.Looks a n (e.check (s.site n) none) P) (span : Span) :
    (calling s a span e x).Looks a n (Expr.callee (s.site n) span e) P := by
  refine .look hself ?_
  rw [Expr.callee_eq]
  cases (s.site n).callForm? span e with
  | error halt => exact .done _
  | ok called =>
    cases called with
    | some called => exact .done _
    | none =>
      refine hx.proceed ?_
      rintro ⟨e', t⟩
      cases t <;> exact .done _

theorem looks_address {target : Expr} {info : Info} {context : Option Ty} (hself : P target)
    (hx : x.Looks a n (target.check (s.site n) none) P) :
    (address s a target info x).Looks a n ((Expr.addrOf target info).check (s.site n) context) P := by
  refine .look hself ?_
  rw [Expr.check_addrOf_eq]
  cases (s.site n).functionAddress? target with
  | error halt => exact .done _
  | ok found =>
    cases found with
    | some found => exact .done _
    | none => exact hx.proceed fun r => .done _

theorem looks_operand {slot : Slot} {e : Expr} (hself : P e) (hx : x.Looks a n (e.check (s.site n) slot.context) P) :
    (operand s a slot e x).Looks a n ((s.site n).operand slot e) P := by
  rw [operand, Site.operand]
  split
  · exact .look hself (.done _)
  · exact hx

end Walked

namespace Expr

theorem mem_parts_self (e : Expr) : e ∈ e.parts := by
  cases e with
  | index _ _ _ | field _ _ _ | call _ _ _ | composite _ _ | addrOf _ _ =>
    rw [parts]
    exact List.mem_cons_self
  | int _ _ | real _ _ | byte _ _ | ident _ _ _ | typeArg _ _ | foreign _ => exact List.mem_singleton.mpr rfl

theorem root_mem_parts : (e : Expr) → e.root ∈ e.parts
  | .index base _ _ => by
    rw [root, parts]
    exact List.mem_cons_of_mem _ (List.mem_append_left _ base.root_mem_parts)
  | .field base _ _ => by
    rw [root, parts]
    exact List.mem_cons_of_mem _ base.root_mem_parts
  | .int _ _ | .real _ _ | .byte _ _ | .ident _ _ _ | .call _ _ _ | .composite _ _ | .addrOf _ _ | .typeArg _ _ | .foreign _ =>
    mem_parts_self _

open Walked

attribute [local simp] walk walkAll

variable {P : Expr → Prop} {info : Info} {context : Option Ty}

theorem looks_walk_index {base i : Expr} (hself : P (.index base i info))
    (hbase : (base.walk s a none).Looks a n (base.check (s.site n) none) P)
    (hi : (i.walk s a none).Looks a n (i.check (s.site n) none) P) :
    ((index base i info).walk s a context).Looks a n ((index base i info).check (s.site n) context) P := by
  rw [check_index_eq, walk]
  exact .look hself (hbase.proceed fun _ => looks_behind hself hi _)

theorem looks_walk_field {base : Expr} {name : String} (hself : P (.field base name info))
    (hbase : (base.walk s a none).Looks a n (base.check (s.site n) none) P) :
    ((field base name info).walk s a context).Looks a n ((field base name info).check (s.site n) context) P := by
  rw [check_field_eq, walk]
  exact .look hself (hbase.proceed fun _ => .look hself (.done _))

theorem looks_walk_call {e : Expr} {args : List Expr} (hself : P (.call e args info)) (hcallee : P e)
    (he : (e.walk s a none).Looks a n (e.check (s.site n) none) P)
    (hargs : ∀ slots, (walkAll s a slots args).Looks a n (checkAll (s.site n) slots args) P) :
    ((call e args info).walk s a context).Looks a n ((call e args info).check (s.site n) context) P := by
  rw [check_call_eq, walk]
  refine .look hself ((looks_calling hcallee he _).proceed ?_)
  rintro ⟨e', form⟩
  dsimp only
  cases form.slots args.length with
  | error cause => exact .done _
  | ok slots => exact (hargs slots).proceed fun _ => .done _

theorem looks_walk_composite {es : List Expr} (hself : P (.composite es info))
    (hes : ∀ slots, (walkAll s a slots es).Looks a n (checkAll (s.site n) slots es) P) :
    ((composite es info).walk s a context).Looks a n ((composite es info).check (s.site n) context) P := by
  rw [walk]
  refine .look hself ?_
  cases context with
  | none =>
    rw [check]
    exact .done _
  | some t =>
    rw [check_composite_eq]
    dsimp only
    cases (s.site n).catalog.elementSlots t es.length with
    | error cause => exact .done _
    | ok slots => exact (hes slots).proceed fun _ => .done _

theorem looks_walkAll_cons {slot : Slot} {slots : List Slot} {e : Expr} {es : List Expr} (hself : P e)
    (he : (e.walk s a slot.context).Looks a n (e.check (s.site n) slot.context) P)
    (hes : (walkAll s a slots es).Looks a n (checkAll (s.site n) slots es) P) :
    (walkAll s a (slot :: slots) (e :: es)).Looks a n (checkAll (s.site n) (slot :: slots) (e :: es)) P := by
  rw [checkAll_cons_eq, walkAll]
  refine (looks_operand hself he).proceed ?_
  rintro ⟨e', t⟩
  dsimp only
  cases slot.refusal? t with
  | some cause => exact .done _
  | none => exact hes.proceed fun _ => .done _

mutual

/-- All that is looked up for an expression is looked up at the number at which its walk begins. -/
theorem looks_walk (context : Option Ty) : (e : Expr) → (e.walk s a context).Looks a n (e.check (s.site n) context) (· ∈ e.parts)
  | .index base i info => by
    obtain ⟨hself, hbase, hi⟩ := (forall_parts_index (P := (· ∈ (index base i info).parts))).mp fun _ hx => hx
    exact looks_walk_index hself ((looks_walk none base).mono hbase) ((looks_walk none i).mono hi)
  | .field base name info => by
    obtain ⟨hself, hbase⟩ := (forall_parts_field (P := (· ∈ (field base name info).parts))).mp fun _ hx => hx
    exact looks_walk_field hself ((looks_walk none base).mono hbase)
  | .call e args info => by
    obtain ⟨hself, he, hargs⟩ := (forall_parts_call (P := (· ∈ (call e args info).parts))).mp fun _ hx => hx
    refine looks_walk_call hself (he e e.mem_parts_self) ((looks_walk none e).mono he) fun slots => ?_
    exact (looks_walkAll slots args).mono hargs
  | .addrOf target info => by
    obtain ⟨hself, htarget⟩ := (forall_parts_addrOf (P := (· ∈ (addrOf target info).parts))).mp fun _ hx => hx
    rw [walk]
    exact .look hself (looks_address (htarget target target.mem_parts_self) ((looks_walk none target).mono htarget))
  | .composite es info => by
    obtain ⟨hself, hes⟩ := (forall_parts_composite (P := (· ∈ (composite es info).parts))).mp fun _ hx => hx
    exact looks_walk_composite hself fun slots => (looks_walkAll slots es).mono hes
  | .int _ _ | .real _ _ | .byte _ _ | .ident _ _ _ | .typeArg _ _ | .foreign _ => .look (mem_parts_self _) (.done _)

theorem looks_walkAll : (slots : List Slot) → (es : List Expr) →
    (walkAll s a slots es).Looks a n (checkAll (s.site n) slots es) (· ∈ partsAll es)
  | [], [] => .done _
  | _ :: _, [] => .done _
  | [], _ :: _ => .done _
  | slot :: slots, e :: es => by
    obtain ⟨he, hes⟩ := (forall_partsAll_cons (P := (· ∈ partsAll (e :: es)))).mp fun _ hx => hx
    exact looks_walkAll_cons (he e e.mem_parts_self) ((looks_walk slot.context e).mono he) ((looks_walkAll slots es).mono hes)

end

end Expr

/-! ## Expressions of simple statements -/

namespace Stmt

open Walked

variable {P : Expr → Prop}

theorem looks_walkTarget {target : Expr} (h : ∀ x ∈ target.parts, P x) :
    (walkTarget s a target).Looks a n ((s.site n).checkTarget target) P := by
  refine .look (h _ target.root_mem_parts) ?_
  rw [Site.checkTarget]
  cases target.root.rootName with
  | error m => exact .done _
  | ok name =>
    dsimp only
    cases ((s.site n).lookup name).filter fun s => !s.kind.isStorage with
    | some symbol => exact .done _
    | none => exact (target.looks_walk none).mono h

theorem looks_walkAssign {target value : Expr} (ht : ∀ x ∈ target.parts, P x) (hv : ∀ x ∈ value.parts, P x) (span : Span) :
    (walkAssign s a target value span).Looks a n ((s.site n).checkAssign target value span) P := by
  rw [Site.checkAssign_eq, walkAssign]
  exact (looks_walkTarget ht).proceed fun _ => ((value.looks_walk _).mono hv).proceed fun _ => .done _

theorem looks_walkCall {e : Expr} (h : ∀ x ∈ e.parts, P x) (span : Span) :
    (walkCall s a e span).Looks a n ((s.site n).checkCall e span) P := by
  cases e with
  | call e args info =>
    rw [Site.checkCall_eq]
    exact (((Expr.call e args info).looks_walk none).mono h).proceed fun _ => .done _
  | int _ _ | real _ _ | byte _ _ | ident _ _ _ | index _ _ _ | field _ _ _ | composite _ _ | addrOf _ _ | typeArg _ _ | foreign _ =>
    exact .done _

theorem looks_walkCondition {e : Expr} (h : ∀ x ∈ e.parts, P x) :
    (walkCondition s a e).Looks a n ((s.site n).checkCondition e) P := by
  rw [Site.checkCondition_eq]
  exact ((e.looks_walk none).mono h).proceed fun _ => .done _

end Stmt

end FlatScope
