/-
  Jumps lead to labels. Numbering and checking leave every statement what it is, and write numbers into labels and jumps only
  (`Stmt.outlines_numberAll`, `Stmt.leads_checkAll`). A label is declared with its own number (`Stmt.labels_collect`). So in a
  body that comes without numbers each label has its own number once it is read, and each jump that is checked has the number
  of the label that it names (`FuncDecl.areLinked_work`).
-/
import FlatScope.Proofs.Notes.Stmt
import FlatScope.Proofs.Rechecking.Kept
import FlatScope.Proofs.Totality.Body
import FlatScope.Proofs.Tree.Strip

namespace FlatScope

/-! ## Outlines -/

/-- What there is to see of a statement apart from expressions, places and other statements. -/
inductive Stmt.Outline
  | block
  | label (name : String) (index : Option Nat)
  | goto (name : String) (target : Option Nat)
  | other
deriving DecidableEq

namespace Stmt

def outline : Stmt → Outline
  | block .. => .block
  | label name index _ => .label name index
  | goto name target _ => .goto name target
  | _ => .other

namespace Outline

/-- Writes the number of a label down, for labels with numbers below `bound`. -/
def number (bound n : Nat) : Outline → Outline
  | label name index => label name (if n < bound then some n else index)
  | o => o

/-- Writes the numbers of labels down, where the first outline has number `n`. -/
def numberAll (bound n : Nat) (os : List Outline) : List Outline := (os.zipIdx n).map fun x => x.1.number bound x.2

variable {bound n : Nat}

theorem getElem?_numberAll (os : List Outline) (j : Nat) :
    (numberAll bound n os)[j]? = os[j]?.map (number bound (n + j)) := by
  rw [numberAll, List.getElem?_map, List.getElem?_zipIdx, Option.map_map]
  rfl

end Outline

/-! ## Numbers -/

mutual

theorem flatten_number (bound n : Nat) : (s : Stmt) →
    (s.number bound n).flatten = (s.flatten.zipIdx n).map fun x => x.1.number bound x.2
  | .ifThen _ body _ otherwise _ => by
    rw [number, flatten, flatten, List.cons_append, List.cons_append, List.zipIdx_cons, List.zipIdx_append, List.map_cons,
      List.map_append, length_flattenAll, flattenAll_numberAll bound (n + 1) body,
      flattenElse_numberElse bound (n + 1 + sizes body) otherwise]
    rfl
  | .whileDo _ body _ _ | .block body _ => by
    rw [number, flatten, flatten, List.zipIdx_cons, List.map_cons, flattenAll_numberAll bound (n + 1) body]
    rfl
  | .var _ | .assign .. | .call .. | .breakLoop _ | .continueLoop _ | .label .. | .goto .. | .foreign _ => rfl

theorem flattenElse_numberElse (bound n : Nat) : (o : Option Stmt) →
    flattenElse (numberElse bound n o) = ((flattenElse o).zipIdx n).map fun x => x.1.number bound x.2
  | some (.ifThen _ body _ otherwise _) => by
    rw [numberElse, flattenElse, flattenElse, List.cons_append, List.cons_append, List.zipIdx_cons, List.zipIdx_append,
      List.map_cons, List.map_append, length_flattenAll, flattenAll_numberAll bound (n + 1) body,
      flattenElse_numberElse bound (n + 1 + sizes body) otherwise]
    rfl
  | some (.block body _) => by rw [numberElse, flattenElse, flattenElse, flattenAll_numberAll]
  | some (.var _) | some (.assign ..) | some (.call ..) | some (.whileDo ..) | some (.breakLoop _)
  | some (.continueLoop _) | some (.label ..) | some (.goto ..) | some (.foreign _) | none => rfl

/-- In reading order, each statement has its own number written into it. -/
theorem flattenAll_numberAll (bound n : Nat) : (ss : List Stmt) →
    flattenAll (numberAll bound n ss) = ((flattenAll ss).zipIdx n).map fun x => x.1.number bound x.2
  | [] => rfl
  | s :: ss => by
    rw [numberAll, flattenAll, flattenAll, List.zipIdx_append, List.map_append, length_flatten, flatten_number,
      flattenAll_numberAll]

end

theorem outline_number (bound n : Nat) (s : Stmt) : (s.number bound n).outline = s.outline.number bound n := by
  cases s <;> rfl

theorem map_outline_number (bound n : Nat) (ss : List Stmt) :
    ((ss.zipIdx n).map fun x => x.1.number bound x.2).map outline = Outline.numberAll bound n (ss.map outline) := by
  rw [Outline.numberAll, List.zipIdx_map, List.map_map, List.map_map]
  exact List.map_congr_left fun x _ => outline_number bound x.2 x.1

/-- Numbers are written into labels only. -/
theorem outlines_number (bound n : Nat) (s : Stmt) :
    (s.number bound n).flatten.map outline = Outline.numberAll bound n (s.flatten.map outline) := by
  rw [flatten_number, map_outline_number]

theorem outlines_numberAll (bound n : Nat) (ss : List Stmt) :
    (flattenAll (numberAll bound n ss)).map outline = Outline.numberAll bound n ((flattenAll ss).map outline) := by
  rw [flattenAll_numberAll, map_outline_number]

/-! ## What a check makes of statements -/

/-- A statement has the outline of another one, but for the number of the label in a jump. -/
def Leads (c : Catalog) (s s' : Stmt) : Prop :=
  s'.outline = s.outline ∨ ∃ name target l, s.outline = .goto name target ∧ c.label? name = some l
    ∧ s'.outline = .goto name (some l.order.toNat)

variable {c : Catalog}

theorem leads_refl (ss : List Stmt) : List.Forall₂ (Leads c) ss ss := List.forall₂_same.mpr fun _ _ => .inl rfl

theorem leads_append {xs xs' ys ys' : List Stmt} (hx : List.Forall₂ (Leads c) xs xs') (hy : List.Forall₂ (Leads c) ys ys') :
    List.Forall₂ (Leads c) (xs ++ ys) (xs' ++ ys') := List.rel_append hx hy

section

variable (s : Surroundings)

mutual

/-- A check writes numbers of labels into jumps, and leaves every statement what it is otherwise. -/
theorem leads_check (loops n : Nat) : (stmt : Stmt) →
    List.Forall₂ (Leads s.catalog) stmt.flatten ((stmt.check s loops n).after id).flatten
  | .assign target value span => by
    rw [check]
    unfold Site.checkAssign
    split
    · exact .cons (.inl rfl) .nil
    · split
      · exact .cons (.inl rfl) .nil
      · split <;> exact .cons (.inl rfl) .nil
  | .call e span => by
    rw [check]
    unfold Site.checkCall
    split
    · split <;> exact .cons (.inl rfl) .nil
    · exact .cons (.inl rfl) .nil
  | .ifThen c body braces otherwise span => by
    have hbody := leads_checkAll loops (n + 1) body
    have helse := leads_checkElse loops (n + 1 + sizes body) otherwise
    rw [check]
    cases (s.site n).checkCondition c with
    | error left => exact .cons (.inl rfl) (leads_refl _)
    | ok c' =>
      cases hb : checkAll s loops (n + 1) body with
      | error left =>
        rw [hb] at hbody
        exact .cons (.inl rfl) (leads_append hbody (leads_refl _))
      | ok body' =>
        rw [hb] at hbody
        cases ho : checkElse s loops (n + 1 + sizes body) otherwise with
        | error left | ok otherwise' =>
          rw [ho] at helse
          exact .cons (.inl rfl) (leads_append hbody helse)
  | .whileDo c body braces span => by
    have hbody := leads_checkAll (loops + 1) (n + 1) body
    rw [check]
    cases (s.site n).checkCondition c with
    | error left => exact .cons (.inl rfl) (leads_refl _)
    | ok c' =>
      cases hb : checkAll s (loops + 1) (n + 1) body with
      | error left | ok body' =>
        rw [hb] at hbody
        exact .cons (.inl rfl) hbody
  | .block body span => by
    have hbody := leads_checkAll loops (n + 1) body
    rw [check]
    cases hb : checkAll s loops (n + 1) body with
    | error left | ok body' =>
      rw [hb] at hbody
      exact .cons (.inl rfl) hbody
  | .breakLoop span | .continueLoop span => by
    rw [check]
    split <;> exact .cons (.inl rfl) .nil
  | .goto name target span => by
    rw [check]
    unfold Surroundings.checkGoto
    split
    · exact .cons (.inl rfl) .nil
    · rename_i l hl
      exact .cons (.inr ⟨name, target, l, rfl, hl, rfl⟩) .nil
  | .var _ | .label .. | .foreign _ => .cons (.inl rfl) .nil

theorem leads_checkElse (loops n : Nat) : (o : Option Stmt) →
    List.Forall₂ (Leads s.catalog) (flattenElse o) (flattenElse ((checkElse s loops n o).after id))
  | some (.ifThen c body braces otherwise span) => by
    have hcheck := leads_check loops n (ifThen c body braces otherwise span)
    have hif : (ifThen c body braces otherwise span).isIf = true := rfl
    have hisIf := isIf_check s loops n hif
    rw [checkElse_of_isIf hif]
    cases hc : (ifThen c body braces otherwise span).check s loops n with
    | error left =>
      rw [hc] at hcheck
      rw [flattenElse_ifThen, Checked.after, flattenElse_of_isIf (hisIf.of_error hc)]
      exact hcheck
    | ok branch =>
      rw [hc] at hcheck
      rw [flattenElse_ifThen, Checked.after, id, flattenElse_of_isIf (hisIf.of_ok hc)]
      exact hcheck
  | some (.block body _) => by
    have hbody := leads_checkAll loops n body
    rw [checkElse]
    cases hb : checkAll s loops n body with
    | error left | ok body' =>
      rw [hb] at hbody
      exact hbody
  | some (.var _) | some (.assign ..) | some (.call ..) | some (.whileDo ..) | some (.breakLoop _)
  | some (.continueLoop _) | some (.label ..) | some (.goto ..) | some (.foreign _) | none => .nil

theorem leads_checkAll (loops n : Nat) : (ss : List Stmt) →
    List.Forall₂ (Leads s.catalog) (flattenAll ss) (flattenAll ((checkAll s loops n ss).after id))
  | [] => .nil
  | stmt :: rest => by
    have hstmt := leads_check loops n stmt
    have hrest := leads_checkAll loops (n + stmt.size) rest
    rw [checkAll]
    cases hs : stmt.check s loops n with
    | error left =>
      rw [hs] at hstmt
      exact leads_append hstmt (leads_refl _)
    | ok stmt' =>
      rw [hs] at hstmt
      cases hr : checkAll s loops (n + stmt.size) rest with
      | error left | ok rest' =>
        rw [hr] at hrest
        exact leads_append hstmt hrest

end

end

/-! ## The numbers of labels -/

/-- A label is declared with the number that it has among the statements. -/
theorem labels_collect (scope : LocalScope) (n : Nat) (ss : List Stmt) :
    ∀ x ∈ (collect c scope n ss).scope.symbols, x.kind = .label →
      x ∈ scope.symbols ∨ ∃ j index, x.order = (n + j : Nat) ∧ (ss.map outline)[j]? = some (.label x.name index) := by
  induction ss generalizing scope n with
  | nil => exact fun x hx _ => .inl hx
  | cons s ss ih =>
    have hbehind {scope' : LocalScope} {x : Symbol} (hx : x ∈ (collect c scope' (n + 1) ss).scope.symbols) (hkind : x.kind = .label) :
        x ∈ scope'.symbols ∨ ∃ j index, x.order = (n + j : Nat) ∧ ((s :: ss).map outline)[j]? = some (.label x.name index) := by
      refine (ih scope' (n + 1) x hx hkind).imp_right fun ⟨j, index, horder, hlabel⟩ => ⟨j + 1, index, ?_, hlabel⟩
      rw [horder, Nat.add_assoc, Nat.add_comm 1]
    rw [collect]
    split
    · exact fun x hx _ => .inl hx
    · exact fun x => hbehind
    · rename_i symbol hsymbol
      split
      · exact fun x hx _ => .inl hx
      · rename_i scope' hadd
        intro x hx hkind
        refine (hbehind hx hkind).elim (fun hx => ?_) .inr
        unfold LocalScope.add LocalScope.declare at hadd
        split at hadd
        · cases hadd
        · obtain rfl := Except.ok.inj hadd
          refine (List.mem_append.mp hx).imp_right fun hx => ⟨0, ?_⟩
          obtain rfl := List.mem_singleton.mp hx
          cases s with
          | label name index span =>
            obtain rfl := Option.some.inj (Except.ok.inj hsymbol)
            exact ⟨index, rfl, rfl⟩
          | var d =>
            obtain ⟨t, -, h⟩ := Except.bind_eq_ok.mp hsymbol
            obtain rfl := Option.some.inj (Except.ok.inj h)
            cases hkind
          | ifThen _ _ braces _ _ | whileDo _ _ braces _ => cases braces <;> cases hsymbol
          | assign _ _ _ | call _ _ | breakLoop _ | continueLoop _ | goto _ _ _ | block _ _ | foreign _ => cases hsymbol

/-! ## Bodies -/

/-- Every label has its own number, and every jump, as far as it has a number, the number of the label that it names.
-/
structure AreLinked (ss : List Stmt) : Prop where
  label : ∀ (n : Nat) name index, (ss.map outline)[n]? = some (.label name index) → index = some n
  goto : ∀ (n : Nat) name target, (ss.map outline)[n]? = some (.goto name (some target)) →
    (ss.map outline)[target]? = some (.label name (some target))

theorem areLinked_nil : AreLinked [] := ⟨nofun, nofun⟩

/-- No jump has a number. -/
def AreUnlinked (ss : List Stmt) : Prop := ∀ s ∈ ss, ∀ name target, s.outline ≠ .goto name (some target)

theorem areUnlinked_append {xs ys : List Stmt} : AreUnlinked (xs ++ ys) ↔ AreUnlinked xs ∧ AreUnlinked ys := List.forall_mem_append

mutual

/-- Trees that stay the same when their notes are taken out have no numbers in jumps. -/
theorem areUnlinked_of_strip : (s : Stmt) → s.strip true = s.strip false → AreUnlinked s.flatten
  | .goto name target _, h => by
    obtain rfl : target = none := (Stmt.goto.inj h).2.1
    exact List.forall_mem_singleton.mpr nofun
  | .ifThen _ body _ otherwise _, h => by
    obtain ⟨-, hbody, -, helse, -⟩ := Stmt.ifThen.inj h
    exact forall_flatten_ifThen.mpr ⟨nofun, areUnlinked_of_stripAll body hbody, areUnlinked_of_stripElse otherwise helse⟩
  | .whileDo _ body _ _, h => forall_flatten_whileDo.mpr ⟨nofun, areUnlinked_of_stripAll body (Stmt.whileDo.inj h).2.1⟩
  | .block body _, h => forall_flatten_block.mpr ⟨nofun, areUnlinked_of_stripAll body (Stmt.block.inj h).1⟩
  | .var _, _ | .assign .., _ | .call .., _ | .breakLoop _, _ | .continueLoop _, _ | .label .., _ | .foreign _, _ =>
    List.forall_mem_singleton.mpr nofun

theorem areUnlinked_of_stripElse : (o : Option Stmt) → stripElse true o = stripElse false o → AreUnlinked (flattenElse o)
  | some (.ifThen _ body _ otherwise _), h => by
    obtain ⟨-, hbody, -, helse, -⟩ := Stmt.ifThen.inj (Option.some.inj h)
    exact forall_flatten_ifThen.mpr ⟨nofun, areUnlinked_of_stripAll body hbody, areUnlinked_of_stripElse otherwise helse⟩
  | some (.block body _), h => areUnlinked_of_stripAll body (Stmt.block.inj (Option.some.inj h)).1
  | some (.var _), _ | some (.assign ..), _ | some (.call ..), _ | some (.whileDo ..), _ | some (.breakLoop _), _
  | some (.continueLoop _), _ | some (.label ..), _ | some (.goto ..), _ | some (.foreign _), _ | none, _ => List.forall_mem_nil _

theorem areUnlinked_of_stripAll : (ss : List Stmt) → stripAll true ss = stripAll false ss → AreUnlinked (flattenAll ss)
  | [], _ => List.forall_mem_nil _
  | s :: ss, h => by
    obtain ⟨hs, hss⟩ := List.cons.inj h
    exact areUnlinked_append.mpr ⟨areUnlinked_of_strip s hs, areUnlinked_of_stripAll ss hss⟩

end

/-- Statements are linked as far as they are read if numbers were written into labels and then into jumps. -/
theorem areLinked_of_leads {count : Nat} {fs ns ss : List Stmt} (hunlinked : AreUnlinked fs)
    (hnumbered : ns.map outline = Outline.numberAll count 0 (fs.map outline)) (hleads : List.Forall₂ (Leads c) ns ss)
    (hlabels : ∀ name l, c.label? name = some l → ∃ j index, l.order = (j : Nat) ∧ j < count
      ∧ (fs.map outline)[j]? = some (.label name index)) : AreLinked (ss.take count) := by
  have hread (n : Nat) : (ns.map outline)[n]? = ((fs.map outline)[n]?).map (Outline.number count n) := by
    rw [hnumbered, Outline.getElem?_numberAll, Nat.zero_add]
  have hkept {n : Nat} {o : Outline} (h : ((ss.take count).map outline)[n]? = some o) : n < count
      ∧ ((ns.map outline)[n]? = some o ∨ ∃ name target l, (ns.map outline)[n]? = some (.goto name target) ∧ c.label? name = some l
        ∧ o = .goto name (some l.order.toNat)) := by
    rw [List.map_take, List.getElem?_take] at h
    split at h
    · rename_i hn
      refine ⟨hn, ?_⟩
      rw [List.getElem?_map, Option.map_eq_some_iff] at h
      obtain ⟨s', hs', rfl⟩ := h
      obtain ⟨hlt, rfl⟩ := List.getElem?_eq_some_iff.mp hs'
      have hlt' : n < ns.length := hleads.length_eq ▸ hlt
      rw [List.getElem?_map, List.getElem?_eq_getElem hlt', Option.map_some]
      obtain h | ⟨name, target, l, h, hl, ho⟩ := hleads.get hlt' hlt
      · exact .inl (congrArg some h.symm)
      · exact .inr ⟨name, target, l, congrArg some h, hl, ho⟩
    · cases h
  refine ⟨fun n name index h => ?_, fun n name target h => ?_⟩
  · obtain ⟨hn, h | ⟨_, _, _, -, -, h⟩⟩ := hkept h
    · rw [hread, Option.map_eq_some_iff] at h
      obtain ⟨o, -, ho⟩ := h
      cases o with
      | label name' index' =>
        rw [Outline.number, if_pos hn] at ho
        exact (Outline.label.inj ho).2.symm
      | block | goto _ _ | other => cases ho
    · cases h
  · obtain ⟨-, h | ⟨name', target', l, -, hl, h⟩⟩ := hkept h
    · rw [hread, Option.map_eq_some_iff] at h
      obtain ⟨o, ho, h⟩ := h
      rw [List.getElem?_map, Option.map_eq_some_iff] at ho
      obtain ⟨s, hs, rfl⟩ := ho
      refine absurd ?_ (hunlinked s (List.mem_of_getElem? hs) name target)
      cases hs' : s.outline with
      | goto _ _ => rwa [hs'] at h
      | block | label _ _ | other =>
        rw [hs'] at h
        cases h
    · obtain ⟨rfl, ht⟩ := Outline.goto.inj h
      obtain ⟨j, index, horder, hj, hlabel⟩ := hlabels name l hl
      obtain rfl : target = j := by rw [Option.some.inj ht, horder, Int.toNat_natCast]
      have hlabelled : (ns.map outline)[target]? = some (.label name (some target)) := by
        rw [hread, hlabel, Option.map_some, Outline.number, if_pos hj]
      rw [List.getElem?_map, Option.map_eq_some_iff] at hlabelled
      obtain ⟨s, hs, hso⟩ := hlabelled
      obtain ⟨hlt, rfl⟩ := List.getElem?_eq_some_iff.mp hs
      have hlt' : target < ss.length := hleads.length_eq ▸ hlt
      rw [List.map_take, List.getElem?_take, if_pos hj, List.getElem?_map, List.getElem?_eq_getElem hlt', Option.map_some]
      obtain h | ⟨_, _, _, h, -⟩ := hleads.get hlt hlt'
      · exact congrArg some (h.trans hso)
      · cases h.symm.trans hso

end Stmt

namespace FuncDecl

variable {b : Builtins} {c : Catalog} {s : Signature} {d : FuncDecl}

theorem areLinked_workStatements (h : Stmt.AreUnlinked (Stmt.flattenAll d.body)) {scope : LocalScope}
    (hscope : ∀ x ∈ scope.symbols, x.kind ≠ .label) :
    Stmt.AreLinked (d.workStatements b c (Stmt.collect c scope 0 (Stmt.flattenAll d.body))).statements := by
  have hnumbered := Stmt.outlines_numberAll (Stmt.collect c scope 0 (Stmt.flattenAll d.body)).count 0 d.body
  have hlabels := Stmt.labels_collect (c := c) scope 0 (Stmt.flattenAll d.body)
  have hcount (hnone : (Stmt.collect c scope 0 (Stmt.flattenAll d.body)).halt = none) := Stmt.count_collect hnone
  generalize Stmt.collect c scope 0 (Stmt.flattenAll d.body) = collected at hnumbered hlabels hcount
  unfold workStatements
  dsimp only
  cases hh : collected.halt with
  | some halt => exact Stmt.areLinked_of_leads (c := {}) h hnumbered (Stmt.leads_refl _) fun _ _ hl => (nomatch hl)
  | none =>
    have hleads := Stmt.leads_checkAll ⟨b, c.within collected.scope, d.name⟩ 0 0 (Stmt.numberAll collected.count 0 d.body)
    have hlinked := Stmt.areLinked_of_leads h hnumbered hleads fun name l hl => by
      obtain ⟨hget, hkind⟩ := Option.filter_eq_some_iff.mp hl
      have hget : collected.scope.get? name = some l := hget
      obtain rfl : l.name = name := by simpa using List.find?_some hget
      obtain hx | ⟨j, index, horder, hlabel⟩ := hlabels l (List.mem_of_find?_eq_some hget) (of_decide_eq_true hkind)
      · exact absurd (of_decide_eq_true hkind) (hscope l hx)
      · refine ⟨j, index, by rw [horder, Nat.zero_add], ?_, hlabel⟩
        rw [hcount hh, Nat.zero_add, ← List.length_map (f := Stmt.outline)]
        exact (List.getElem?_eq_some_iff.mp hlabel).1
    dsimp only
    split
    all_goals
      rename_i hc
      rw [hc] at hlinked
      exact hlinked

/-- What has been read of a body that comes without numbers is linked, wherever the work on it ends. -/
theorem areLinked_work (h : Stmt.AreUnlinked (Stmt.flattenAll d.body)) : Stmt.AreLinked (d.work b c s).statements := by
  have hadd {x : Symbol} (hx : x ∈ (LocalScope.addAll { function := d.name } (d.headSymbols s)).1.symbols) :=
    LocalScope.mem_addAll hx
  unfold work
  generalize LocalScope.addAll { function := d.name } (d.headSymbols s) = added at hadd
  obtain ⟨scope, halt⟩ := added
  cases halt with
  | some halt => exact Stmt.areLinked_nil
  | none =>
    dsimp only
    split
    · exact Stmt.areLinked_nil
    · refine areLinked_workStatements h fun x hx => ?_
      obtain hx | ⟨y, owner, hy, rfl⟩ := hadd hx
      · cases hx
      · obtain ⟨-, hkind | hkind, -⟩ := mem_headSymbols hy
        all_goals
          intro hlabel
          cases hkind.symm.trans hlabel

end FuncDecl

end FlatScope
