/-
  Walks through bodies. The statements that a walk enters are the first of those that reading the body gives, in the same order,
  and each of them with the number of its place there; all that happens on the walk happens at the number of its own statement,
  and with the number of loops around it (`Stmt.follows_walkAll`). Nothing depends on the number that a nested body leaves behind,
  for a statement asks for it only in front of the bodies inside it.
-/
import FlatScope.Proofs.Scopes.Places
import FlatScope.Proofs.Walking.Expr

namespace FlatScope

/-! ## Where things happen -/

/-- How many loops a statement puts around its parts. -/
def Stmt.loopsInside : Stmt → Nat
  | .whileDo .. => 1
  | _ => 0

/-- The statements that stand in a body, at any depth, with their addresses and the number of loop bodies around them. -/
inductive Stmt.StandsIn (body : List Stmt) : Address → Stmt → Nat → Prop
  | top {k : Nat} {s : Stmt} (hs : body[k]? = some s) : StandsIn body [k] s 0
  | inside {a : Address} {way : List Nat} {s t : Stmt} {loops : Nat} (h : StandsIn body a s loops) (ht : s.Part way t) :
    StandsIn body (way ++ a) t (loops + s.loopsInside)

/-- Something that a statement does itself, and not one inside it. -/
def Act.Of (s : Stmt) : Act → Prop
  | enter t => t = s
  | look e => e ∈ Expr.partsAll s.exprs

/-- Something happens at the number of its own statement in the reading of a body, and with the number of loops around
it. -/
def Moment.IsTimely (body : List Stmt) (m : Moment) : Prop :=
  ∃ s, ((m.address, s), m.index) ∈ (Stmt.placesAll [] 0 body).zipIdx ∧ Stmt.StandsIn body m.address s m.loops ∧ m.act.Of s

/-- The statement that is entered, with its address and the number that the walk has for it. -/
def Moment.entered? (m : Moment) : Option ((Address × Stmt) × Nat) :=
  match m.act with
  | .enter s => some ((m.address, s), m.index)
  | .look _ => none

/-- The statements that a walk has entered. -/
def Walk.entered (w : Walk) : List ((Address × Stmt) × Nat) := w.moments.filterMap Moment.entered?

variable {α β γ δ : Type} {body : List Stmt} {a : Address} {i n loops : Nat} {stmt : Stmt}

/-- The number of a statement that is read is the one that its address is found by. -/
theorem Stmt.idxOf_address {x : Address × Stmt} (h : (x, n) ∈ (placesAll [] 0 body).zipIdx) :
    (addressesAll [] 0 body).idxOf x.1 = n := by
  have hn : (placesAll [] 0 body)[n]? = some x := List.mem_zipIdx_iff_getElem?.mp h
  have hget : (addressesAll [] 0 body)[n]? = some x.1 := by rw [← map_fst_placesAll, List.getElem?_map, hn, Option.map_some]
  obtain ⟨hlt, hget⟩ := List.getElem?_eq_some_iff.mp hget
  rw [← hget]
  exact (nodup_addressesAll [] 0 body).idxOf_getElem n hlt

namespace Walked

/-- A walk that begins at number `i` inside `loops` loops comes to `r`, having entered the statements of `places`, or
the first of them if it halts. It is left as many loops around as before, and all that happens is timely. -/
def Follows (body : List Stmt) (x : Walked α β) (i loops : Nat) (r : Checked α β) (places : List ((Address × Stmt) × Nat)) :
    Prop :=
  ∀ w : Walk, w.index = i → w.loops = loops → ∃ j ms, x w = (r, ⟨j, loops, w.moments ++ ms⟩)
    ∧ ms.filterMap Moment.entered? <+: places ∧ ((∃ y, r = .ok y) → ms.filterMap Moment.entered? = places)
    ∧ ∀ m ∈ ms, m.IsTimely body

variable {x : Walked α β} {r : Checked α β} {places places' : List ((Address × Stmt) × Nat)} {left : α → γ}
  {f : β → Walked γ δ} {r' : β → Checked γ δ}

/-- A walk that looks things up for the statement that it has entered. -/
theorem Looks.follows (hx : x.Looks a i r (· ∈ Expr.partsAll stmt.exprs))
    (hplace : ((a, stmt), i) ∈ (Stmt.placesAll [] 0 body).zipIdx) (hstands : Stmt.StandsIn body a stmt loops) :
    x.Follows body i loops r [] := by
  rintro w rfl rfl
  obtain ⟨es, hx, hes⟩ := hx w rfl
  have hentered : (es.map fun e => (⟨a, .look e, w.index, w.loops⟩ : Moment)).filterMap Moment.entered? = [] := by
    rw [List.filterMap_map, List.filterMap_eq_nil_iff]
    exact fun _ _ => rfl
  refine ⟨w.index, _, hx, hentered ▸ List.nil_prefix, fun _ => hentered, ?_⟩
  exact List.forall_mem_map.mpr fun e he => ⟨stmt, hplace, hstands, hes e he⟩

namespace Follows

theorem done (r : Checked α β) : (Walked.done r).Follows body i loops r [] := by
  rintro w rfl rfl
  exact ⟨w.index, [], by rw [List.append_nil]; rfl, List.nil_prefix, fun _ => rfl, List.forall_mem_nil _⟩

/-- A walk that goes on, whatever number it has by then. -/
theorem proceed (hx : x.Follows body i loops r places) (hf : ∀ y, ∀ j, (f y).Follows body j loops (r' y) places') :
    (x.proceed left f).Follows body i loops (r.proceed left r') (places ++ places') := by
  intro w hi hloops
  obtain ⟨j, ms, hx, hfront, hwhole, hms⟩ := hx w hi hloops
  rw [Walked.proceed, hx]
  cases r with
  | error e =>
    have hfailed : ¬∃ y, Checked.proceed (.error e) left r' = .ok y := by rintro ⟨_, ⟨⟩⟩
    exact ⟨j, ms, rfl, hfront.trans (List.prefix_append _ _), fun hok => absurd hok hfailed, hms⟩
  | ok y =>
    have hwhole := hwhole ⟨y, rfl⟩
    obtain ⟨k, ms', hf, hfront', hwhole', hms'⟩ := hf y j ⟨j, loops, w.moments ++ ms⟩ rfl rfl
    refine ⟨k, ms ++ ms', ?_, ?_, fun hok => ?_, List.forall_mem_append.mpr ⟨hms, hms'⟩⟩
    · rw [← List.append_assoc]
      exact hf
    · rw [List.filterMap_append, hwhole]
      exact List.prefix_append_right_inj _ |>.mpr hfront'
    · rw [List.filterMap_append, hwhole, hwhole' hok]

/-- A walk that does something with what it has come to. -/
theorem proceed_done (hx : x.Follows body i loops r places) :
    (x.proceed left fun y => Walked.done (r' y)).Follows body i loops (r.proceed left r') places := by
  rw [← places.append_nil]
  exact hx.proceed fun _ _ => .done _

/-- A walk that goes on at the statement at which it has looked things up. -/
theorem proceed_looks (hx : x.Looks a i r (· ∈ Expr.partsAll stmt.exprs))
    (hplace : ((a, stmt), i) ∈ (Stmt.placesAll [] 0 body).zipIdx) (hstands : Stmt.StandsIn body a stmt loops)
    (hf : ∀ y, ∀ j, (f y).Follows body j loops (r' y) places) :
    (x.proceed left f).Follows body i loops (r.proceed left r') places :=
  proceed (hx.follows hplace hstands) hf

/-- Wherever a walk has been before, it enters a statement by its number. -/
theorem enter (hplace : ((a, stmt), n) ∈ (Stmt.placesAll [] 0 body).zipIdx) (hstands : Stmt.StandsIn body a stmt loops)
    (hx : x.Follows body n loops r places) (i : Nat) :
    (Walked.enter (Stmt.addressesAll [] 0 body) a stmt x).Follows body i loops r (((a, stmt), n) :: places) := by
  rintro w - rfl
  have hindex : (Stmt.addressesAll [] 0 body).idxOf a = n := Stmt.idxOf_address hplace
  obtain ⟨j, ms, hx, hfront, hwhole, hms⟩ := hx ⟨n, w.loops, w.moments ++ [⟨a, .enter stmt, n, w.loops⟩]⟩ rfl rfl
  have htimely : (⟨a, .enter stmt, n, w.loops⟩ : Moment).IsTimely body := ⟨stmt, hplace, hstands, rfl⟩
  refine ⟨j, ⟨a, .enter stmt, n, w.loops⟩ :: ms, ?_, ?_, fun hok => ?_, List.forall_mem_cons.mpr ⟨htimely, hms⟩⟩
  · rw [Walked.enter, hindex, List.append_cons]
    exact hx
  · exact List.cons_prefix_cons.mpr ⟨rfl, hfront⟩
  · exact congrArg (_ :: ·) (hwhole hok)

theorem looping (hx : x.Follows body i (loops + 1) r places) : (Walked.looping x).Follows body i loops r places := by
  rintro w rfl rfl
  obtain ⟨j, ms, hx, hrest⟩ := hx { w with loops := w.loops + 1 } rfl rfl
  refine ⟨j, ms, ?_, hrest⟩
  rw [Walked.looping, hx]
  rfl

theorem countingLoops {f : Nat → Walked α β} (hf : (f loops).Follows body i loops r places) :
    (Walked.countingLoops f).Follows body i loops r places := by
  rintro w hi rfl
  exact hf w hi rfl

end Follows

end Walked

/-! ## Statements -/

namespace Stmt

open Walked

variable {s : Surroundings}

theorem length_placesAll (a : Address) (k : Nat) (ss : List Stmt) : (placesAll a k ss).length = sizes ss := by
  rw [placesAll, List.length_zip, length_addressesAll, length_flattenAll, Nat.min_self]

theorem length_places (a : Address) (stmt : Stmt) : (places a stmt).length = stmt.size := by
  rw [places, List.length_zip, length_addresses, length_flatten, Nat.min_self]

/-- These are numbered places of a body. -/
abbrev Within (body : List Stmt) (places : List ((Address × Stmt) × Nat)) : Prop :=
  ∀ p ∈ places, p ∈ (placesAll [] 0 body).zipIdx

/-! ### Checks as walks go through them -/

theorem check_ifThen (c : Expr) (b : List Stmt) (braces : Braces) (o : Option Stmt) (span : Span) :
    (ifThen c b braces o span).check s loops n = ((s.site n).checkCondition c).proceed (.ifThen · b braces o span) fun c' =>
      (checkAll s loops (n + 1) b).proceed (.ifThen c' · braces o span) fun b' =>
      (checkElse s loops (n + 1 + sizes b) o).proceed (.ifThen c' b' braces · span) fun o' =>
      .ok (.ifThen c' b' braces o' span) := by
  rw [check]
  cases (s.site n).checkCondition c with
  | error left => rfl
  | ok c' =>
    dsimp only [Checked.proceed]
    cases checkAll s loops (n + 1) b with
    | error left => rfl
    | ok b' =>
      dsimp only
      cases checkElse s loops (n + 1 + sizes b) o <;> rfl

theorem check_whileDo (c : Expr) (b : List Stmt) (braces : Braces) (span : Span) :
    (whileDo c b braces span).check s loops n = ((s.site n).checkCondition c).proceed (.whileDo · b braces span) fun c' =>
      (checkAll s (loops + 1) (n + 1) b).proceed (.whileDo c' · braces span) fun b' => .ok (.whileDo c' b' braces span) := by
  rw [check]
  cases (s.site n).checkCondition c with
  | error left => rfl
  | ok c' =>
    dsimp only [Checked.proceed]
    cases checkAll s (loops + 1) (n + 1) b <;> rfl

theorem check_block (b : List Stmt) (span : Span) :
    (block b span).check s loops n = (checkAll s loops (n + 1) b).proceed (.block · span) fun b' => .ok (.block b' span) := by
  rw [check]
  cases checkAll s loops (n + 1) b <;> rfl

theorem checkElse_ifThen (c : Expr) (b : List Stmt) (braces : Braces) (o : Option Stmt) (span : Span) :
    checkElse s loops n (some (.ifThen c b braces o span))
      = ((ifThen c b braces o span).check s loops n).proceed some fun branch => .ok (some branch) := by
  rw [checkElse_of_isIf rfl]
  cases (ifThen c b braces o span).check s loops n <;> rfl

theorem checkElse_block (b : List Stmt) (span : Span) : checkElse s loops n (some (.block b span))
    = (checkAll s loops n b).proceed (some <| .block · span) fun b' => .ok (some (.block b' span)) := by
  rw [checkElse]
  cases checkAll s loops n b <;> rfl

theorem checkAll_cons (stmt : Stmt) (rest : List Stmt) :
    checkAll s loops n (stmt :: rest) = (stmt.check s loops n).proceed (· :: rest) fun stmt' =>
      (checkAll s loops (n + stmt.size) rest).proceed (stmt' :: ·) fun rest' => .ok (stmt' :: rest') := by
  rw [checkAll]
  cases stmt.check s loops n with
  | error left => rfl
  | ok stmt' =>
    dsimp only [Checked.proceed]
    cases checkAll s loops (n + stmt.size) rest <;> rfl

/-! ### One step after another -/

/-- A statement with no others inside it. -/
theorem follows_simple {x : Walked Stmt Stmt} {r : Checked Stmt Stmt} (h : Within body [((a, stmt), n)])
    (hs : StandsIn body a stmt loops) (hx : x.Looks a n r (· ∈ Expr.partsAll stmt.exprs)) (i : Nat) :
    (enter (addressesAll [] 0 body) a stmt x).Follows body i loops r [((a, stmt), n)] :=
  have hplace := h _ List.mem_cons_self
  .enter hplace hs (hx.follows hplace hs) i

mutual

theorem follows_walk (a : Address) (n loops : Nat) : (stmt : Stmt) → Within body ((places a stmt).zipIdx n) →
    StandsIn body a stmt loops → ∀ i,
    (enter (addressesAll [] 0 body) a stmt (stmt.walkInside s (addressesAll [] 0 body) a)).Follows body i loops
      (stmt.check s loops n) ((places a stmt).zipIdx n)
  | .ifThen c b braces o span, h, hs => by
    rw [check_ifThen]
    rw [places_ifThen, List.zipIdx_cons, List.zipIdx_append, length_placesAll] at h ⊢
    obtain ⟨hplace, h⟩ := List.forall_mem_cons.mp h
    obtain ⟨hbody, helse⟩ := List.forall_mem_append.mp h
    have hcondition := looks_walkCondition (s := s) (a := a) (n := n) (e := c) fun _ he => List.mem_append_left [] he
    refine .enter hplace hs (.proceed_looks hcondition hplace hs fun c' i => ?_)
    refine (follows_walkAll (0 :: a) 0 (n + 1) loops b hbody (fun j t ht => ?_) i).proceed fun b' i => ?_
    · rw [Nat.zero_add]
      exact hs.inside (.inIf ht)
    · -- What follows the `else` stands in as many loops as the statement.
      refine (follows_walkElse (1 :: a) (n + 1 + sizes b) loops o helse ?_ ?_ i).proceed_done
      · rintro c' b' braces' o' span' rfl
        exact hs.inside .elseIf
      · rintro b' span' rfl j t ht
        exact hs.inside (.inElse ht)
  | .whileDo c b braces span, h, hs => by
    rw [check_whileDo]
    rw [places_whileDo, List.zipIdx_cons] at h ⊢
    obtain ⟨hplace, hbody⟩ := List.forall_mem_cons.mp h
    have hcondition := looks_walkCondition (s := s) (a := a) (n := n) (e := c) fun _ he => List.mem_append_left [] he
    refine .enter hplace hs (.proceed_looks hcondition hplace hs fun c' i => ?_)
    refine (Follows.looping (follows_walkAll (0 :: a) 0 (n + 1) (loops + 1) b hbody (fun j t ht => ?_) i)).proceed_done
    rw [Nat.zero_add]
    exact hs.inside (.inWhile ht)
  | .block b span, h, hs => by
    rw [check_block]
    rw [places_block, List.zipIdx_cons] at h ⊢
    obtain ⟨hplace, hbody⟩ := List.forall_mem_cons.mp h
    refine .enter hplace hs (Follows.proceed_done (follows_walkAll (0 :: a) 0 (n + 1) loops b hbody (fun j t ht => ?_) n))
    rw [Nat.zero_add]
    exact hs.inside (.inBlock ht)
  | .assign target value span, h, hs =>
    follows_simple h hs (looks_walkAssign (fun _ he => List.mem_append_left _ he)
      (fun _ he => List.mem_append_right _ (List.mem_append_left _ he)) span)
  | .call e span, h, hs => follows_simple h hs (looks_walkCall (fun _ he => List.mem_append_left _ he) span)
  | .breakLoop span, h, hs | .continueLoop span, h, hs => by
    rw [walkInside, check]
    exact .enter (h _ List.mem_cons_self) hs (.countingLoops (.done _))
  | .var _, h, hs | .label .., h, hs | .goto .., h, hs | .foreign _, h, hs => follows_simple h hs (.done _)

theorem follows_walkElse (a : Address) (n loops : Nat) : (o : Option Stmt) → Within body ((placesElse a o).zipIdx n) →
    (∀ c b braces o' span, o = some (.ifThen c b braces o' span) → StandsIn body a (.ifThen c b braces o' span) loops) →
    (∀ b span, o = some (.block b span) → ∀ j t, b[j]? = some t → StandsIn body (j :: a) t loops) → ∀ i,
    (walkElse s (addressesAll [] 0 body) a o).Follows body i loops (checkElse s loops n o) ((placesElse a o).zipIdx n)
  | some (.ifThen c b braces o span), h, hs, _ => by
    rw [checkElse_ifThen]
    rw [placesElse_ifThen] at h ⊢
    exact fun i => (follows_walk a n loops (.ifThen c b braces o span) h (hs c b braces o span rfl) i).proceed_done
  | some (.block b span), h, _, hs => by
    rw [checkElse_block]
    rw [placesElse_block] at h ⊢
    refine fun i => (follows_walkAll a 0 n loops b h (fun j t ht => ?_) i).proceed_done
    rw [Nat.zero_add]
    exact hs b span rfl j t ht
  | some (.var _), _, _, _ | some (.assign ..), _, _, _ | some (.call ..), _, _, _ | some (.whileDo ..), _, _, _
  | some (.breakLoop _), _, _, _ | some (.continueLoop _), _, _, _ | some (.label ..), _, _, _ | some (.goto ..), _, _, _
  | some (.foreign _), _, _, _ | none, _, _, _ => fun _ => .done _

/-- A walk through statements of a body, whatever number it has in front of them. -/
theorem follows_walkAll (a : Address) (k n loops : Nat) : (ss : List Stmt) → Within body ((placesAll a k ss).zipIdx n) →
    (∀ j t, ss[j]? = some t → StandsIn body ((k + j) :: a) t loops) → ∀ i,
    (walkAll s (addressesAll [] 0 body) a k ss).Follows body i loops (checkAll s loops n ss) ((placesAll a k ss).zipIdx n)
  | [], _, _ => fun _ => .done _
  | stmt :: rest, h, hs => by
    rw [checkAll_cons]
    rw [placesAll_cons, List.zipIdx_append, length_places] at h ⊢
    obtain ⟨hstmt, hrest⟩ := List.forall_mem_append.mp h
    refine fun i => (follows_walk (k :: a) n loops stmt hstmt (hs 0 stmt rfl) i).proceed fun stmt' i => ?_
    refine (follows_walkAll a (k + 1) (n + stmt.size) loops rest hrest (fun j t ht => ?_) i).proceed_done
    rw [Nat.add_right_comm]
    exact hs (j + 1) t ht

end

end Stmt

end FlatScope
