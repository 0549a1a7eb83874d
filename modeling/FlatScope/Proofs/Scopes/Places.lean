/-
  Where statements stand. A statement stands in a body directly or as a part of a statement that stands there
  (`Stmt.Stands`), at the address that its way down gives it. Reading a body gives each of its statements once, in the order
  of the addresses (`Stmt.isReading_flattenAll`).
-/
import FlatScope.Proofs.Totality.Numbers

namespace FlatScope

namespace Stmt

/-- A statement that stands directly inside another one, and the way to it, with the last turn first. What follows an `else`
is a part itself if it is an `if`, and has parts if it is a block. -/
inductive Part : Stmt → List Nat → Stmt → Prop
  | inIf {c : Expr} {body : List Stmt} {braces : Braces} {otherwise : Option Stmt} {span : Span} {k : Nat} {s : Stmt}
      (hs : body[k]? = some s) : Part (.ifThen c body braces otherwise span) [k, 0] s
  | elseIf {c c' : Expr} {body body' : List Stmt} {braces braces' : Braces} {otherwise : Option Stmt} {span span' : Span} :
    Part (.ifThen c body braces (some (.ifThen c' body' braces' otherwise span')) span) [1]
      (.ifThen c' body' braces' otherwise span')
  | inElse {c : Expr} {body body' : List Stmt} {braces : Braces} {span span' : Span} {k : Nat} {s : Stmt}
      (hs : body'[k]? = some s) : Part (.ifThen c body braces (some (.block body' span')) span) [k, 1] s
  | inWhile {c : Expr} {body : List Stmt} {braces : Braces} {span : Span} {k : Nat} {s : Stmt} (hs : body[k]? = some s) :
    Part (.whileDo c body braces span) [k, 0] s
  | inBlock {body : List Stmt} {span : Span} {k : Nat} {s : Stmt} (hs : body[k]? = some s) : Part (.block body span) [k, 0] s

/-- The statements that stand in a body, at any depth, with their addresses. -/
inductive Stands (body : List Stmt) : Address → Stmt → Prop
  | top {k : Nat} {s : Stmt} (hs : body[k]? = some s) : Stands body [k] s
  | inside {a : Address} {way : List Nat} {s t : Stmt} (h : Stands body a s) (ht : s.Part way t) : Stands body (way ++ a) t

/-- These are the statements that stand in a body, each of them once and in reading order. -/
def IsReading (body ss : List Stmt) : Prop :=
  ∃ places : List (Address × Stmt), places.map Prod.snd = ss ∧ places.Pairwise (fun x y => x.1.Before y.1)
    ∧ ∀ a s, (a, s) ∈ places ↔ Stands body a s

/-! ## Statements with their addresses -/

/-- A statement and those inside it, with their addresses, in the order of their numbers. -/
def places (a : Address) (s : Stmt) : List (Address × Stmt) := (s.addresses a).zip s.flatten

def placesElse (a : Address) (o : Option Stmt) : List (Address × Stmt) := (addressesElse a o).zip (flattenElse o)

/-- The statements of a list, the first of which is the one with position `k`, with their addresses. -/
def placesAll (a : Address) (k : Nat) (ss : List Stmt) : List (Address × Stmt) := (addressesAll a k ss).zip (flattenAll ss)

variable {a x : Address} {k : Nat} {s t u : Stmt} {body ss : List Stmt} {way : List Nat}

theorem places_ifThen (a : Address) (c : Expr) (body : List Stmt) (braces : Braces) (o : Option Stmt) (span : Span) :
    places a (.ifThen c body braces o span)
      = (a, .ifThen c body braces o span) :: (placesAll (0 :: a) 0 body ++ placesElse (1 :: a) o) := by
  have hlength : (addressesAll (0 :: a) 0 body).length = (flattenAll body).length := by
    rw [length_addressesAll, length_flattenAll]
  rw [places, addresses, flatten, List.cons_append, List.zip_cons_cons, List.zip_append hlength]
  rfl

theorem places_whileDo (a : Address) (c : Expr) (body : List Stmt) (braces : Braces) (span : Span) :
    places a (.whileDo c body braces span) = (a, .whileDo c body braces span) :: placesAll (0 :: a) 0 body := by
  rw [places, addresses, flatten, List.zip_cons_cons]
  rfl

theorem places_block (a : Address) (body : List Stmt) (span : Span) :
    places a (.block body span) = (a, .block body span) :: placesAll (0 :: a) 0 body := by
  rw [places, addresses, flatten, List.zip_cons_cons]
  rfl

/-- An `if` behind an `else` has the address of what is there. -/
theorem placesElse_ifThen (a : Address) (c : Expr) (body : List Stmt) (braces : Braces) (o : Option Stmt) (span : Span) :
    placesElse a (some (.ifThen c body braces o span)) = places a (.ifThen c body braces o span) := by
  rw [placesElse, places, addressesElse, addresses, flattenElse, flatten]

theorem placesElse_block (a : Address) (body : List Stmt) (span : Span) :
    placesElse a (some (.block body span)) = placesAll a 0 body := by
  rw [placesElse, addressesElse, flattenElse, placesAll]

theorem placesAll_cons (a : Address) (k : Nat) (s : Stmt) (ss : List Stmt) :
    placesAll a k (s :: ss) = places (k :: a) s ++ placesAll a (k + 1) ss := by
  have hlength : (s.addresses (k :: a)).length = s.flatten.length := by rw [length_addresses, length_flatten]
  rw [placesAll, addressesAll, flattenAll, List.zip_append hlength]
  rfl

theorem map_snd_placesAll (a : Address) (k : Nat) (ss : List Stmt) : (placesAll a k ss).map Prod.snd = flattenAll ss := by
  rw [placesAll, List.map_snd_zip]
  rw [length_addressesAll, length_flattenAll]

theorem map_fst_placesAll (a : Address) (k : Nat) (ss : List Stmt) :
    (placesAll a k ss).map Prod.fst = addressesAll a k ss := by
  rw [placesAll, List.map_fst_zip]
  rw [length_addressesAll, length_flattenAll]

/-! ## Only what stands in a body is read -/

mutual

theorem stands_of_mem_places (a : Address) : (s : Stmt) → Stands body a s → ∀ x t, (x, t) ∈ places a s → Stands body x t
  | .ifThen c b braces o span, h, x, t, hx => by
    rw [places_ifThen, List.mem_cons, List.mem_append] at hx
    obtain hx | hx | hx := hx
    · obtain ⟨rfl, rfl⟩ := Prod.mk.inj hx
      exact h
    · refine stands_of_mem_placesAll (0 :: a) 0 b (fun j s hs => ?_) x t hx
      rw [Nat.zero_add]
      exact h.inside (.inIf hs)
    · refine stands_of_mem_placesElse (1 :: a) o ?_ ?_ x t hx
      · rintro c' b' braces' o' span' rfl
        exact h.inside .elseIf
      · rintro b' span' rfl j s hs
        exact h.inside (.inElse hs)
  | .whileDo c b braces span, h, x, t, hx => by
    rw [places_whileDo, List.mem_cons] at hx
    obtain hx | hx := hx
    · obtain ⟨rfl, rfl⟩ := Prod.mk.inj hx
      exact h
    · refine stands_of_mem_placesAll (0 :: a) 0 b (fun j s hs => ?_) x t hx
      rw [Nat.zero_add]
      exact h.inside (.inWhile hs)
  | .block b span, h, x, t, hx => by
    rw [places_block, List.mem_cons] at hx
    obtain hx | hx := hx
    · obtain ⟨rfl, rfl⟩ := Prod.mk.inj hx
      exact h
    · refine stands_of_mem_placesAll (0 :: a) 0 b (fun j s hs => ?_) x t hx
      rw [Nat.zero_add]
      exact h.inside (.inBlock hs)
  | .var _, h, x, t, hx | .assign .., h, x, t, hx | .call .., h, x, t, hx | .breakLoop _, h, x, t, hx
  | .continueLoop _, h, x, t, hx | .label .., h, x, t, hx | .goto .., h, x, t, hx | .foreign _, h, x, t, hx => by
    obtain ⟨rfl, rfl⟩ := Prod.mk.inj (List.mem_singleton.mp hx)
    exact h

theorem stands_of_mem_placesElse (a : Address) : (o : Option Stmt) →
    (∀ c b braces o' span, o = some (.ifThen c b braces o' span) → Stands body a (.ifThen c b braces o' span)) →
    (∀ b span, o = some (.block b span) → ∀ j s, b[j]? = some s → Stands body (j :: a) s) →
    ∀ x t, (x, t) ∈ placesElse a o → Stands body x t
  | some (.ifThen c b braces o span), h, _, x, t, hx => by
    rw [placesElse_ifThen] at hx
    exact stands_of_mem_places a (.ifThen c b braces o span) (h c b braces o span rfl) x t hx
  | some (.block b span), _, h, x, t, hx => by
    rw [placesElse_block] at hx
    refine stands_of_mem_placesAll a 0 b (fun j s hs => ?_) x t hx
    rw [Nat.zero_add]
    exact h b span rfl j s hs
  | some (.var _), _, _, _, _, hx | some (.assign ..), _, _, _, _, hx | some (.call ..), _, _, _, _, hx
  | some (.whileDo ..), _, _, _, _, hx | some (.breakLoop _), _, _, _, _, hx | some (.continueLoop _), _, _, _, _, hx
  | some (.label ..), _, _, _, _, hx | some (.goto ..), _, _, _, _, hx | some (.foreign _), _, _, _, _, hx
  | none, _, _, _, _, hx => nomatch hx

theorem stands_of_mem_placesAll (a : Address) (k : Nat) : (ss : List Stmt) →
    (∀ j s, ss[j]? = some s → Stands body ((k + j) :: a) s) → ∀ x t, (x, t) ∈ placesAll a k ss → Stands body x t
  | [], _, _, _, hx => nomatch hx
  | s :: ss, h, x, t, hx => by
    rw [placesAll_cons, List.mem_append] at hx
    obtain hx | hx := hx
    · exact stands_of_mem_places (k :: a) s (h 0 s rfl) x t hx
    · refine stands_of_mem_placesAll a (k + 1) ss (fun j s hs => ?_) x t hx
      rw [Nat.add_right_comm]
      exact h (j + 1) s hs

end

/-! ## All that stands in a body is read -/

theorem mem_places_self (a : Address) (s : Stmt) : (a, s) ∈ places a s := by
  cases s with
  | ifThen c body braces o span =>
    rw [places_ifThen]
    exact List.mem_cons_self
  | whileDo c body braces span =>
    rw [places_whileDo]
    exact List.mem_cons_self
  | block body span =>
    rw [places_block]
    exact List.mem_cons_self
  | var _ | assign _ _ _ | call _ _ | breakLoop _ | continueLoop _ | label _ _ _ | goto _ _ _ | foreign _ =>
    exact List.mem_singleton.mpr rfl

theorem mem_placesAll_of_getElem? (a : Address) (k : Nat) {j : Nat} (h : ss[j]? = some s) :
    ((k + j) :: a, s) ∈ placesAll a k ss := by
  induction ss generalizing k j with
  | nil => exact nomatch h
  | cons s' ss ih =>
    rw [placesAll_cons, List.mem_append]
    cases j with
    | zero =>
      obtain rfl := Option.some.inj h
      exact .inl (mem_places_self (k :: a) _)
    | succ j =>
      refine .inr ?_
      rw [Nat.add_comm j, ← Nat.add_assoc]
      exact ih (k + 1) h

/-- The parts of a statement are read with it. -/
theorem mem_places_of_part (h : s.Part way t) (a : Address) : (way ++ a, t) ∈ places a s := by
  have hread {b : List Stmt} {k : Nat} (hs : b[k]? = some t) (a : Address) : (k :: a, t) ∈ placesAll a 0 b := by
    have hmem := mem_placesAll_of_getElem? a 0 hs
    rwa [Nat.zero_add] at hmem
  cases h with
  | inIf hs =>
    rw [places_ifThen]
    exact List.mem_cons_of_mem _ (List.mem_append_left _ (hread hs _))
  | elseIf =>
    rw [places_ifThen, placesElse_ifThen]
    exact List.mem_cons_of_mem _ (List.mem_append_right _ (mem_places_self _ _))
  | inElse hs =>
    rw [places_ifThen, placesElse_block]
    exact List.mem_cons_of_mem _ (List.mem_append_right _ (hread hs _))
  | inWhile hs =>
    rw [places_whileDo]
    exact List.mem_cons_of_mem _ (hread hs _)
  | inBlock hs =>
    rw [places_block]
    exact List.mem_cons_of_mem _ (hread hs _)

mutual

theorem places_subset_of_mem (a : Address) : (s : Stmt) → (x, t) ∈ places a s → places x t ⊆ places a s
  | .ifThen c b braces o span, hx => by
    rw [places_ifThen, List.mem_cons, List.mem_append] at hx
    obtain hx | hx | hx := hx
    · obtain ⟨rfl, rfl⟩ := Prod.mk.inj hx
      exact List.Subset.refl _
    · rw [places_ifThen]
      exact List.Subset.trans (places_subset_of_memAll _ 0 b hx) (List.Subset.trans (List.subset_append_left _ _) (List.subset_cons_self _ _))
    · rw [places_ifThen]
      exact List.Subset.trans (places_subset_of_memElse _ o hx) (List.Subset.trans (List.subset_append_right _ _) (List.subset_cons_self _ _))
  | .whileDo c b braces span, hx => by
    rw [places_whileDo, List.mem_cons] at hx
    obtain hx | hx := hx
    · obtain ⟨rfl, rfl⟩ := Prod.mk.inj hx
      exact List.Subset.refl _
    · rw [places_whileDo]
      exact List.Subset.trans (places_subset_of_memAll _ 0 b hx) (List.subset_cons_self _ _)
  | .block b span, hx => by
    rw [places_block, List.mem_cons] at hx
    obtain hx | hx := hx
    · obtain ⟨rfl, rfl⟩ := Prod.mk.inj hx
      exact List.Subset.refl _
    · rw [places_block]
      exact List.Subset.trans (places_subset_of_memAll _ 0 b hx) (List.subset_cons_self _ _)
  | .var _, hx | .assign .., hx | .call .., hx | .breakLoop _, hx | .continueLoop _, hx | .label .., hx | .goto .., hx
  | .foreign _, hx => by
    obtain ⟨rfl, rfl⟩ := Prod.mk.inj (List.mem_singleton.mp hx)
    exact List.Subset.refl _

theorem places_subset_of_memElse (a : Address) : (o : Option Stmt) → (x, t) ∈ placesElse a o → places x t ⊆ placesElse a o
  | some (.ifThen c b braces o span), hx => by
    rw [placesElse_ifThen] at hx ⊢
    exact places_subset_of_mem a (.ifThen c b braces o span) hx
  | some (.block b span), hx => by
    rw [placesElse_block] at hx ⊢
    exact places_subset_of_memAll a 0 b hx
  | some (.var _), hx | some (.assign ..), hx | some (.call ..), hx | some (.whileDo ..), hx | some (.breakLoop _), hx
  | some (.continueLoop _), hx | some (.label ..), hx | some (.goto ..), hx | some (.foreign _), hx | none, hx => nomatch hx

/-- What is read is read with all that is inside it. -/
theorem places_subset_of_memAll (a : Address) (k : Nat) : (ss : List Stmt) → (x, t) ∈ placesAll a k ss →
    places x t ⊆ placesAll a k ss
  | [], hx => nomatch hx
  | s :: ss, hx => by
    rw [placesAll_cons, List.mem_append] at hx
    rw [placesAll_cons]
    obtain hx | hx := hx
    · exact List.Subset.trans (places_subset_of_mem (k :: a) s hx) (List.subset_append_left _ _)
    · exact List.Subset.trans (places_subset_of_memAll a (k + 1) ss hx) (List.subset_append_right _ _)

end

theorem mem_placesAll_iff : (x, t) ∈ placesAll [] 0 body ↔ Stands body x t := by
  constructor
  · refine stands_of_mem_placesAll [] 0 body (fun j s hs => ?_) x t
    rw [Nat.zero_add]
    exact .top hs
  · intro h
    induction h with
    | @top k s hs =>
      have hmem := mem_placesAll_of_getElem? [] 0 hs
      rwa [Nat.zero_add] at hmem
    | inside _ ht ih => exact places_subset_of_memAll [] 0 body ih (mem_places_of_part ht _)

/-- Reading a body gives every statement that stands in it once, in reading order. -/
theorem isReading_flattenAll (body : List Stmt) : IsReading body (flattenAll body) := by
  refine ⟨placesAll [] 0 body, map_snd_placesAll [] 0 body, ?_, fun a s => mem_placesAll_iff⟩
  have hordered := ordered_addressesAll [] 0 body
  rw [← map_fst_placesAll, List.pairwise_map] at hordered
  exact hordered

end Stmt

end FlatScope
