/-
  Results that may be errors. A computation in several steps succeeds exactly if each step does; what it does to errors
  on the way is of no concern for that.
-/
import FlatScope.Resolution.Problem

namespace Except

variable {ε ε' α β : Type} {x : Except ε α} {b : β} {a : α}

theorem bind_eq_ok {f : α → Except ε β} : x >>= f = .ok b ↔ ∃ a, x = .ok a ∧ f a = .ok b := by
  cases x with
  | error e => exact iff_of_false nofun fun h => nomatch h.choose_spec.1
  | ok a => exact ⟨fun h => ⟨a, rfl, h⟩, fun ⟨_, ha, h⟩ => Except.ok.inj ha ▸ h⟩

theorem map_eq_ok {f : α → β} : f <$> x = .ok b ↔ ∃ a, x = .ok a ∧ f a = b := by
  cases x with
  | error e => exact iff_of_false nofun fun h => nomatch h.choose_spec.1
  | ok a => exact ⟨fun h => ⟨a, rfl, Except.ok.inj h⟩, fun ⟨_, ha, h⟩ => Except.ok.inj ha ▸ congrArg Except.ok h⟩

theorem mapError_eq_ok {f : ε → ε'} : x.mapError f = .ok a ↔ x = .ok a := by
  cases x with
  | error e => exact iff_of_false nofun nofun
  | ok b => exact ⟨fun h => congrArg Except.ok (Except.ok.inj h), fun h => congrArg Except.ok (Except.ok.inj h)⟩

theorem bind_eq_error {f : α → Except ε β} {e : ε} :
    x >>= f = .error e ↔ x = .error e ∨ ∃ a, x = .ok a ∧ f a = .error e := by
  cases x with
  | error e' =>
    constructor
    · exact fun h => .inl (congrArg Except.error (Except.error.inj h))
    · rintro (h | ⟨_, h, -⟩)
      · exact congrArg Except.error (Except.error.inj h)
      · cases h
  | ok a =>
    constructor
    · exact fun h => .inr ⟨a, rfl, h⟩
    · rintro (h | ⟨_, ha, h⟩)
      · cases h
      · exact Except.ok.inj ha ▸ h

theorem mapError_eq_error {f : ε → ε'} {e : ε'} : x.mapError f = .error e ↔ ∃ e', x = .error e' ∧ f e' = e := by
  cases x with
  | error e' => exact ⟨fun h => ⟨e', rfl, Except.error.inj h⟩, fun ⟨_, h, he⟩ => Except.error.inj h ▸ congrArg Except.error he⟩
  | ok a => exact iff_of_false nofun fun h => nomatch h.choose_spec.1

/-- A list of computations that ends in an error has one that does. -/
theorem exists_error_of_mapM {f : α → Except ε β} {e : ε} (xs : List α) (h : xs.mapM f = .error e) :
    ∃ x ∈ xs, f x = .error e := by
  induction xs with
  | nil => cases h
  | cons x xs ih =>
    rw [List.mapM_cons, bind_eq_error] at h
    obtain h | ⟨y, -, h⟩ := h
    · exact ⟨x, List.mem_cons_self, h⟩
    · obtain h | ⟨ys, -, h⟩ := bind_eq_error.mp h
      · obtain ⟨x', hx', h⟩ := ih h
        exact ⟨x', List.mem_cons_of_mem x hx', h⟩
      · cases h

theorem length_of_mapM {f : α → Except ε β} (xs : List α) {ys : List β} (h : xs.mapM f = .ok ys) :
    ys.length = xs.length := by
  induction xs generalizing ys with
  | nil =>
    obtain rfl := Except.ok.inj h
    rfl
  | cons x xs ih =>
    rw [List.mapM_cons, bind_eq_ok] at h
    obtain ⟨y, -, h⟩ := h
    obtain ⟨ys', hys, h⟩ := bind_eq_ok.mp h
    obtain rfl := Except.ok.inj h
    rw [List.length_cons, List.length_cons, ih hys]

theorem pure_eq_ok {a b : α} : (pure a : Except ε α) = .ok b ↔ a = b := ⟨Except.ok.inj, congrArg Except.ok⟩

theorem toOption_eq_some_iff : x.toOption = some a ↔ x = .ok a := by
  cases x with
  | error e => exact iff_of_false nofun nofun
  | ok b => exact ⟨fun h => congrArg Except.ok (Option.some.inj h), fun h => congrArg some (Except.ok.inj h)⟩

theorem toOption_bind (x : Except ε α) (f : α → Except ε β) :
    (x >>= f).toOption = x.toOption.bind fun a => (f a).toOption := by
  cases x <;> rfl

theorem toOption_mapError (x : Except ε α) (f : ε → ε') : (x.mapError f).toOption = x.toOption := by
  cases x <;> rfl

end Except

theorem FlatScope.orElse_eq_none_iff {α : Type} {a b : Option α} : (a <|> b) = none ↔ a = none ∧ b = none := by
  cases a with
  | none => exact (and_iff_right rfl).symm
  | some a => exact iff_of_false nofun fun h => nomatch h.1

/-- What is found by a key that nothing else has. -/
theorem FlatScope.find?_key_eq_some_iff {α : Type} {key : α → String} {xs : List α} (h : (xs.map key).Nodup)
    {name : String} {x : α} : xs.find? (fun x => key x = name) = some x ↔ x ∈ xs ∧ key x = name := by
  constructor
  · intro hf
    exact ⟨List.mem_of_find?_eq_some hf, by simpa using List.find?_some hf⟩
  · rintro ⟨hm, rfl⟩
    induction xs with
    | nil => cases hm
    | cons y ys ih =>
      rw [List.map_cons, List.nodup_cons] at h
      rw [List.find?_cons]
      obtain rfl | hm := List.mem_cons.mp hm
      · rw [decide_eq_true rfl]
      · have hne : key y ≠ key x := fun he => h.1 (he ▸ List.mem_map_of_mem hm)
        rw [decide_eq_false hne]
        exact ih h.2 hm
