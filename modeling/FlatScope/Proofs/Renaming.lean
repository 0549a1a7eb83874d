/-
  Renaming. A unit whose names are exchanged for others, one for one, is resolved to what the unit itself is resolved to,
  with the names exchanged: nothing that resolving decides depends on a name but through whether it equals another one
  (`Program.resolve_renamed`). The language's own words and the builtins keep their names, and so does the result of a
  function, which is declared without being written.
-/
import FlatScope.Proofs.Grammar.WellFormed
import FlatScope.Proofs.Relabeling.Unit
import FlatScope.Proofs.Resolution.Runs
import FlatScope.Proofs.Typing.Unit

namespace FlatScope

instance : DecidablePred IsName := fun s =>
  inferInstanceAs (Decidable (Lexeme.word? s.toList = some s.toList.length ∧ Kind.ofKeyword? s = none))

/-- Other names for the names that a source can declare. What is done to other texts does not matter. -/
structure Renaming where
  name : String → String
  isName : ∀ s, IsName s → IsName (name s)
  injective : ∀ s t, IsName s → IsName t → name s = name t → s = t
  result : name resultName = resultName

/-! ## What is reserved is no name to be declared -/

theorem IsName.not_isTypeWord {s : String} (h : IsName s) : ¬IsTypeWord s := by
  rintro (rfl | rfl | rfl | rfl) <;> cases h.2

theorem IsName.isBuiltinName_eq_false {s : String} (h : IsName s) : isBuiltinName s = false := by
  have hword : Lexeme.word? s.toList = some s.toList.length := h.1
  unfold isBuiltinName
  cases hs : s.toList with
  | nil => rfl
  | cons c cs =>
    rw [hs] at hword
    by_cases hc : c = '_'
    · rw [hc] at hword
      cases hword
    · simp [hc]

namespace Renaming

/-- The name for a name; other texts stay. -/
def rename (ρ : Renaming) (s : String) : String := if IsName s then ρ.name s else s

/-- A renaming of a unit leaves everything where it is. -/
def relabeling (ρ : Renaming) : Relabeling where
  name := ρ.rename
  place := id
  injective := by
    intro s t h
    unfold rename at h
    by_cases hs : IsName s
    · by_cases ht : IsName t
      · rw [if_pos hs, if_pos ht] at h
        exact ρ.injective s t hs ht h
      · rw [if_pos hs, if_neg ht] at h
        exact absurd (h ▸ ρ.isName s hs) ht
    · by_cases ht : IsName t
      · rw [if_neg hs, if_pos ht] at h
        exact absurd (h ▸ ρ.isName t ht) hs
      · rwa [if_neg hs, if_neg ht] at h
  reserved := by
    rintro s (hs | rfl | hs)
    · exact if_neg fun hn => hn.not_isTypeWord hs
    · exact (ite_eq_right_iff.mpr fun _ => ρ.result)
    · refine if_neg fun hn => ?_
      rw [hn.isBuiltinName_eq_false] at hs
      cases hs
  nowhere := Relabeling.id_nowhere

end Renaming

/-! ## The standard builtins -/

/-- A type that is one of the primitive ones. -/
def Ty.isPrimitive : Ty → Bool
  | primitive _ => true
  | _ => false

theorem Ty.relabel_of_isPrimitive {φ : Relabeling} {t : Ty} (h : t.isPrimitive = true) : t.relabel φ = t := by
  cases t
  case primitive p => rfl
  all_goals cases h

theorem Builtins.isPrimitive_standard : Builtins.standard.all (fun f =>
    isBuiltinName f.1 && f.2.params.all Ty.isPrimitive && f.2.result.isPrimitive) = true := by
  decide +kernel

/-- The standard builtins have names and types that no labels change. -/
theorem Builtins.relabel_standard (φ : Relabeling) : Builtins.standard.relabel φ = Builtins.standard := by
  have h := List.all_eq_true.mp isPrimitive_standard
  refine (List.map_congr_left fun f hf => ?_).trans (List.map_id _)
  have hprimitive := h f hf
  simp only [Bool.and_eq_true] at hprimitive
  obtain ⟨⟨hname, hparams⟩, hresult⟩ := hprimitive
  obtain ⟨name, params, result⟩ := f
  have hps : params.map (Ty.relabel φ) = params :=
    (List.map_congr_left fun t ht => Ty.relabel_of_isPrimitive (List.all_eq_true.mp hparams t ht)).trans (List.map_id _)
  simp only [Signature.relabel, Relabeling.name_builtin hname, hps, Ty.relabel_of_isPrimitive hresult, id_eq]

theorem Builtins.lookup_standard (φ : Relabeling) (name : String) :
    Builtins.standard.lookup (φ.name name) = (Builtins.standard.lookup name).map (Signature.relabel φ) := by
  have h := Builtins.standard.lookup_relabel (φ := φ) name
  rwa [relabel_standard] at h

/-! ## Resolving -/

/-- A unit that is parsed is resolved in new names as in the old ones: to the same catalog, functions and tree in the
new names, with as many problems, of the same kinds and at the same places. -/
theorem Program.resolve_renamed {source : String} {file : Option String} {p : Program} (h : ofSource source file = .ok p)
    (ρ : Renaming) :
    ∃ r r', p.resolve = .ok r ∧ (p.relabel ρ.relabeling).resolve = .ok r'
      ∧ r'.problems.map (fun q => (q.cause.kind, q.span)) = r.problems.map (fun q => (q.cause.kind, q.span))
      ∧ r'.program = r.program.relabel ρ.relabeling ∧ r'.catalog = r.catalog.relabel ρ.relabeling
      ∧ r'.functions = r.functions.map (FunctionInfo.relabel ρ.relabeling) := by
  obtain ⟨r, -, hr, -⟩ := exists_resolve (isWellFormed_of_ofSource h) Builtins.standard
  have hrelabel := p.resolve_relabel (Builtins.lookup_standard ρ.relabeling)
  rw [hr] at hrelabel
  refine ⟨r, _, hr, Except.toOption_eq_some_iff.mp hrelabel, ?_, ?_, rfl, rfl⟩
  · rw [Resolution.problems_relabel, List.map_map]
    refine List.map_congr_left fun q _ => ?_
    exact Prod.ext (Problem.Cause.kind_relabel _ q.cause) rfl
  · simp only [Resolution.program, Resolution.relabel, Program.relabel, List.map_map]
    rfl

/-- The exchange of two names. -/
def Renaming.swap : Renaming where
  name s := if s = "a" then "b" else if s = "b" then "a" else s
  isName := by
    intro s h
    split
    · exact ⟨rfl, rfl⟩
    · split
      · exact ⟨rfl, rfl⟩
      · exact h
  injective := by
    intro s t _ _ h
    split_ifs at h <;> simp_all
  result := rfl

/-- A constant, a function and a variable share two names, and these are exchanged. -/
theorem Program.resolve_swapped :
    ∃ p r r', ofSource "const a 2 fun b int() \x7b var a int[a] a[b] := a \x7d" = .ok p ∧ p.resolve = .ok r
      ∧ r.problems.map (fun q => q.cause.kind) = [.notAValue]
      ∧ (p.relabel Renaming.swap.relabeling).resolve = .ok r'
      ∧ r'.problems.map (fun q => (q.cause.kind, q.span)) = r.problems.map (fun q => (q.cause.kind, q.span))
      ∧ r'.catalog = r.catalog.relabel Renaming.swap.relabeling := by
  have hkinds : problemKindsOf "const a 2 fun b int() \x7b var a int[a] a[b] := a \x7d" = some [.notAValue] :=
    Program.bind_ofSource (by decide +kernel)
  obtain ⟨p, r, hp, hr, hkinds⟩ := exists_of_problemKindsOf hkinds
  obtain ⟨r₁, r', hr₁, hr', hproblems, -, hcatalog, -⟩ := resolve_renamed hp Renaming.swap
  obtain rfl := Except.ok.inj (hr.symm.trans hr₁)
  exact ⟨p, r, r', hp, hr, hkinds, hr', hproblems, hcatalog⟩

end FlatScope
