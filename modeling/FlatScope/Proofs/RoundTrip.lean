/-
  Printing and parsing. The trees that are parsed are, up to places and notes, exactly the well-formed ones: a well-formed
  unit has a source, which is parsed as a unit like it, and what is parsed from any source is well formed
  (`Program.parses_back`).
-/
import FlatScope.Proofs.Grammar.WellFormed
import FlatScope.Proofs.Printing.Unit

namespace FlatScope.Program

/-- The source of a well-formed unit is parsed as a unit like it, and whatever is parsed is well formed. -/
theorem parses_back :
    (∀ (p : Program) (file : Option String), p.IsWellFormed →
      p.source? = .ok p.source ∧ ∃ q, ofSource p.source file = .ok q ∧ q.bare = p.bare)
    ∧ ∀ (source : String) (file : Option String) (q : Program), ofSource source file = .ok q → q.IsWellFormed :=
  ⟨fun _ file h => ⟨h.source?, ofSource_source h file⟩, fun _ _ _ h => isWellFormed_of_ofSource h⟩

/-- A unit with a constant, a struct, and a function with a jump and a type among its arguments. -/
def sample : Program where
  decls := [
    .const { name := "size", value := .int (-3) {} },
    .struct { name := "Node", fields := [.var { name := "next", type := .pointer (.named "Node" {}) {} }] },
    .func {
      name := "fill"
      result := .named "void" {}
      params := [.param { name := "count", type := .named "int" {} }]
      body := [
        .label "again" none {},
        .assign (.ident "count" none {})
          (.call (.ident "_alloc" none {}) [.typeArg (.pointer (.named "Node" {}) {}) {}, .ident "size" none {}] {}) {},
        .ifThen (.ident "count" none {}) [.goto "again" none {}] (.around {}) (some (.block [] {})) {}] }]

theorem isWellFormed_sample : sample.IsWellFormed := by
  have hsize : IsName "size" := ⟨rfl, rfl⟩
  have hnode : IsName "Node" := ⟨rfl, rfl⟩
  have hnext : IsName "next" := ⟨rfl, rfl⟩
  have hfill : IsName "fill" := ⟨rfl, rfl⟩
  have hcount : IsName "count" := ⟨rfl, rfl⟩
  have hagain : IsName "again" := ⟨rfl, rfl⟩
  have halloc : IsBuiltin "_alloc" := rfl
  have haddr : ¬(Expr.ident "_alloc" none {}).IsAddressForm
      [.typeArg (.pointer (.named "Node" {}) {}) {}, .ident "size" none {}] := by
    rintro ⟨symbol, info, arg, -, ha, -⟩
    cases ha
  refine List.forall_mem_cons.mpr ⟨⟨hsize, trivial, trivial⟩, List.forall_mem_cons.mpr ⟨?_, List.forall_mem_singleton.mpr ?_⟩⟩
  · exact ⟨hnode, List.cons_ne_nil _ _, List.forall_mem_singleton.mpr ⟨_, rfl, hnext, .inr hnode⟩⟩
  · refine ⟨hfill, .inl (.inr (.inr (.inr rfl))), List.forall_mem_singleton.mpr ⟨_, rfl, hcount, .inl (.inl rfl)⟩,
      ⟨hagain, ?_, ?_, trivial⟩, trivial⟩
    · exact ⟨hcount, .inl hcount, trivial, .inr halloc, ⟨.inr ⟨.inr hnode, trivial⟩, .inl (.inl hsize), trivial⟩, haddr⟩
    · exact ⟨.inl hcount, ⟨hagain, trivial⟩, trivial, trivial, trivial⟩

theorem sample_parses_back :
    sample.IsWellFormed ∧ ∃ q, ofSource sample.source none = .ok q ∧ q.bare = sample.bare ∧ q.IsWellFormed := by
  obtain ⟨-, q, hq, hb⟩ := parses_back.1 sample none isWellFormed_sample
  exact ⟨isWellFormed_sample, q, hq, hb, parses_back.2 _ _ _ hq⟩

end FlatScope.Program
