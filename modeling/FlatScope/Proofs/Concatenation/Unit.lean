/-
  Units one behind another. A source behind another one, with a newline between them, is scanned and parsed as if each stood
  alone: the tokens and the declarations of the one come first, then those of the other, further on
  (`Program.concatenates`). Nothing at the end of a unit can go on in the next one, since a list of declarations goes on
  with any other list (`Grammar.Derivation.goesOn`).
-/
import FlatScope.Proofs.Concatenation.Reading
import FlatScope.Proofs.Parsing
import FlatScope.Proofs.Resolution.Results

namespace FlatScope

namespace Grammar

/-- Declarations go on behind others. -/
def Derivation.GoesOn (ds : Derivation (.n .decls)) : {s : Sym} → Derivation s → Prop
  | .n .decls, es => ∃ d : Derivation (.n .decls), d.tokens = ds.tokens ++ es.tokens ∧ d.value = ds.value ++ es.value
    ∧ (ds.IsProper → es.IsProper → d.IsProper)
  | _, _ => True

/-- Any declarations go on behind any others. -/
theorem Derivation.goesOn (ds : Derivation (.n .decls)) : {s : Sym} → (d : Derivation s) → ds.GoesOn d := by
  refine Derivation.induct (fun _ => trivial) fun p f h => ?_
  cases p
  case declsOne =>
    match f with
    | .cons d .nil =>
      refine ⟨.node .declsMore (.cons ds (.cons d .nil)), rfl, rfl, fun hds hd => ?_⟩
      exact ⟨trivial, hds, hd.2⟩
  case declsMore =>
    match f, h with
    | .cons es (.cons d .nil), ⟨⟨front, htokens, hvalue, hproper⟩, _⟩ =>
      refine ⟨.node .declsMore (.cons front (.cons d .nil)), ?_, ?_, fun hds hes => ?_⟩
      · show front.tokens ++ (d.tokens ++ []) = ds.tokens ++ (es.tokens ++ (d.tokens ++ []))
        rw [htokens, List.append_assoc]
      · show front.value ++ [d.value] = ds.value ++ (es.value ++ [d.value])
        rw [hvalue, List.append_assoc]
      · exact ⟨trivial, hproper hds hes.2.1, hes.2.2⟩
  all_goals trivial

/-- What a unit consists of: nothing, or declarations. -/
def Derivation.Consists : {s : Sym} → Derivation s → Prop
  | .n .unit, d => (d.tokens = [] ∧ d.value = [])
    ∨ ∃ ds : Derivation (.n .decls), d.tokens = ds.tokens ∧ d.value = ds.value ∧ (d.IsProper ↔ ds.IsProper)
  | _, _ => True

theorem Derivation.consists : {s : Sym} → (d : Derivation s) → d.Consists := by
  refine Derivation.induct (fun _ => trivial) fun p f _ => ?_
  cases p
  case unitEmpty =>
    match f with
    | .nil => exact .inl ⟨rfl, rfl⟩
  case unitDecls =>
    match f with
    | .cons ds .nil => exact .inr ⟨ds, List.append_nil _, rfl, fun h => h.2.1, fun h => ⟨trivial, h, trivial⟩⟩
  all_goals trivial

/-- Any unit goes on behind any other. -/
theorem Derivation.exists_unit_append (d e : Derivation (.n .unit)) : ∃ u : Derivation (.n .unit),
    u.tokens = d.tokens ++ e.tokens ∧ u.value = d.value ++ e.value ∧ (d.IsProper → e.IsProper → u.IsProper) := by
  obtain ⟨htokens, hvalue⟩ | ⟨ds, htokens, hvalue, hproper⟩ := d.consists
  · refine ⟨e, ?_, ?_, fun _ h => h⟩
    · rw [htokens, List.nil_append]
    · rw [hvalue, List.nil_append]
  · obtain ⟨htokens', hvalue'⟩ | ⟨es, htokens', hvalue', hproper'⟩ := e.consists
    · refine ⟨d, ?_, ?_, fun h _ => h⟩
      · rw [htokens', List.append_nil]
      · rw [hvalue', List.append_nil]
    · obtain ⟨u, hu, hvalueu, hproperu⟩ := ds.goesOn es
      refine ⟨.node .unitDecls (.cons u .nil), ?_, ?_, fun hd he => ?_⟩
      · rw [htokens, htokens', ← hu]
        exact List.append_nil _
      · rw [hvalue, hvalue', ← hvalueu]
        rfl
      · exact ⟨trivial, hproperu (hproper.mp hd) (hproper'.mp he), trivial⟩

end Grammar

namespace Program

open Grammar

variable {file : Option String} {s₁ s₂ : String} {p₁ p₂ : Program}

/-- A source that is parsed is scanned without a fault, as a proper derivation of a unit. -/
theorem exists_proper_of_ofSource {source : String} {p : Program} (h : ofSource source file = .ok p) :
    (scan source file).error = none ∧ ∃ d : Derivation (.n .unit), d.tokens = (scan source file).tokens
      ∧ (∀ t ∈ d.tokens, t.IsSpelled) ∧ d.IsProper ∧ p = { decls := d.value, file } := by
  rw [ofSource] at h
  cases hscan : (scan source file).toExcept with
  | error e =>
    rw [hscan] at h
    cases h
  | ok tokens =>
    rw [hscan] at h
    obtain ⟨d, rfl, hfault, rfl⟩ := exists_derivation h
    have hspelled : ∀ t ∈ d.tokens, t.IsSpelled := fun t ht => (Scan.isScanned_of_mem_scan hscan t ht).spelled
    have hparts : (scan source file).error = none ∧ (scan source file).tokens = d.tokens := by
      unfold Scan.toExcept at hscan
      split at hscan
      · cases hscan
      · rename_i hnone
        exact ⟨hnone, Except.ok.inj hscan⟩
    exact ⟨hparts.1, d, hparts.2.symm, hspelled, (d.fault?_eq_none_iff hspelled).mp hfault, rfl⟩

/-- Two units that are parsed are parsed one behind the other: the declarations are the same but for the places of those
behind. -/
theorem ofSource_append (h₁ : ofSource s₁ file = .ok p₁) (h₂ : ofSource s₂ file = .ok p₂) :
    ofSource (s₁ ++ "\n" ++ s₂) file
        = .ok { decls := p₁.decls ++ p₂.decls.map (Decl.shift (s₁.toList.count '\n' + 1) (s₁.length + 1)), file }
      ∧ p₂.decls.map (fun d => (d.shift (s₁.toList.count '\n' + 1) (s₁.length + 1)).bare) = p₂.decls.map Decl.bare := by
  obtain ⟨hnone₁, d, htokens, hspelled, hproper, rfl⟩ := exists_proper_of_ofSource h₁
  obtain ⟨hnone₂, e, htokens', hspelled', hproper', rfl⟩ := exists_proper_of_ofSource h₂
  obtain ⟨u, hu, hvalue, hproperu⟩ := d.exists_unit_append (e.shift (s₁.toList.count '\n' + 1) (s₁.length + 1))
  rw [e.tokens_shift] at hu
  have hscan : (scan (s₁ ++ "\n" ++ s₂) file).toExcept = .ok u.tokens := by
    rw [Scan.scan_append hnone₁, hu, htokens, htokens']
    unfold Scan.toExcept Scan.prepend Scan.shift
    rw [hnone₂]
    rfl
  have hspelledu : ∀ t ∈ u.tokens, t.IsSpelled := hu ▸ List.forall_mem_append.mpr ⟨hspelled, isSpelled_shift hspelled'⟩
  have hfault : u.fault? = none :=
    (u.fault?_eq_none_iff hspelledu).mpr (hproperu hproper (e.isProper_shift hspelled' hproper'))
  refine ⟨?_, ?_⟩
  · rw [ofSource, hscan]
    show ofTokens file u.tokens = _
    rw [ofTokens_tokens, hfault, hvalue, e.value_shift]
    rfl
  · have halike : (e.shift (s₁.toList.count '\n' + 1) (s₁.length + 1)).value.map Decl.bare = e.value.map Decl.bare := e.alike_shift
    rw [e.value_shift] at halike
    exact (List.map_map ..).symm.trans halike

/-- Units stand one behind the other, with a newline between them. Behind a source that is scanned without a fault another
one is scanned as it is alone, so many lines and characters further on, its fault included; and two sources that are parsed
are parsed as the declarations of the one and then those of the other, which are the same but for their places. -/
theorem concatenates (s₁ s₂ : String) (file : Option String) :
    ((scan s₁ file).error = none → scan (s₁ ++ "\n" ++ s₂) file
      = { tokens := (scan s₁ file).tokens
            ++ (scan s₂ file).tokens.map (Token.shift (s₁.toList.count '\n' + 1) (s₁.length + 1))
          error := (scan s₂ file).error.map (LexError.shift (s₁.toList.count '\n' + 1) (s₁.length + 1)) })
    ∧ ∀ p₁ p₂, ofSource s₁ file = .ok p₁ → ofSource s₂ file = .ok p₂ → ∃ p, ofSource (s₁ ++ "\n" ++ s₂) file = .ok p
      ∧ p.decls = p₁.decls ++ p₂.decls.map (Decl.shift (s₁.toList.count '\n' + 1) (s₁.length + 1))
      ∧ p.bare.decls = p₁.bare.decls ++ p₂.bare.decls ∧ p.file = file := by
  refine ⟨fun h => Scan.scan_append h s₂, fun p₁ p₂ h₁ h₂ => ?_⟩
  obtain ⟨happend, hbare⟩ := ofSource_append h₁ h₂
  refine ⟨_, happend, rfl, ?_, rfl⟩
  show List.map Decl.bare (_ ++ _) = _
  rw [List.map_append, List.map_map]
  exact congrArg (_ ++ ·) hbare

/-- A source that ends in a byte literal, behind which nothing may go on, and another one that starts with a comment. -/
theorem concatenates_byte : (scan "const c 7b" none).error = none
    ∧ (scan "const c 7b\n// behind it\nvar x int" none).tokens
      = (scan "const c 7b" none).tokens ++ (scan "// behind it\nvar x int" none).tokens.map (Token.shift 1 11)
    ∧ ∃ p₁ p₂ p, ofSource "const c 7b" none = .ok p₁ ∧ ofSource "// behind it\nvar x int" none = .ok p₂
      ∧ ofSource "const c 7b\n// behind it\nvar x int" none = .ok p ∧ p.bare.decls = p₁.bare.decls ++ p₂.bare.decls := by
  have hscan : (scan "const c 7b" none).error = none := by decide +kernel
  have hfront : (ofSource "const c 7b" none).toOption.isSome = true := by decide +kernel
  have hbehind : (ofSource "// behind it\nvar x int" none).toOption.isSome = true := by decide +kernel
  obtain ⟨p₁, h₁⟩ := Option.isSome_iff_exists.mp hfront
  obtain ⟨p₂, h₂⟩ := Option.isSome_iff_exists.mp hbehind
  have h₁ := Except.toOption_eq_some_iff.mp h₁
  have h₂ := Except.toOption_eq_some_iff.mp h₂
  obtain ⟨hscans, hparse⟩ := concatenates "const c 7b" "// behind it\nvar x int" none
  obtain ⟨p, hp, -, hbare, -⟩ := hparse p₁ p₂ h₁ h₂
  exact ⟨hscan, congrArg Scan.tokens (hscans hscan), p₁, p₂, p, h₁, h₂, hp, hbare⟩

end Program

end FlatScope
