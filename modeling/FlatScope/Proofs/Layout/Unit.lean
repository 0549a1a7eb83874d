/-
  Units in another layout. A text with the tokens of a source and other gaps, between the same tokens as in the source, is
  scanned as the same tokens, and parsed and resolved as the source is (`Program.ignoresLayout`).
-/
import FlatScope.Proofs.Concatenation.Unit
import FlatScope.Proofs.Layout.Scan
import FlatScope.Proofs.Reprinting

namespace FlatScope.Program

open Grammar

variable {source text : String} {file : Option String} {p : Program}

/-- A layout of the tokens of a source that is parsed is parsed as the same, but for places. -/
theorem ofSource_relaid (h : ofSource source file = .ok p)
    (hlayout : Scan.IsLayout (scan source file).tokens text.toList) (file' : Option String) :
    ∃ p', ofSource text file' = .ok p' ∧ p'.bare.decls = p.bare.decls := by
  obtain ⟨hnone, d, htokens, hspelled, hproper, rfl⟩ := exists_proper_of_ofSource h
  obtain ⟨hnone', hsame⟩ := Scan.same_of_isLayout hnone hlayout file'
  rw [← htokens] at hsame
  obtain ⟨d', htokens', halike, hproper'⟩ := d.exists_same hsame hspelled
  have hspelled' : ∀ t ∈ d'.tokens, t.IsSpelled := htokens' ▸ Token.IsSame.allSpelled hsame hspelled
  have hscan : (scan text file').toExcept = .ok d'.tokens := by
    rw [htokens', Scan.toExcept, hnone']
  refine ⟨{ decls := d'.value, file := file' }, ?_, halike⟩
  rw [ofSource, hscan]
  show ofTokens file' d'.tokens = _
  rw [ofTokens_tokens, (d'.fault?_eq_none_iff hspelled').mpr (hproper' hproper)]

/-- Layout does not matter beyond which tokens touch. A layout of the tokens of a source is scanned as tokens of the same kinds
with the same texts; if the source is parsed, the layout is parsed as the same tree, and resolved to the same
problems in the same order. -/
theorem ignoresLayout (h : (scan source file).error = none)
    (hlayout : Scan.IsLayout (scan source file).tokens text.toList) (file' : Option String) :
    (scan text file').error = none
      ∧ (scan text file').tokens.map (fun t => (t.kind, t.lexeme)) = (scan source file).tokens.map (fun t => (t.kind, t.lexeme))
      ∧ ∀ p, ofSource source file = .ok p → ∃ p', ofSource text file' = .ok p' ∧ p'.bare.decls = p.bare.decls
        ∧ ∀ b : Builtins, ∃ r r', p.resolve b = .ok r ∧ p'.resolve b = .ok r'
          ∧ r'.problems.map (Problem.relabel .unplacing) = r.problems.map (Problem.relabel .unplacing)
          ∧ r'.problems.map (fun q => q.cause.kind) = r.problems.map (fun q => q.cause.kind) := by
  obtain ⟨hnone, hsame⟩ := Scan.same_of_isLayout h hlayout file'
  refine ⟨hnone, Token.IsSame.map_eq hsame, fun p hp => ?_⟩
  obtain ⟨p', hp', hbare⟩ := ofSource_relaid hp hlayout file'
  refine ⟨p', hp', hbare, fun b => ?_⟩
  obtain ⟨r, -, hr, -⟩ := exists_resolve (isWellFormed_of_ofSource hp) b
  have hstrip : p'.strip true = p.strip true := by
    rw [strip_of_ofSource hp', strip_of_ofSource hp]
    exact congrArg (Program.mk · none) hbare
  obtain ⟨r', hr', hrelabel⟩ := resolve_unplaced hstrip hr
  have hproblems : r'.problems.map (Problem.relabel .unplacing) = r.problems.map (Problem.relabel .unplacing) := by
    rw [← r'.problems_relabel, hrelabel, ← r.problems_relabel]
    rfl
  have hkinds (qs : List Problem) : qs.map (fun q => q.cause.kind) = (qs.map (Problem.relabel .unplacing)).map (fun q => q.cause.kind) := by
    rw [List.map_map]
    exact List.map_congr_left fun q _ => (Problem.Cause.kind_relabel .unplacing q.cause).symm
  exact ⟨r, r', hr, hr', hproblems, by rw [hkinds, hproblems, ← hkinds]⟩

/-- A pointer type, of which the star touches the name, with comments in front, between and behind. -/
theorem ignoresLayout_pointer : (scan "var p int*" none).error = none
    ∧ Scan.IsLayout (scan "var p int*" none).tokens "// p\nvar\tp // it's a byte*\nint* // open".toList
    ∧ (scan "// p\nvar\tp // it's a byte*\nint* // open" none).tokens.map (fun t => (t.kind, t.lexeme))
      = [(.varKw, "var"), (.name, "p"), (.intKw, "int"), (.star, "*")]
    ∧ ∃ p p', ofSource "var p int*" none = .ok p ∧ ofSource "// p\nvar\tp // it's a byte*\nint* // open" none = .ok p'
      ∧ p'.bare.decls = p.bare.decls := by
  have hnone : (scan "var p int*" none).error = none := by decide +kernel
  have htokens : (scan "var p int*" none).tokens = [⟨.varKw, "var", none, ⟨1, 1, 0⟩, ⟨1, 4, 3⟩⟩, ⟨.name, "p", none, ⟨1, 5, 4⟩, ⟨1, 6, 5⟩⟩,
      ⟨.intKw, "int", none, ⟨1, 7, 6⟩, ⟨1, 10, 9⟩⟩, ⟨.star, "*", none, ⟨1, 10, 9⟩, ⟨1, 11, 10⟩⟩] := by decide +kernel
  have hparse : (ofSource "var p int*" none).toOption.isSome = true := by decide +kernel
  have hlayout : Scan.IsLayout (scan "var p int*" none).tokens "// p\nvar\tp // it's a byte*\nint* // open".toList := by
    rw [htokens]
    have hcomment {body cs rest : List Char} (hbody : '\n' ∉ body) (hend : ∀ c ∈ (cs ++ rest).head?, c = '\n') (h : IsTrivia rest cs) :
        IsTrivia rest ('/' :: '/' :: (body ++ cs)) := .comment (fun c hc hnewline => hbody (hnewline ▸ hc)) hend h
    have hline {c : Char} (hc : c ∈ some '\n') : c = '\n' := (Option.some.inj hc).symm
    have hfront : IsTrivia "var".toList "// p\n".toList := @hcomment " p".toList _ _ (by decide) (fun _ => hline) (.space rfl .nil)
    have hbetween : IsTrivia "int".toList " // it's a byte*\n".toList :=
      .space rfl (@hcomment " it's a byte*".toList _ _ (by decide) (fun _ => hline) (.space rfl .nil))
    have hbehind : IsTrivia [] " // open".toList := .space rfl (@hcomment " open".toList [] _ (by decide) nofun .nil)
    have hstar : Scan.IsLaid (some 9) [⟨.star, "*", none, ⟨1, 10, 9⟩, ⟨1, 11, 10⟩⟩] "*".toList :=
      @Scan.IsLaid.token (some 9) ⟨.star, "*", none, ⟨1, 10, 9⟩, ⟨1, 11, 10⟩⟩ [] [] [] .nil (by decide) .nil
    have hint : Scan.IsLaid (some 5) [⟨.intKw, "int", none, ⟨1, 7, 6⟩, ⟨1, 10, 9⟩⟩, ⟨.star, "*", none, ⟨1, 10, 9⟩, ⟨1, 11, 10⟩⟩]
        " // it's a byte*\nint*".toList :=
      @Scan.IsLaid.token (some 5) ⟨.intKw, "int", none, ⟨1, 7, 6⟩, ⟨1, 10, 9⟩⟩ _ " // it's a byte*\n".toList _ hbetween (by decide) hstar
    have hname : Scan.IsLaid (some 3) [⟨.name, "p", none, ⟨1, 5, 4⟩, ⟨1, 6, 5⟩⟩, ⟨.intKw, "int", none, ⟨1, 7, 6⟩, ⟨1, 10, 9⟩⟩,
        ⟨.star, "*", none, ⟨1, 10, 9⟩, ⟨1, 11, 10⟩⟩] "\tp // it's a byte*\nint*".toList :=
      @Scan.IsLaid.token (some 3) ⟨.name, "p", none, ⟨1, 5, 4⟩, ⟨1, 6, 5⟩⟩ _ ['\t'] _ (.space rfl .nil) (by decide) hint
    have hvar := @Scan.IsLaid.token none ⟨.varKw, "var", none, ⟨1, 1, 0⟩, ⟨1, 4, 3⟩⟩ _ "// p\n".toList _ hfront nofun hname
    exact ⟨"// p\nvar\tp // it's a byte*\nint*".toList, " // open".toList, rfl, hvar, hbehind⟩
  obtain ⟨p, hp⟩ := Option.isSome_iff_exists.mp hparse
  have hp := Except.toOption_eq_some_iff.mp hp
  obtain ⟨-, hkinds, hparses⟩ := ignoresLayout hnone hlayout none
  obtain ⟨p', hp', hbare, -⟩ := hparses p hp
  rw [htokens] at hkinds
  exact ⟨hnone, hlayout, hkinds, p, p', hp, hp', hbare⟩

end FlatScope.Program
