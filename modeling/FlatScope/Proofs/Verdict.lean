/-
  The verdict of the command. A readable text has diagnostics (`Program.diagnostics`), and what the command does with
  them is the same whatever else it is asked to show: the exit code says whether there are any (`Command.reports_run`),
  and they are reported once, all together, behind what is shown. A report as JSON is one line, since JSON escapes
  everything but printable ASCII (`Json.isPlainText_text`).
-/
import FlatScope.Command
import FlatScope.Proofs.Number.Text
import FlatScope.Proofs.Printing.Stmt
import FlatScope.Proofs.Reordering.Unit

namespace FlatScope

/-! ## Printable ASCII -/

/-- A character of printable ASCII. -/
def IsPlain (c : Char) : Prop := 0x20 ≤ c.toNat ∧ c.toNat ≤ 0x7E

instance (c : Char) : Decidable (IsPlain c) := inferInstanceAs (Decidable (_ ∧ _))

/-- A text of printable ASCII. -/
def IsPlainText (s : String) : Prop := ∀ c ∈ s.toList, IsPlain c

instance (s : String) : Decidable (IsPlainText s) := List.decidableBAll IsPlain s.toList

namespace IsPlainText

theorem append {s t : String} (hs : IsPlainText s) (ht : IsPlainText t) : IsPlainText (s ++ t) := by
  rw [IsPlainText, String.toList_append]
  exact List.forall_mem_append.mpr ⟨hs, ht⟩

theorem join {ss : List String} (h : ∀ s ∈ ss, IsPlainText s) : IsPlainText (String.join ss) := by
  rw [IsPlainText, String.toList_join]
  intro c hc
  obtain ⟨s, hs, hmem⟩ := List.mem_flatMap.mp hc
  exact h s hs c hmem

theorem intercalate {s : String} (hs : IsPlainText s) {ss : List String} (h : ∀ t ∈ ss, IsPlainText t) :
    IsPlainText (s.intercalate ss) := by
  match ss, h with
  | [], _ => exact nofun
  | [t], h =>
    rw [String.intercalate_singleton]
    exact h t (.head _)
  | t :: u :: ss, h =>
    rw [String.intercalate_cons_cons]
    exact ((h t (.head _)).append hs).append (intercalate hs fun v hv => h v (.tail _ hv))

end IsPlainText

theorem isPlain_digitChar : ∀ n < 16, IsPlain (Nat.digitChar n) := by decide

theorem isPlain_of_mem_toDigits (n : Nat) : ∀ c ∈ Nat.toDigits 16 n, IsPlain c := by
  induction n using Nat.strongRecOn with
  | _ n ih =>
    rw [Nat.toDigits_eq_if (by decide)]
    split
    · rename_i hn
      exact List.forall_mem_singleton.mpr (isPlain_digitChar n hn)
    · exact List.forall_mem_append.mpr ⟨ih (n / 16) (by omega),
        List.forall_mem_singleton.mpr (isPlain_digitChar _ (Nat.mod_lt _ (by decide)))⟩

theorem isPlainText_hex (width n : Nat) : IsPlainText (hex width n) := by
  refine IsPlainText.append ?_ ?_
  · rw [IsPlainText, toList_pushn]
    intro c hc
    obtain rfl := List.eq_of_mem_replicate hc
    decide
  · rw [IsPlainText, String.toList_ofList]
    exact isPlain_of_mem_toDigits n

theorem isPlainText_int (n : Int) : IsPlainText (toString n) := by
  have h := (Decimal.isInteger_toString n).1
  rw [IsPlainText]
  generalize (toString n).toList = cs at h
  obtain ⟨hm, hd⟩ := h
  refine List.forall_mem_append.mpr ⟨?_, fun c hc => ?_⟩
  · obtain rfl | rfl := hm
    · exact nofun
    · exact List.forall_mem_singleton.mpr (by decide)
  · obtain ⟨hl, hu⟩ := Numeral.toNat_of_isDigit ((Lexeme.isDigits_iff.mp hd).2 c hc)
    exact ⟨by omega, by omega⟩

namespace Json

theorem isPlainText_unitEscape (n : Nat) : IsPlainText (unitEscape n) :=
  IsPlainText.append (by decide) (isPlainText_hex 4 n)

theorem isPlainText_escape (c : Char) : IsPlainText (escape c) := by
  simp only [escape]
  split_ifs with _ _ _ _ _ _ _ hplain
  iterate 7 decide
  · intro d hd
    rw [Char.toString, String.toList_singleton, List.mem_singleton] at hd
    exact hd ▸ hplain
  · exact isPlainText_unitEscape _
  · exact (isPlainText_unitEscape _).append (isPlainText_unitEscape _)

theorem isPlainText_string (s : String) : IsPlainText (string s) := by
  refine ((show IsPlainText "\"" by decide).append (.join ?_)).append (by decide)
  intro t ht
  obtain ⟨c, -, rfl⟩ := List.mem_map.mp ht
  exact isPlainText_escape c

mutual

theorem isPlainText_text : (j : Json) → IsPlainText j.text
  | .null => by decide
  | .int n => isPlainText_int n
  | .str s => isPlainText_string s
  | .arr elements =>
    ((show IsPlainText "[" by decide).append (.intercalate (by decide) (isPlainText_texts elements))).append (by decide)
  | .obj members =>
    ((show IsPlainText "\x7b" by decide).append (.intercalate (by decide) (isPlainText_memberTexts members))).append
      (by decide)

theorem isPlainText_texts : (js : List Json) → ∀ s ∈ texts js, IsPlainText s
  | [] => nofun
  | j :: js => List.forall_mem_cons.mpr ⟨isPlainText_text j, isPlainText_texts js⟩

theorem isPlainText_memberTexts : (members : List (String × Json)) → ∀ s ∈ memberTexts members, IsPlainText s
  | [] => nofun
  | (name, j) :: rest =>
    List.forall_mem_cons.mpr
      ⟨((isPlainText_string name).append (by decide)).append (isPlainText_text j), isPlainText_memberTexts rest⟩

end

end Json

/-! ## Reports -/

/-- The diagnostics of a source: the one of its fault, or those of the problems of its unit. -/
def Program.diagnostics (source : String) (file : Option String) : Except Misplaced (List Diagnostic) :=
  match ofSource source file with
  | .error e => .ok [e.diagnostic]
  | .ok p => return (← p.resolve).problems.map Problem.diagnostic

/-- The resolved unit of a source, if the source can be parsed. -/
def Program.resolution? (source : String) (file : Option String) : Option Resolution :=
  (ofSource source file).toOption.bind fun p => p.resolve.toOption

namespace Program

variable {source : String} {file : Option String}

theorem diagnostics_of_error {e : SourceError} (h : ofSource source file = .error e) :
    diagnostics source file = .ok [e.diagnostic] ∧ resolution? source file = none := by
  rw [diagnostics, resolution?, h]
  exact ⟨rfl, rfl⟩

theorem diagnostics_of_resolve {p : Program} {r : Resolution} (h : ofSource source file = .ok p) (hr : p.resolve = .ok r) :
    diagnostics source file = .ok (r.problems.map Problem.diagnostic) ∧ resolution? source file = some r := by
  rw [diagnostics, resolution?, h]
  simp only [Except.toOption, Option.bind_some, hr]
  exact ⟨rfl, trivial⟩

end Program

theorem Resolution.isValid_iff {r : Resolution} : r.isValid = true ↔ r.problems = [] := by
  rw [problems_eq_nil_iff, isValid, List.all_eq_true]
  exact forall₂_congr fun _ _ => Option.isNone_iff_eq_none

theorem unlines_append (xs ys : List String) : unlines (xs ++ ys) = unlines xs ++ unlines ys := by
  rw [← String.toList_inj, String.toList_append, toList_unlines, toList_unlines, toList_unlines, linesText_append]

namespace Command

/-- What is shown of a resolved unit besides the verdict. -/
def shownOf (options : Options) (r : Resolution) : List String :=
  (if options.catalog then r.listing else []) ++ if options.tree && r.isValid then r.program.lines else []

/-- What is shown of a text besides the verdict: its tokens if it can be scanned, and its unit if it can be parsed. -/
def shown (options : Options) (name text : String) : List String :=
  (if options.tokens then ((scan text (some name)).toExcept.toOption.getD []).map tokenLine else [])
    ++ ((Program.resolution? text (some name)).map (shownOf options)).getD []

/-- The exit code for diagnostics. -/
def codeOf (ds : List Diagnostic) : Nat := if ds = [] then 0 else 1

/-- The line that reports diagnostics as JSON. -/
def reportLine (name : String) (ds : List Diagnostic) : String :=
  (Json.obj [("exit_code", .int (codeOf ds)), ("diagnostics", .arr (ds.map fun d => d.json (some name)))]).text

/-- An output is the report of diagnostics, each once and in order, behind lines that are shown anyway. The report is
the last line that is put out, or it is all that is said of faults. -/
structure Output.Reports (o : Output) (options : Options) (name : String) (lines : List String) (ds : List Diagnostic) :
    Prop where
  code : o.code = codeOf ds
  out : o.out = unlines (lines ++ if options.json then [reportLine name ds] else [])
  err : o.err = if options.json then "" else unlines (ds.flatMap (diagnosticLines name))

theorem unlines_if (condition : Bool) (lines : List String) :
    unlines (if condition then lines else []) = if condition then unlines lines else "" := by
  cases condition <;> rfl

theorem payload_eq (name : String) (ds : List Diagnostic) :
    payload (codeOf ds) (ds.map fun d => d.json (some name)) = unlines [reportLine name ds] := by
  rw [← String.toList_inj, toList_unlines, linesText_cons, linesText_nil, payload, String.toList_append]
  rfl

/-- Diagnostics are reported behind what is shown. -/
theorem reports_rejected (options : Options) (name : String) (lines : List String) {ds : List Diagnostic} (h : ds ≠ []) :
    (rejected options name (unlines lines) ds).Reports options name lines ds := by
  have hcode : codeOf ds = 1 := if_neg h
  have hpayload := payload_eq name ds
  rw [hcode] at hpayload
  rw [rejected]
  split
  · rename_i hjson
    refine ⟨hcode.symm, ?_, (if_pos hjson).symm⟩
    rw [if_pos hjson, unlines_append, ← hpayload]
  · rename_i hjson
    refine ⟨hcode.symm, ?_, (if_neg hjson).symm⟩
    rw [if_neg hjson, List.append_nil]

/-- The problems of a unit are reported behind what is shown of it, if there are any. -/
theorem reports_resolved (options : Options) (name : String) (lines : List String) (r : Resolution) :
    (resolved options name (unlines lines) r).Reports options name (lines ++ shownOf options r)
      (r.problems.map Problem.diagnostic) := by
  have hcatalog : unlines lines ++ (if options.catalog then unlines r.listing else "")
      = unlines (lines ++ if options.catalog then r.listing else []) := by
    rw [unlines_append, unlines_if]
  rw [resolved, hcatalog]
  split
  · rename_i hvalid
    rw [Resolution.isValid_iff.mp hvalid, shownOf, hvalid, Bool.and_true]
    refine ⟨rfl, ?_, ?_⟩
    · have hpayload : payload 0 [] = unlines [reportLine name []] := payload_eq name []
      simp only [hpayload, unlines_append, unlines_if, ← List.append_assoc]
      rfl
    · cases options.json <;> rfl
  · rename_i hvalid
    have hne : r.problems.map Problem.diagnostic ≠ [] := by
      rw [ne_eq, List.map_eq_nil_iff, ← Resolution.isValid_iff]
      exact hvalid
    rw [shownOf, Bool.eq_false_iff.mpr hvalid, Bool.and_false, if_neg Bool.false_ne_true, List.append_nil]
    exact reports_rejected options name _ hne

/-- A text is reported on by its diagnostics, whatever is shown of it. -/
theorem reports_checked (name text : String) :
    ∃ ds, Program.diagnostics text (some name) = .ok ds
      ∧ ∀ options, (checked options name text).Reports options name (shown options name text) ds := by
  cases hscan : (scan text (some name)).toExcept with
  | error e =>
    have hsource : Program.ofSource text (some name) = .error (.lexical e) := by rw [Program.ofSource, hscan]
    obtain ⟨hds, hnone⟩ := Program.diagnostics_of_error hsource
    refine ⟨_, hds, fun options => ?_⟩
    have h := reports_rejected options name [] (List.cons_ne_nil e.diagnostic [])
    rw [checked, shown, hnone, hscan]
    cases options.tokens <;> exact h
  | ok tokens =>
    have hsource : Program.ofSource text (some name) = Program.ofTokens (some name) tokens := by
      rw [Program.ofSource, hscan]
    -- the tokens are shown in front, whatever comes of them
    have hlines (options : Options) : (if options.tokens then unlines (tokens.map tokenLine) else "")
        = unlines (if options.tokens then tokens.map tokenLine else []) := (unlines_if ..).symm
    cases hp : Program.ofTokens (some name) tokens with
    | error e =>
      rw [hp] at hsource
      obtain ⟨hds, hnone⟩ := Program.diagnostics_of_error hsource
      refine ⟨_, hds, fun options => ?_⟩
      simp only [checked, shown, hnone, hscan, hp, hlines]
      rw [Option.map_none, Option.getD_none, List.append_nil]
      exact reports_rejected options name _ (List.cons_ne_nil e.diagnostic [])
    | ok p =>
      rw [hp] at hsource
      obtain ⟨r, -, hr, -⟩ := Program.exists_resolve (Program.isWellFormed_of_ofSource hsource) Builtins.standard
      obtain ⟨hds, hsome⟩ := Program.diagnostics_of_resolve hsource hr
      refine ⟨_, hds, fun options => ?_⟩
      simp only [checked, shown, hsome, hscan, hp, hr, hlines]
      exact reports_resolved options name _ r

/-- The flags of the command do not change the verdict. A readable text has diagnostics, with every flag the exit code is 0
if there are none and 1 if there are some, and they are all reported, each once and in order, behind what is shown: as one
JSON object on the last line that is put out, with nothing said of errors, or else by lines that are said of errors only, each
diagnostic with its notes behind it. -/
theorem reports_run (name : String) {bytes : List UInt8} {cs : List Char} (h : Utf8.decode bytes = .ok cs) :
    ∃ ds, Program.diagnostics (String.ofList (normaliseNewlines cs)) (some name) = .ok ds
      ∧ IsPlainText (reportLine name ds)
      ∧ ∀ options, (run options name (.ok bytes)).Reports options name
          (shown options name (String.ofList (normaliseNewlines cs))) ds := by
  obtain ⟨ds, hds, hreports⟩ := reports_checked name (String.ofList (normaliseNewlines cs))
  refine ⟨ds, hds, Json.isPlainText_text _, fun options => ?_⟩
  rw [run, h]
  exact hreports options

/-- A return counts as a line end, and the character behind it, which begins no token, is reported. -/
theorem reports_run_dollar :
    Utf8.decode [0x0D, 0x24] = .ok ['\r', '$'] ∧ ∃ ds, ds.map (fun d => (d.kind, d.span.place)) = [(.lexError, "2:1")]
      ∧ Program.diagnostics (String.ofList (normaliseNewlines ['\r', '$'])) (some "unit") = .ok ds
      ∧ ∀ options, (run options "unit" (.ok [0x0D, 0x24])).Reports options "unit"
          (shown options "unit" (String.ofList (normaliseNewlines ['\r', '$']))) ds := by
  have hdecode : Utf8.decode [0x0D, 0x24] = .ok ['\r', '$'] := by decide
  obtain ⟨ds, hds, -, hreports⟩ := reports_run "unit" hdecode
  have hplaces : (Program.diagnostics (String.ofList (normaliseNewlines ['\r', '$'])) (some "unit")).toOption.map
      (List.map fun d => (d.kind, d.span.place)) = some [(.lexError, "2:1")] := by decide +kernel
  rw [hds] at hplaces
  exact ⟨hdecode, ds, Option.some.inj hplaces, hds, hreports⟩

end Command

end FlatScope
