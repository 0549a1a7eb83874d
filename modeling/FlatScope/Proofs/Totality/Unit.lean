/-
  No internal error on any source. Scanning, building the tree and resolving are put together as they are in the library,
  but each gives up where the library would go on with a default or would have to look away. It turns out that none
  ever gives up (`Program.resolve_guarded`): a source is refused for its one lexical or syntactic fault, or it is resolved.
-/
import FlatScope.Proofs.Grammar.WellFormed
import FlatScope.Proofs.Parsing
import FlatScope.Proofs.Totality.Decl
import FlatScope.Proofs.Totality.Phases

namespace FlatScope

/-! ## Resolving -/

/-- Resolves a unit, unless a phase gives up. -/
def Program.guardedResolve (b : Builtins) (p : Program) : Except Breach Resolution := do
  let (progress, entries) ← Phase.guardedRunAll b {} (p.decls.map fun decl => { decl }) Phase.all
  return { entries, file := p.file, catalog := progress.catalog, functions := progress.functions }

/-- There is what the next phase works on. -/
theorem Progress.Accounts.isReady {p : Progress} {past : List Phase} {es : List Entry} (h : p.Accounts past es)
    (hintegers : p.catalog.HasIntegers) : p.IsReady past es :=
  ⟨h.apart, h.stages, h.names.nodup, hintegers, h.names.current⟩

namespace Program

variable {b : Builtins} {p : Program} {r : Resolution}

/-- A unit that is resolved is resolved without giving up. -/
theorem guardedResolve_eq (h : p.resolve b = .ok r) : p.guardedResolve b = .ok r := by
  obtain ⟨p₁, p₂, p₃, p₄, p₅, p₆, es₁, es₂, es₃, es₄, es₅, es₆, hruns, rfl⟩ := exists_runs h
  have h₁ := Progress.Accounts.register hruns.registration
  have h₂ := h₁.run Step.isLocal_constant (Step.advances_constant (by decide)) nofun hruns.constants
  have h₃ := h₂.run Step.isLocal_fields Step.advances_fields nofun hruns.fields
  have h₄ := h₃.run Step.isLocal_containment (Step.advances_containment (by decide)) nofun hruns.containment
  have h₅ := hruns.accounts_headers
  have hempty : Catalog.HasIntegers {} := List.forall_mem_nil _
  have hfresh : ∀ e ∈ p.decls.map fun decl => ({ decl } : Entry), e.failure = none := List.forall_mem_map.mpr fun _ _ => rfl
  obtain ⟨hguarded₁, hintegers₁⟩ := Phase.guardedRun_registration b hempty hfresh hruns.registration
  obtain ⟨hguarded₂, hintegers₂⟩ := Phase.guardedRun_eq b .constants nofun (h₁.isReady hintegers₁) hruns.constants
  obtain ⟨hguarded₃, hintegers₃⟩ := Phase.guardedRun_eq b .fields nofun (h₂.isReady hintegers₂) hruns.fields
  obtain ⟨hguarded₄, hintegers₄⟩ := Phase.guardedRun_eq b .containment nofun (h₃.isReady hintegers₃) hruns.containment
  obtain ⟨hguarded₅, hintegers₅⟩ := Phase.guardedRun_eq b .headers nofun (h₄.isReady hintegers₄) hruns.headers
  obtain ⟨hguarded₆, -⟩ := Phase.guardedRun_eq b .bodies nofun (h₅.isReady hintegers₅) hruns.bodies
  simp only [guardedResolve, Phase.all, Phase.guardedRunAll, hguarded₁, hguarded₂, hguarded₃, hguarded₄, hguarded₅,
    hguarded₆, bind, Except.bind, pure, Except.pure]

/-! ## Parsing -/

/-- Parses tokens, unless the parser is stuck or the tree cannot be built. -/
def guardedOfTokens (file : Option String) (tokens : List Token) : Except Breach (Except SourceError Program) :=
  match Grammar.parseTokens Grammar.table tokens with
  | .accepted unit =>
    match Grammar.buildUnit unit.parts with
    | .ok decls => .ok (.ok { decls, file })
    | .error (.fault e) => .ok (.error e)
    | .error (.breach breach) => .error breach
  | .rejected token expected => .ok (.error (.syntactic (.ofRejection file tokens token expected)))
  | .stuck => .error .stuck

/-- Parses a source, unless a part of that gives up. -/
def guardedOfSource (source : String) (file : Option String := none) : Except Breach (Except SourceError Program) := do
  let scan ← guardedScan source file
  match scan.toExcept with
  | .error e => return .error (.lexical e)
  | .ok tokens => guardedOfTokens file tokens

/-- Parses and resolves a source, unless a part of that gives up. -/
def guardedResolveSource (b : Builtins) (source : String) (file : Option String := none) :
    Except Breach (Except SourceError Resolution) := do
  match ← guardedOfSource source file with
  | .error e => return .error e
  | .ok p =>
    let r ← p.guardedResolve b
    return .ok r

/-- Tokens that spell their kinds are parsed without giving up. -/
theorem guardedOfTokens_eq (file : Option String) {tokens : List Token} (h : ∀ t ∈ tokens, t.IsSpelled) :
    guardedOfTokens file tokens = .ok (ofTokens file tokens) := by
  rw [guardedOfTokens, ofTokens]
  cases hparse : Grammar.parseTokens Grammar.table tokens with
  | accepted unit =>
    have htokens := Grammar.tokens_of_parseTokens hparse
    dsimp only
    rw [Grammar.buildUnit_parts unit (htokens ▸ h)]
    cases unit.fault? <;> rfl
  | rejected token expected => rfl
  | stuck => exact absurd hparse (Grammar.parseTokens_ne_stuck Grammar.table_isCoherent tokens)

theorem guardedOfSource_eq (source : String) (file : Option String) :
    guardedOfSource source file = .ok (ofSource source file) := by
  rw [guardedOfSource, guardedScan_eq, ofSource]
  simp only [bind, Except.bind]
  cases hscan : (scan source file).toExcept with
  | error e => rfl
  | ok tokens => exact guardedOfTokens_eq file fun t ht => (Scan.isScanned_of_mem_scan hscan t ht).spelled

/-- A source is not refused because a literal of it has no value. -/
theorem ne_valueless_of_ofSource {source : String} {file : Option String} {e : SourceError} (h : ofSource source file = .error e)
    (fault : LiteralFault) (span : Span) : e ≠ .lexical ⟨.valueless fault, span⟩ := by
  rintro rfl
  rw [ofSource] at h
  cases hscan : (scan source file).toExcept with
  | error lexical =>
    rw [hscan] at h
    obtain rfl := SourceError.lexical.inj (Except.error.inj h)
    rw [Scan.toExcept] at hscan
    split at hscan
    · rename_i herror
      obtain rfl := Except.error.inj hscan
      exact Scan.error_scanFrom_ne_valueless file {} none source.toList herror fault rfl
    · cases hscan
  | ok tokens =>
    rw [hscan] at h
    obtain ⟨syntactic, hsyntactic⟩ := ofTokens_syntactic (fun t ht => (Scan.isScanned_of_mem_scan hscan t ht).spelled) h
    cases hsyntactic

/-- No internal error escapes. Every source is either refused for one lexical fault, which is not that a literal has no value,
or for one syntactic fault, or it is parsed and resolved; and this is so with all guards: every literal has a value, the
parser never gets stuck, every node of a parse tree is of a class that belongs in its place and has the parts that are
asked of it, no node of a tree is misplaced, every symbol, struct and function that a step works on is there, every statement
has a number, no operation on the catalog is refused, and every constant of type `int` is an integer. -/
theorem resolve_guarded (source : String) (file : Option String) (b : Builtins) :
    (∃ e, ofSource source file = .error e ∧ (∀ fault span, e ≠ .lexical ⟨.valueless fault, span⟩)
        ∧ guardedResolveSource b source file = .ok (.error e))
      ∨ ∃ p r, ofSource source file = .ok p ∧ p.resolve b = .ok r ∧ guardedResolveSource b source file = .ok (.ok r) := by
  cases hsource : ofSource source file with
  | error e =>
    refine .inl ⟨e, rfl, ?_, ?_⟩
    · exact ne_valueless_of_ofSource hsource
    · rw [guardedResolveSource, guardedOfSource_eq, hsource]
      rfl
  | ok p =>
    obtain ⟨r, -, hr, -⟩ := exists_resolve (isWellFormed_of_ofSource hsource) b
    refine .inr ⟨p, r, rfl, hr, ?_⟩
    rw [guardedResolveSource, guardedOfSource_eq, hsource]
    simp only [bind, Except.bind, guardedResolve_eq hr]
    rfl

end Program

end FlatScope
