/-
  Resolving a unit. The declarations are gone through in phases: all names are registered before anything is
  resolved, and everything global is resolved before any body, so that declarations may refer to each other
  in any order. A declaration that fails in one phase takes no part in the later ones; the others go on. So
  every declaration has at most one problem, and the problems are listed phase by phase.
-/
import FlatScope.Parse
import FlatScope.Resolution.Body
import FlatScope.Resolution.Containment
import FlatScope.Resolution.Global

namespace FlatScope

/-- What is known of a function. -/
structure FunctionInfo where
  name : String
  signature : Option Signature := none
  /-- What came of its body, unless the signature has a problem. -/
  entered : Option Entered := none

namespace FunctionInfo

/-- How far the work on a function got. -/
inductive State
  | waiting
  | done
  | failed
deriving DecidableEq, Repr

def state (f : FunctionInfo) : State :=
  match f.entered with
  | none => .waiting
  | some e => if e.problem.isNone then .done else .failed

end FunctionInfo

/-- The name of a state in listings. -/
def FunctionInfo.State.text : FunctionInfo.State → String
  | waiting => "collecting_signature"
  | done => "done"
  | failed => "failed"

/-- The phases of resolving a unit. -/
inductive Phase
  | registration
  | constants
  | fields
  | containment
  | headers
  | bodies
deriving DecidableEq, Repr

/-- The phases in order. -/
def Phase.all : List Phase := [registration, constants, fields, containment, headers, bodies]

/-- A declaration, and where it failed if it did. -/
structure Entry where
  decl : Decl
  failure : Option (Phase × Problem) := none

/-- The problem of an entry in a phase, if it failed there. -/
def Entry.problemIn? (phase : Phase) (e : Entry) : Option Problem :=
  (e.failure.filter fun f => f.1 = phase).map (·.2)

/-- What the phases build up. -/
structure Progress where
  catalog : Catalog := {}
  /-- The functions by name, in the order of their declarations. -/
  functions : List FunctionInfo := []
  /-- The structs that are on a reported cycle. -/
  onCycle : List String := []

namespace Progress

def function? (p : Progress) (name : String) : Option FunctionInfo := p.functions.find? fun f => f.name = name

/-- Changes the function of a name. -/
def modifyFunction (p : Progress) (name : String) (f : FunctionInfo → FunctionInfo) : Progress :=
  { p with functions := p.functions.map fun i => if i.name = name then f i else i }

/-- Changes the catalog. -/
def modifyCatalog (p : Progress) (f : Catalog → Catalog) : Progress := { p with catalog := f p.catalog }

end Progress

/-- What a phase does with one declaration: it goes on with the declaration as it is then, and perhaps with a
problem. -/
abbrev Step := Progress → Decl → Except Misplaced (Progress × Decl × Option Problem)

/-! ## Steps -/

namespace Step

/-- A declaration that halted and changed nothing. -/
def halted (p : Progress) (d : Decl) (halt : Halt) : Except Misplaced (Progress × Decl × Option Problem) := do
  return (p, d, some (← halt.report))

/-- The global symbol of a declaration. A struct names its own type; other types come later. -/
def symbol : Decl → Except Misplaced Symbol
  | .const d => .ok { name := d.name, kind := .const, level := .global, span := d.span }
  | .var d => .ok { name := d.name, kind := .var, level := .global, span := d.span }
  | .struct d =>
    .ok { name := d.name, kind := .struct, level := .global, ty := some (.struct d.name), span := d.span }
  | .func d => .ok { name := d.name, kind := .func, level := .global, span := d.span }
  | .foreign node => .error (.declaration node.text)

/-- Registers the name of a declaration. -/
def register : Step := fun p d => do
  let s ← symbol d
  match p.catalog.addGlobal s with
  | .error duplicate => return (p, d, some ⟨.duplicate duplicate, s.span⟩)
  | .ok catalog =>
    let p := { p with catalog }
    match d with
    | .struct d =>
      let info : StructInfo := { name := d.name, span := d.span }
      return (p.modifyCatalog fun c => { c with structs := c.structs ++ [info] }, .struct d, none)
    | .func d => return ({ p with functions := p.functions ++ [{ name := d.name }] }, .func d, none)
    | d => return (p, d, none)

/-- Resolves a constant. -/
def constant : Step := fun p d =>
  match d with
  | .const d =>
    match d.initializer p.catalog with
    | .error halt => halted p (.const d) halt
    | .ok i =>
      .ok (p.modifyCatalog fun c =>
          c.modifyGlobal d.name fun s => { s with ty := some i.ty, value := i.constant },
        .const { d with value := i.value }, none)
  | d => .ok (p, d, none)

/-- Resolves the fields of a struct. -/
def fields : Step := fun p d =>
  match d with
  | .struct d =>
    let (known, halt) := StructDecl.resolveFields p.catalog d.name [] d.fields
    let p := p.modifyCatalog fun c =>
      c.modifyStruct d.name fun i => { i with fields := known, isComplete := halt.isNone }
    match halt with
    | some halt => halted p (.struct d) halt
    | none => .ok (p, .struct d, none)
  | d => .ok (p, d, none)

/-- Looks for a struct inside itself. The structs of one cycle are reported once. -/
def containment : Step := fun p d =>
  match d with
  | .struct d =>
    match if d.name ∈ p.onCycle then none else p.catalog.cycle? d.name with
    | none => .ok (p, .struct d, none)
    | some cycle =>
      let p := p.modifyCatalog fun c => c.modifyStruct d.name fun i => { i with isComplete := false }
      .ok ({ p with onCycle := p.onCycle ++ cycle }, .struct d, some ⟨.selfContaining d.name cycle, d.span⟩)
  | d => .ok (p, d, none)

/-- Resolves the type of a variable or the signature of a function. -/
def header : Step := fun p d =>
  match d with
  | .var d =>
    match d.type.resolve p.catalog none false with
    | .error halt => halted p (.var d) halt
    | .ok t => .ok (p.modifyCatalog fun c => c.modifyGlobal d.name fun s => { s with ty := some t }, .var d, none)
  | .func d =>
    match d.signature p.catalog with
    | .error halt => halted p (.func d) halt
    | .ok signature =>
      let p := p.modifyCatalog fun c => c.modifyGlobal d.name fun s => { s with ty := some signature.ty }
      .ok (p.modifyFunction d.name fun i => { i with signature := some signature }, .func d, none)
  | d => .ok (p, d, none)

/-- Resolves the body of a function, and keeps its scope as a finished one. -/
def body (builtins : Builtins) : Step := fun p d =>
  match d with
  | .func d =>
    match (p.function? d.name).bind FunctionInfo.signature with
    | none => .ok (p, .func d, none)
    | some signature => do
      let (d, entered) ← d.resolveBody builtins p.catalog signature
      let p := p.modifyCatalog fun c => { c with finished := Catalog.finish c.finished entered.scope }
      return (p.modifyFunction d.name fun i => { i with entered := some entered }, .func d, entered.problem)
  | d => .ok (p, d, none)

/-- The step of a phase. -/
def ofPhase (builtins : Builtins) : Phase → Step
  | .registration => register
  | .constants => constant
  | .fields => fields
  | .containment => containment
  | .headers => header
  | .bodies => body builtins

end Step

/-! ## Phases -/

/-- Goes through the declarations that have not failed. -/
def Phase.run (phase : Phase) (step : Step) (p : Progress) :
    List Entry → Except Misplaced (Progress × List Entry)
  | [] => return (p, [])
  | e :: es => do
    if e.failure.isSome then
      let (p, es) ← phase.run step p es
      return (p, e :: es)
    else
      let (p, decl, problem) ← step p e.decl
      let (p, es) ← phase.run step p es
      return (p, { decl, failure := problem.map (phase, ·) } :: es)

/-- Runs phases one after another. -/
def Phase.runAll (builtins : Builtins) (p : Progress) (es : List Entry) :
    List Phase → Except Misplaced (Progress × List Entry)
  | [] => return (p, es)
  | phase :: phases => do
    let (p, es) ← phase.run (Step.ofPhase builtins phase) p es
    runAll builtins p es phases

/-- A resolved unit. -/
structure Resolution where
  entries : List Entry
  file : Option String
  catalog : Catalog
  functions : List FunctionInfo

namespace Resolution

/-- The tree of the unit with its notes. -/
def program (r : Resolution) : Program := { decls := r.entries.map (·.decl), file := r.file }

/-- The problems of the unit, phase by phase. -/
def problems (r : Resolution) : List Problem :=
  Phase.all.flatMap fun phase => r.entries.filterMap (Entry.problemIn? phase)

/-- The unit has no problem. -/
def isValid (r : Resolution) : Bool := r.entries.all fun e => e.failure.isNone

end Resolution

/-- Resolves a unit. -/
def Program.resolve (p : Program) (builtins : Builtins := Builtins.standard) : Except Misplaced Resolution := do
  let (progress, entries) ← Phase.runAll builtins {} (p.decls.map fun decl => { decl }) Phase.all
  return { entries, file := p.file, catalog := progress.catalog, functions := progress.functions }

end FlatScope
