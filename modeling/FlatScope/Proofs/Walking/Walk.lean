/-
  Walks. The check of a body, as it goes with a state: the number of the statement that was entered last, which is not put back
  when a nested body ends, and the number of loops that it is in. A walk writes down which statements it enters and for which
  expressions it asks its state for the number (`Moment`), and it gets at the number in no other way (`Walked.look`). This is the
  check itself, with each number looked up by the address of a statement in place of the numbers that `check` counts.
-/
import FlatScope.Proofs.Resolution.Check
import FlatScope.Proofs.Totality.Numbers

namespace FlatScope

/-! ## States -/

/-- What is done on a walk: a statement is entered, or something is looked up for an expression. -/
inductive Act
  | enter (s : Stmt)
  | look (e : Expr)

/-- What is done for the statement with an address, and the numbers that the walk has at that time. -/
structure Moment where
  address : Address
  act : Act
  index : Nat
  loops : Nat

/-- The number of the statement that was entered last, the number of loops around, and what has happened. -/
structure Walk where
  index : Nat
  loops : Nat := 0
  moments : List Moment := []

/-- A check that goes with a state. -/
abbrev Walked (α β : Type) := Walk → Checked α β × Walk

/-- Goes on with what a check gives. What one that halts leaves behind becomes a part of more. -/
def Checked.proceed {α β γ δ : Type} (x : Checked α β) (left : α → γ) (f : β → Checked γ δ) : Checked γ δ :=
  match x with
  | .error (halt, e) => .error (halt, left e)
  | .ok r => f r

/-- Writes down what is done for the statement with an address. -/
def Walk.note (w : Walk) (a : Address) (act : Act) : Walk :=
  { w with moments := w.moments ++ [⟨a, act, w.index, w.loops⟩] }

namespace Walked

variable {α β γ δ : Type}

def done (r : Checked α β) : Walked α β := fun w => (r, w)

def proceed (x : Walked α β) (left : α → γ) (f : β → Walked γ δ) : Walked γ δ := fun w =>
  match x w with
  | (.error (halt, e), w) => (.error (halt, left e), w)
  | (.ok r, w) => f r w

/-- Goes on at the site that the walk has at this time, for an expression of the statement with an address. -/
def look (s : Surroundings) (a : Address) (e : Expr) (f : Site → Walked α β) : Walked α β := fun w =>
  f (s.site w.index) (w.note a (.look e))

/-- Enters the statement with an address, whose number is looked up among the addresses that were read. -/
def enter (read : List Address) (a : Address) (s : Stmt) (x : Walked α β) : Walked α β := fun w =>
  x ({ w with index := read.idxOf a }.note a (.enter s))

/-- Goes through the body of a loop. Also a check that halts leaves the loop. -/
def looping (x : Walked α β) : Walked α β := fun w =>
  match x { w with loops := w.loops + 1 } with
  | (r, w) => (r, { w with loops := w.loops - 1 })

/-- Goes on with the number of loops around. -/
def countingLoops (f : Nat → Walked α β) : Walked α β := fun w => f w.loops w

end Walked

/-! ## Expressions -/

namespace Walked

variable (s : Surroundings) (a : Address)

/-- An element of a checked base, with an index that is checked by the walk `x`. -/
def indexed (base : Expr) (t : Ty) (i : Expr) (info : Info) (x : Walked Expr (Expr × Ty)) : Walked Expr (Expr × Ty) :=
  match t.element? with
  | none => done (.error (.at info.span (.notIndexed t), .index base i info))
  | some element => x.proceed (.index base · info) fun (i', u) =>
    done (if u = .int then .ok (.index base i' { info with ty := some element }, element)
      else .error (.at i'.span (.indexNotInt u), .index base i' info))

/-- What stands behind the checked base of `e`: the field of a struct, or an element. -/
def behind (e base : Expr) (t : Ty) (i : Expr) (info : Info) (x : Walked Expr (Expr × Ty)) : Walked Expr (Expr × Ty) :=
  match t with
  | .struct struct => look s a e fun site => done (site.selected base struct i info)
  | t => indexed base t i info x

/-- A callee: a name of what can only be called, or something that is checked as a value by the walk `x`. -/
def calling (span : Span) (e : Expr) (x : Walked Expr (Expr × Ty)) : Walked Expr (Expr × CallForm) :=
  look s a e fun site =>
    match site.callForm? span e with
    | .error halt => done (.error (halt, e))
    | .ok (some called) => done (.ok called)
    | .ok none => x.proceed id fun (e', t) =>
      match t with
      | .func params result => done (.ok (e', .fixed e.ident? { params, result }))
      | t => done (.error (.at e'.span (.notCallable t), e'))

/-- What an address is taken of: a name of a function, or something that is checked as a value by the walk `x`. -/
def address (target : Expr) (info : Info) (x : Walked Expr (Expr × Ty)) : Walked Expr (Expr × Ty) :=
  look s a target fun site =>
    match site.functionAddress? target with
    | .error halt => done (.error (halt, .addrOf target info))
    | .ok (some (target', t)) => done (.ok (.addrOf target' { info with ty := some t }, t))
    | .ok none => x.proceed (.addrOf · info) fun (target', t) =>
      done (if target'.isAddressable then .ok (.addrOf target' { info with ty := some (.pointer t) }, .pointer t)
        else .error (.at target'.span .notAddressable, .addrOf target' info))

/-- An operand in its slot. A type to allocate is looked up, and all else is checked by the walk `x`. -/
def operand (slot : Slot) (e : Expr) (x : Walked Expr (Expr × Ty)) : Walked Expr (Expr × Ty) :=
  if slot = .allocated then look s a e fun site => done (site.typeOperand e) else x

end Walked

namespace Expr

open Walked

mutual

/-- Checks an expression of the statement with address `a`. -/
def walk (s : Surroundings) (a : Address) (context : Option Ty) : Expr → Walked Expr (Expr × Ty)
  | .index base i info =>
    look s a (.index base i info) fun _ =>
    (base.walk s a none).proceed (.index · i info) fun (base', t) =>
    behind s a (.index base i info) base' t i info (i.walk s a none)
  | .field base name info =>
    look s a (.field base name info) fun _ =>
    (base.walk s a none).proceed (.field · name info) fun (base', t) =>
    look s a (.field base name info) fun site => done (site.select base' t name info.span (.field base' name info))
  | .call e args info =>
    look s a (.call e args info) fun _ =>
    (calling s a info.span e (e.walk s a none)).proceed (.call · args info) fun (e', form) =>
      match form.slots args.length with
      | .error cause => done (.error (.at info.span cause, .call e' args info))
      | .ok slots => (walkAll s a slots args).proceed (.call e' · info) fun (args', types) =>
        done (.ok (.call (form.noteCallee types e') args' { info with ty := some (form.result types) }, form.result types))
  | .addrOf target info => look s a (.addrOf target info) fun _ => address s a target info (target.walk s a none)
  | .composite elements info =>
    look s a (.composite elements info) fun site =>
      match context with
      | none => done (.error (.at info.span .compositeContext, .composite elements info))
      | some t =>
        match site.catalog.elementSlots t elements.length with
        | .error cause => done (.error (.at info.span cause, .composite elements info))
        | .ok slots =>
          (walkAll s a slots elements).proceed (.composite · info) fun (elements', _) =>
            done (.ok (.composite elements' { info with ty := some t }, t))
  | e => look s a e fun site => done (e.check site context)

/-- Checks operands for their slots, in order. -/
def walkAll (s : Surroundings) (a : Address) : List Slot → List Expr → Walked (List Expr) (List Expr × List Ty)
  | slot :: slots, e :: es =>
    (operand s a slot e (e.walk s a slot.context)).proceed (· :: es) fun (e', t) =>
      match slot.refusal? t with
      | some cause => done (.error (.at e'.span cause, leftBehind e e' :: es))
      | none => (walkAll s a slots es).proceed (leftBehind e e' :: ·) fun (es', ts) => done (.ok (e' :: es', t :: ts))
  | _, es => done (.ok (es, []))

end

end Expr

/-! ## Statements -/

namespace Stmt

open Walked

/-- Checks the target of an assignment: first the name at its root, then the place. -/
def walkTarget (s : Surroundings) (a : Address) (target : Expr) : Walked Expr (Expr × Ty) :=
  look s a target.root fun site =>
    match target.root.rootName with
    | .error m => done (.error (.misplaced m, target))
    | .ok name =>
      match (site.lookup name).filter fun s => !s.kind.isStorage with
      | some symbol => done (.error (.at target.span (.notAssignable name symbol.kind), target))
      | none => target.walk s a none

def walkAssign (s : Surroundings) (a : Address) (target value : Expr) (span : Span) : Walked Stmt Stmt :=
  (walkTarget s a target).proceed (.assign · value span) fun (target', t) =>
  (value.walk s a (some t)).proceed (.assign target' · span) fun (value', u) =>
    done (if u = t then .ok (.assign target' value' span) else .error (.at span (.assignedType u t), .assign target' value' span))

def walkCall (s : Surroundings) (a : Address) (e : Expr) (span : Span) : Walked Stmt Stmt :=
  match e with
  | .call .. => (e.walk s a none).proceed (.call · span) fun (e', _) => done (.ok (.call e' span))
  | e => done (.error (.misplaced (.noPart e.className "callee"), .call e span))

def walkCondition (s : Surroundings) (a : Address) (e : Expr) : Walked Expr Expr :=
  (e.walk s a none).proceed id fun (e', t) =>
    done (if t = .int then .ok e' else .error (.at e'.span (.conditionType t), leftBehind e e'))

mutual

/-- Checks the statement with address `a`, which has been entered. -/
def walkInside (s : Surroundings) (read : List Address) (a : Address) : Stmt → Walked Stmt Stmt
  | .var d => done (.ok (.var d))
  | .label name index span => done (.ok (.label name index span))
  | .assign target value span => walkAssign s a target value span
  | .call e span => walkCall s a e span
  | .ifThen c body braces otherwise span =>
    (walkCondition s a c).proceed (.ifThen · body braces otherwise span) fun c' =>
    (walkAll s read (0 :: a) 0 body).proceed (.ifThen c' · braces otherwise span) fun body' =>
    (walkElse s read (1 :: a) otherwise).proceed (.ifThen c' body' braces · span) fun otherwise' =>
    done (.ok (.ifThen c' body' braces otherwise' span))
  | .whileDo c body braces span =>
    (walkCondition s a c).proceed (.whileDo · body braces span) fun c' =>
    (looping (walkAll s read (0 :: a) 0 body)).proceed (.whileDo c' · braces span) fun body' =>
    done (.ok (.whileDo c' body' braces span))
  | .breakLoop span => countingLoops fun loops =>
    done (if loops = 0 then .error (.at span .breakOutsideLoop, .breakLoop span) else .ok (.breakLoop span))
  | .continueLoop span => countingLoops fun loops =>
    done (if loops = 0 then .error (.at span .continueOutsideLoop, .continueLoop span) else .ok (.continueLoop span))
  | .goto name target span => done (s.checkGoto name target span)
  | .block body span => (walkAll s read (0 :: a) 0 body).proceed (.block · span) fun body' => done (.ok (.block body' span))
  | .foreign node => done (.error (.misplaced (.statement node.text), .foreign node))

/-- Checks what follows an `else`: another `if`, which is entered, or a block, which is not. -/
def walkElse (s : Surroundings) (read : List Address) (a : Address) : Option Stmt → Walked (Option Stmt) (Option Stmt)
  | none => done (.ok none)
  | some (.block body span) =>
    (walkAll s read a 0 body).proceed (some <| .block · span) fun body' => done (.ok (some (.block body' span)))
  | some branch =>
    if branch.isIf then
      (enter read a branch (branch.walkInside s read a)).proceed some fun branch' => done (.ok (some branch'))
    else done (.error (.misplaced (.noPart branch.className "statements"), some branch))

/-- Enters and checks the statements of a list, the first of which is the one with position `k`. -/
def walkAll (s : Surroundings) (read : List Address) (a : Address) (k : Nat) : List Stmt → Walked (List Stmt) (List Stmt)
  | [] => done (.ok [])
  | stmt :: rest =>
    (enter read (k :: a) stmt (stmt.walkInside s read (k :: a))).proceed (· :: rest) fun stmt' =>
    (walkAll s read a (k + 1) rest).proceed (stmt' :: ·) fun rest' => done (.ok (stmt' :: rest'))

end

end Stmt

end FlatScope
