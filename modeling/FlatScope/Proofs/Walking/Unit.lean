/-
  Walks through the functions of a unit. Where the declarations of a function of a parsed unit are read without a halt, its
  statements are checked by a walk that begins in no loop and at any number. The walk comes to what the function comes to, enters
  statements as they were read, each once and all of them if the function has no problem, and looks up each expression at the
  number of its own statement (`Program.walks_as_read`).
-/
import FlatScope.Proofs.Scopes.Unit
import FlatScope.Proofs.Walking.Body

namespace FlatScope

/-- A walk goes through a body as it is read. -/
structure Walk.Reads (body : List Stmt) (w : Walk) : Prop where
  /-- The statements that it enters are the first that are read, in the same order. -/
  statements : w.entered.map (fun x => x.1.2) <+: Stmt.flattenAll body
  /-- It has their addresses and numbers. -/
  places : w.entered <+: (Stmt.placesAll [] 0 body).zipIdx
  /-- It enters none of them twice. -/
  once : (w.entered.map fun x => x.1.1).Nodup
  timely : ∀ m ∈ w.moments, m.IsTimely body
  /-- It has left all loops. -/
  loops : w.loops = 0

theorem Stmt.map_zipIdx_placesAll {β : Type} (f : Address × Stmt → β) (body : List Stmt) :
    ((placesAll [] 0 body).zipIdx.map fun x => f x.1) = (placesAll [] 0 body).map f := by
  rw [← congrArg (List.map f) (List.zipIdx_map_fst 0 (placesAll [] 0 body)), List.map_map]
  rfl

/-- A walk through a body, whatever number it has in front of it. -/
theorem Stmt.exists_walk (s : Surroundings) (body : List Stmt) (start : Nat) : ∃ w : Walk,
    walkAll s (addressesAll [] 0 body) [] 0 body { index := start } = (checkAll s 0 0 body, w) ∧ w.Reads body
      ∧ ((∃ body', checkAll s 0 0 body = .ok body') → w.entered.map (fun x => x.1.2) = flattenAll body) := by
  have hstands : ∀ j t, body[j]? = some t → StandsIn body [0 + j] t 0 := by
    intro j t ht
    rw [Nat.zero_add]
    exact .top ht
  obtain ⟨j, ms, hwalk, hfront, hwhole, hms⟩ :=
    follows_walkAll [] 0 0 0 body (fun _ hp => hp) hstands start { index := start } rfl rfl
  have hstatements : ((placesAll [] 0 body).zipIdx.map fun x => x.1.2) = flattenAll body := by
    rw [map_zipIdx_placesAll Prod.snd, map_snd_placesAll]
  have haddresses : ((placesAll [] 0 body).zipIdx.map fun x => x.1.1) = addressesAll [] 0 body := by
    rw [map_zipIdx_placesAll Prod.fst, map_fst_placesAll]
  refine ⟨_, hwalk, ⟨?_, hfront, ?_, hms, rfl⟩, fun hok => ?_⟩
  · rw [← hstatements]
    exact hfront.map _
  · exact (haddresses ▸ nodup_addressesAll [] 0 body).sublist (hfront.map _).sublist
  · rw [← hstatements]
    exact congrArg (List.map _) (hwhole hok)

namespace FuncDecl

variable {b : Builtins} {c : Catalog} {s : Signature} {d : FuncDecl} {scope : LocalScope}

/-- The body of a function whose declarations have all been read: its labels have their numbers. -/
def labeled (d : FuncDecl) : List Stmt := Stmt.numberAll (Stmt.flattenAll d.body).length 0 d.body

/-- The check of the statements of a function whose declarations have made a scope, as a walk that begins at a number. -/
def walkBody (b : Builtins) (c : Catalog) (scope : LocalScope) (start : Nat) (d : FuncDecl) :
    Checked (List Stmt) (List Stmt) × Walk :=
  Stmt.walkAll ⟨b, c.within scope, d.name⟩ (Stmt.addressesAll [] 0 d.labeled) [] 0 d.labeled { index := start }

/-- Where declarations are read without a halt, it is the check of the statements that decides what comes of the function. -/
theorem Collects.checks (h : d.Collects c s scope) (hd : d.IsWellFormed) {d' : FuncDecl} {e : Entered}
    (hbody : d.resolveBody b c s = .ok (d', e)) :
    (Stmt.checkAll ⟨b, c.within scope, d.name⟩ 0 0 d.labeled = .ok d'.body ∧ e.problem = none)
      ∨ ∃ q, Stmt.checkAll ⟨b, c.within scope, d.name⟩ 0 0 d.labeled = .error (.problem q, d'.body)
        ∧ e.problem = some q := by
  obtain ⟨head, hadd, hcollect⟩ := h
  rw [resolveBody_eq, work, hadd, hd.2.2.2.2.misplaced?] at hbody
  dsimp only at hbody
  rw [hcollect, workStatements] at hbody
  dsimp only at hbody
  rw [← labeled] at hbody
  cases hcheck : Stmt.checkAll ⟨b, c.within scope, d.name⟩ 0 0 d.labeled with
  | ok body =>
    rw [hcheck] at hbody
    obtain ⟨rfl, rfl⟩ := Prod.mk.inj (Except.ok.inj hbody)
    exact .inl ⟨rfl, rfl⟩
  | error left =>
    obtain ⟨halt, body⟩ := left
    rw [hcheck] at hbody
    cases halt with
    | problem q =>
      obtain ⟨rfl, rfl⟩ := Prod.mk.inj (Except.ok.inj hbody)
      exact .inr ⟨q, rfl, rfl⟩
    | misplaced m => cases hbody

end FuncDecl

/-- A walk through the body of a function `d`, which has become `d'`, with the scope that its declarations have made, comes to
what the function has come to. -/
structure Entered.IsWalked (b : Builtins) (c : Catalog) (e : Entered) (d d' : FuncDecl) (scope : LocalScope) (start : Nat)
    (outcome : Checked (List Stmt) (List Stmt)) (w : Walk) : Prop where
  walk : d.walkBody b c scope start = (outcome, w)
  /-- It comes to what the check of the body comes to. -/
  check : outcome = Stmt.checkAll ⟨b, c.within scope, d.name⟩ 0 0 d.labeled
  outcome : outcome = .ok d'.body ∧ e.problem = none
    ∨ ∃ q, outcome = .error (.problem q, d'.body) ∧ e.problem = some q
  reads : w.Reads d.labeled
  /-- It enters all statements if the function has no problem. -/
  whole : e.problem = none → w.entered.map (fun x => x.1.2) = Stmt.flattenAll d.labeled

/-- In every function that has read its declarations, a walk that begins at any number comes to what the function has come
to. -/
def Resolution.IsWalked (b : Builtins) (p : Program) (r : Resolution) : Prop :=
  ∀ f ∈ r.functions, ∀ e, f.entered = some e → ∃ d d' s, r.HasCollected b p f e d d' s
    ∧ ∀ scope, d.Collects r.catalog s scope →
      ∀ start, ∃ outcome w, e.IsWalked b r.catalog d d' scope start outcome w

/-- Statements of a parsed unit are checked as they were read. Where the declarations of a function are read without a halt, which
they are in a function without a problem, the walk through its body, wherever it begins, comes to what the function has come to.
The statements that it enters are the first of those that were read, in the same order and none twice, and all of them if there is
no problem. Whatever it looks up for an expression or a type to allocate it looks up at the number of the statement that the
expression stands in, and with the number of loops around this statement. -/
theorem Program.walks_as_read {source : String} {file : Option String} {p : Program} (h : ofSource source file = .ok p)
    (b : Builtins) : ∃ r, p.resolve b = .ok r ∧ r.IsWalked b p := by
  have hp := isWellFormed_of_ofSource h
  obtain ⟨r, -, hr, -⟩ := exists_resolve hp b
  refine ⟨r, hr, fun f hf e he => ?_⟩
  obtain ⟨d, d', s, hfunction⟩ := exists_hasCollected hp hr hf he
  refine ⟨d, d', s, hfunction, fun scope hcollects start => ?_⟩
  have hchecks := hcollects.checks hfunction.wellFormed hfunction.body
  obtain ⟨w, hwalk, hreads, hwhole⟩ := Stmt.exists_walk ⟨b, r.catalog.within scope, d.name⟩ d.labeled start
  refine ⟨_, w, hwalk, rfl, hchecks, hreads, fun hproblem => hwhole ?_⟩
  obtain ⟨hok, -⟩ | ⟨q, -, hq⟩ := hchecks
  · exact ⟨_, hok⟩
  · exact nomatch hproblem.symm.trans hq

/-- The numbers that walks through the functions of a source have whenever something happens: of a statement, and of loops. -/
def numbersOf (source : String) : Option (List (List (Nat × Nat))) := do
  let p ← (Program.ofSource source).toOption
  let r ← p.resolve.toOption
  return r.catalog.finished.map fun scope => p.decls.flatMap fun
    | .func d =>
      if d.name = scope.function then
        (d.walkBody Builtins.standard r.catalog scope 0).2.moments.map fun m => (m.index, m.loops)
      else []
    | _ => []

/-- A function that goes on behind nested bodies, and one that does not get behind a jump. -/
def afterBodies : String :=
  "fun f void(var n int) \x7b while n \x7b if n \x7b n := 1 \x7d else if n \x7b while n \x7b break \x7d \x7d n := 2 \x7d var p int* p := _alloc(int) \x7d fun g void() \x7b goto label out label in \x7d"

set_option maxRecDepth 1500 in
theorem Program.walks_as_read_after :
    ∃ p r, ofSource afterBodies = .ok p ∧ p.resolve = .ok r ∧ statesOf afterBodies = some [.done, .failed]
      ∧ numbersOf afterBodies = some
        [[(0, 0), (0, 0), (1, 1), (1, 1), (2, 1), (2, 1), (2, 1), (2, 1), (3, 1), (3, 1), (4, 1), (4, 1), (5, 2), (6, 1), (6, 1),
          (6, 1), (6, 1), (7, 0), (8, 0), (8, 0), (8, 0), (8, 0), (8, 0), (8, 0)], [(0, 0)]]
      ∧ r.IsWalked Builtins.standard p := by
  have hstates : statesOf afterBodies = some [.done, .failed] := Program.bind_ofSource (by decide +kernel)
  obtain ⟨p, hp, hrest⟩ := Option.bind_eq_some_iff.mp hstates
  obtain ⟨r, hr, -⟩ := Option.bind_eq_some_iff.mp hrest
  have hp := Except.toOption_eq_some_iff.mp hp
  have hr := Except.toOption_eq_some_iff.mp hr
  obtain ⟨r', hr', hwalks⟩ := walks_as_read hp Builtins.standard
  obtain rfl := Except.ok.inj (hr.symm.trans hr')
  exact ⟨p, r, hp, hr, hstates, Program.bind_ofSource (by decide +kernel), hwalks⟩

end FlatScope
