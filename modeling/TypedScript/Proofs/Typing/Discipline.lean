import TypedScript.Proofs.Typing.Faults
import TypedScript.Proofs.Typing.Sites

namespace TypedScript.Typing

variable {α β : Type} {env : Vectors} {s m t : State}

namespace Manner

def still : Manner := ⟨fun _ => True, False, False⟩

theorem still_admits : still.Admits := fun _ _ => trivial

end Manner

namespace State

structure KeepsScopes (s t : State) : Prop where
  scopes : t.scopes = s.scopes
  idle : s.function = none → t.function = none

structure KeepsOuter (s t : State) : Prop where
  outer : t.scopes.outer = s.scopes.outer
  idle : s.function = none → t.function = none

theorem KeepsScopes.refl (s : State) : KeepsScopes s s := ⟨rfl, id⟩

theorem KeepsScopes.trans (first : KeepsScopes s m) (second : KeepsScopes m t) : KeepsScopes s t :=
  ⟨second.scopes.trans first.scopes, second.idle ∘ first.idle⟩

theorem KeepsScopes.toOuter (kept : KeepsScopes s t) : KeepsOuter s t := ⟨congrArg Scopes.outer kept.scopes, kept.idle⟩

theorem KeepsOuter.trans (first : KeepsOuter s m) (second : KeepsOuter m t) : KeepsOuter s t :=
  ⟨second.outer.trans first.outer, second.idle ∘ first.idle⟩

theorem KeepsOuter.popped (kept : KeepsOuter s.pushed t) : KeepsScopes s t.popped :=
  ⟨Scopes.pop_eq kept.outer, kept.idle⟩

end State

open State

-- The state that a check leaves is related to the one it found, whether it succeeds or fails.
def Leaves (kept : State → State → Prop) (check : Check α) : Prop := ∀ env s, kept s (finalState (check env s))

namespace Leaves

variable {kept : State → State → Prop} {check first : Check α} {next : α → Check β}

theorem of_outcomes (passed : ∀ env s value t, check env s = .ok value t → kept s t)
    (failed : ∀ env s error t, check env s = .error error t → kept s t) : Leaves kept check := by
  intro env s
  cases ran : check env s with
  | ok value t => exact passed env s value t ran
  | error error t => exact failed env s error t ran

theorem passed {value : α} (leaves : Leaves kept check) (ran : check env s = .ok value t) : kept s t := by
  have left := leaves env s
  rwa [ran] at left

theorem failed {error : Error} (leaves : Leaves kept check) (ran : check env s = .error error t) : kept s t := by
  have left := leaves env s
  rwa [ran] at left

theorem chain (trans : ∀ {s m t}, kept s m → kept m t → kept s t) (start : Leaves kept first)
    (rest : ∀ value, Leaves kept (next value)) : Leaves kept (first >>= next) := by
  refine of_outcomes (fun env s value t ran => ?_) fun env s error t ran => ?_
  · obtain ⟨found, m, head, last⟩ := bind_ok.mp ran
    exact trans (start.passed head) ((rest found).passed last)
  · rcases bind_error.mp ran with stopped | ⟨found, m, head, last⟩
    · exact start.failed stopped
    · exact trans (start.passed head) ((rest found).failed last)

theorem bind (start : Leaves KeepsScopes first) (rest : ∀ value, Leaves KeepsScopes (next value)) :
    Leaves KeepsScopes (first >>= next) :=
  chain KeepsScopes.trans start rest

theorem bindOuter (start : Leaves KeepsOuter first) (rest : ∀ value, Leaves KeepsOuter (next value)) :
    Leaves KeepsOuter (first >>= next) :=
  chain KeepsOuter.trans start rest

theorem toOuter (leaves : Leaves KeepsScopes check) : Leaves KeepsOuter check :=
  fun env s => (leaves env s).toOuter

theorem pure (value : α) : Leaves KeepsScopes (pure value) := fun _ s => .refl s

theorem fail (cause : Cause) (place : Position) : Leaves KeepsScopes (fail cause place : Check α) := fun _ s => .refl s

theorem ite {condition : Prop} [Decidable condition] {yes no : Check α} (left : Leaves kept yes)
    (right : Leaves kept no) : Leaves kept (if condition then yes else no) := by
  split
  · exact left
  · exact right

theorem inScope (body : Leaves KeepsOuter check) : Leaves KeepsScopes (inScope check) := by
  refine of_outcomes (fun env s value t ran => ?_) fun env s error t ran => ?_
  · obtain ⟨m, inside, rfl⟩ := inScope_ok.mp ran
    exact (body.passed inside).popped
  · obtain ⟨m, inside, rfl⟩ := inScope_error.mp ran
    exact (body.failed inside).popped

end Leaves

theorem Runs.leaves {check : Check α} (runs : Runs Manner.still check) : Leaves KeepsScopes check := by
  intro env s
  have moves := runs.moves env s
  refine ⟨moves.scopes id, fun idle => ?_⟩
  rw [moves.function id, idle]

theorem checkExpr_leaves (expr : Expr) : Leaves KeepsScopes (checkExpr expr) :=
  (checkExpr_runs Manner.still_admits expr).leaves

theorem checkCondition_leaves (condition : Expr) : Leaves KeepsScopes (checkCondition condition) :=
  (checkCondition_runs Manner.still_admits condition).leaves

theorem checkVariable_leaves (decl : Variable) : Leaves KeepsScopes (checkVariable decl) :=
  (checkVariable_runs Manner.still_admits decl).leaves

theorem requireKnown_leaves (type : Ty) (place : Position) : Leaves KeepsScopes (requireKnown type place) :=
  (requireKnown_runs Manner.still_admits type place).leaves

theorem Scopes.bound_fresh {scopes : Scopes} {name : String} {type : Ty}
    (fresh : scopes.inner.contains name = false) :
    scopes.bound name type = ⟨⟨(name, type) :: scopes.inner.entries⟩, scopes.outer⟩ := by
  simp [bound, Table.insertNew, fresh]

theorem bindMember_refused {name : String} {type : Ty} {place : Position} {error : Error}
    (ran : bindMember name type place env s = .error error t) : t = s := by
  unfold bindMember at ran
  cases declared : s.scopes.declare name type place with
  | ok scopes =>
    rw [declared] at ran
    cases ran
  | error fault =>
    rw [declared] at ran
    cases ran
    rfl

theorem bindLocal_refused {name : String} {type : Ty} {place : Position} {error : Error}
    (ran : bindLocal name type place env s = .error error t) : t = s := by
  simp only [bindLocal, catalog_bind] at ran
  cases free : s.catalog.requireFree name place with
  | ok value =>
    rw [free] at ran
    have bound : bindMember name type place env s = .error error t := ran
    exact bindMember_refused bound
  | error fault =>
    rw [free] at ran
    cases ran
    rfl

theorem bindMember_leaves (name : String) (type : Ty) (place : Position) :
    Leaves KeepsOuter (bindMember name type place) := by
  refine .of_outcomes (fun env s value t ran => ?_) fun env s error t ran => ?_
  · obtain ⟨-, rfl⟩ := bindMember_bound ran
    exact ⟨rfl, id⟩
  · rw [bindMember_refused ran]
    exact ⟨rfl, id⟩

theorem bindLocal_leaves (name : String) (type : Ty) (place : Position) :
    Leaves KeepsOuter (bindLocal name type place) := by
  refine .of_outcomes (fun env s value t ran => ?_) fun env s error t ran => ?_
  · obtain ⟨-, -, rfl⟩ := bindLocal_bound ran
    exact ⟨rfl, id⟩
  · rw [bindLocal_refused ran]
    exact ⟨rfl, id⟩

theorem checkLocal_leaves (decl : Variable) : Leaves KeepsOuter (checkLocal decl) :=
  .bindOuter (checkVariable_leaves decl).toOuter fun _ => bindLocal_leaves _ _ _

theorem checkLocal_refused {decl : Variable} {error : Error} (ran : checkLocal decl env s = .error error t) :
    t.scopes = s.scopes := by
  rcases bind_error.mp ran with stopped | ⟨_, m, checked, refused⟩
  · exact ((checkVariable_leaves decl).failed stopped).scopes
  · rw [bindLocal_refused refused]
    exact ((checkVariable_leaves decl).passed checked).scopes

theorem checkLocal_bound {decl : Variable} {value : Unit} (ran : checkLocal decl env s = .ok value t) :
    s.scopes.inner.contains decl.name = false ∧
      t.scopes = ⟨⟨(decl.name, decl.type) :: s.scopes.inner.entries⟩, s.scopes.outer⟩ := by
  obtain ⟨_, m, checked, bound⟩ := bind_ok.mp ran
  obtain ⟨-, fresh, rfl⟩ := bindLocal_bound bound
  rw [← ((checkVariable_leaves decl).passed checked).scopes]
  exact ⟨fresh, Scopes.bound_fresh fresh⟩

theorem checkOpenings_leaves (openings : List Opening) : Leaves KeepsOuter (checkOpenings openings) := by
  induction openings with
  | nil => exact (Leaves.pure ()).toOuter
  | cons first others ih =>
    refine .bindOuter ?_ fun _ => ih
    cases first with
    | declare decl => exact checkLocal_leaves decl
    | evaluate expr => exact (Leaves.bind (checkExpr_leaves expr) fun _ => .pure ()).toOuter

theorem checkParameters_leaves (parameters : List Parameter) : Leaves KeepsOuter (checkParameters parameters) := by
  induction parameters with
  | nil => exact (Leaves.pure ()).toOuter
  | cons first others ih =>
    exact .bindOuter (requireKnown_leaves _ _).toOuter fun _ => .bindOuter (bindLocal_leaves _ _ _) fun _ => ih

theorem checkFields_leaves (fields : List Variable) : Leaves KeepsOuter (checkFields fields) := by
  induction fields with
  | nil => exact (Leaves.pure ()).toOuter
  | cons first others ih =>
    exact .bindOuter (checkVariable_leaves first).toOuter fun _ => .bindOuter (bindMember_leaves _ _ _) fun _ => ih

theorem checkMembers_leaves (type : Ty) (members : List Member) : Leaves KeepsOuter (checkMembers type members) := by
  induction members with
  | nil => exact (Leaves.pure ()).toOuter
  | cons first others ih => exact .bindOuter (bindMember_leaves _ _ _) fun _ => ih

theorem checkReturn_leaves (place : Position) (given : Option Expr) :
    Leaves KeepsScopes (checkReturn place given) := by
  have current : Leaves KeepsScopes (currentFunction place) := by
    intro env s
    unfold currentFunction
    split <;> exact .refl s
  have marked : Leaves KeepsScopes markReturned := by
    intro env s
    exact ⟨rfl, fun idle => congrArg (Option.map _) idle⟩
  refine .bind current fun frame => ?_
  cases given with
  | none => exact .ite (.pure ()) (.fail _ _)
  | some value =>
    exact .ite (.fail _ _) (.bind (checkExpr_leaves value) fun _ =>
      .bind (requireAssignable_runs Manner.still_admits _ _ _).leaves fun _ => marked)

def Kept : Stmt → State → State → Prop
  | .declare _ => KeepsOuter
  | _ => KeepsScopes

theorem Kept.outer {stmt : Stmt} (kept : Kept stmt s t) : KeepsOuter s t := by
  cases stmt with
  | declare decl => exact kept
  | _ => exact KeepsScopes.toOuter kept

theorem Kept.scopes {stmt : Stmt} (other : ∀ decl, stmt ≠ .declare decl) (kept : Kept stmt s t) :
    t.scopes = s.scopes := by
  cases stmt with
  | declare decl => exact absurd rfl (other decl)
  | _ => exact KeepsScopes.scopes kept

theorem ownScope_leaves {stmt : Stmt} (body : Leaves (Kept stmt) (checkStmt stmt)) :
    Leaves KeepsScopes (ownScope stmt (checkStmt stmt)) := by
  unfold ownScope
  cases stmt with
  | block span stmts => exact body
  | _ => exact .inScope fun env s => (body env s).outer

mutual

theorem checkStmt_leaves (stmt : Stmt) : Leaves (Kept stmt) (checkStmt stmt) := by
  cases stmt with
  | block span body => exact .inScope (checkStmts_leaves body)
  | declare decl => exact checkLocal_leaves decl
  | evaluate span expr => exact .bind (checkExpr_leaves expr) fun _ => .pure ()
  | jump span kind given =>
    cases kind with
    | returning => exact checkReturn_leaves span.start given
    | breaking | continuing => exact .pure ()
  | ifThen span condition body | whileLoop span condition body =>
    exact .bind (checkCondition_leaves condition) fun _ => ownScope_leaves (checkStmt_leaves body)
  | ifElse span condition body other =>
    exact .bind (checkCondition_leaves condition) fun _ =>
      .bind (ownScope_leaves (checkStmt_leaves body)) fun _ => ownScope_leaves (checkStmt_leaves other)
  | forLoop span openings condition iterators body =>
    have condition_leaves := (checkOptionalCondition_runs Manner.still_admits condition).leaves
    have iterators_leave := (checkAll_runs Manner.still_admits iterators).leaves
    have body_leaves := ownScope_leaves (checkStmt_leaves body)
    exact .inScope <| .bindOuter (checkOpenings_leaves openings) fun _ =>
      (Leaves.bind condition_leaves fun _ => .bind iterators_leave fun _ => body_leaves).toOuter
termination_by structural stmt

theorem checkStmts_leaves (stmts : List Stmt) : Leaves KeepsOuter (checkStmts stmts) := by
  cases stmts with
  | nil => exact (Leaves.pure ()).toOuter
  | cons first others =>
    exact .bindOuter (fun env s => (checkStmt_leaves first env s).outer) fun _ => checkStmts_leaves others

end

theorem inFunction_leaves (name : String) (returns : Ty) {body : Check Unit} (inner : Leaves KeepsOuter body)
    (env : Vectors) (s : State) :
    let left := finalState (inFunction name returns body env s)
    left.scopes = s.scopes ∧ left.function = none := by
  cases ran : inFunction name returns body env s with
  | ok returned t =>
    obtain ⟨m, inside, -, rfl⟩ := inFunction_ok ran
    exact ⟨(inner.passed inside).popped.scopes, rfl⟩
  | error error t =>
    obtain ⟨m, inside, rfl⟩ := inFunction_error ran
    exact ⟨(inner.failed inside).popped.scopes, rfl⟩

theorem checkFunction_leaves (decl : Function) (env : Vectors) (s : State) :
    let left := finalState (checkFunction decl env s)
    left.scopes = s.scopes ∧ (left.function = none ∨
      ∃ error, s.catalog.requireKnown decl.span.start decl.returns = .error error ∧
        checkFunction decl env s = .error error s) := by
  cases known : s.catalog.requireKnown decl.span.start decl.returns with
  | error error =>
    have stopped : checkFunction decl env s = .error error s := by
      refine bind_of_error ?_
      simp only [requireKnown, catalog_bind, known]
      rfl
    rw [stopped]
    exact ⟨rfl, .inr ⟨error, rfl, rfl⟩⟩
  | ok value =>
    have body : Leaves KeepsOuter (do checkParameters decl.parameters; checkStmts decl.body) :=
      .bindOuter (checkParameters_leaves _) fun _ => checkStmts_leaves _
    have passed : requireKnown decl.returns decl.span.start env s = .ok value s := by
      simp only [requireKnown, catalog_bind, known]
      rfl
    have verdict (returned : Bool) : Leaves KeepsScopes
        (if decl.returns = .void ∨ returned then Pure.pure () else fail (.missingReturn decl.name) decl.span.start) :=
      .ite (.pure ()) (.fail _ _)
    obtain ⟨scopes, function⟩ := inFunction_leaves decl.name decl.returns body env s
    unfold checkFunction
    rw [bind_of_ok passed]
    cases ran : inFunction decl.name decl.returns (do checkParameters decl.parameters; checkStmts decl.body) env s with
    | ok returned m =>
      rw [bind_of_ok ran]
      rw [ran] at scopes function
      have last := verdict returned env m
      exact ⟨last.scopes.trans scopes, .inl (last.idle function)⟩
    | error error m =>
      rw [bind_of_error ran]
      rw [ran] at scopes function
      exact ⟨scopes, .inl function⟩

theorem checkDeclaration_leaves (decl : Declaration) : Leaves KeepsScopes (checkDeclaration decl) := by
  cases decl with
  | global decl => exact checkVariable_leaves decl
  | function decl =>
    intro env s
    obtain ⟨scopes, left | ⟨error, -, stopped⟩⟩ := checkFunction_leaves decl env s
    · exact ⟨scopes, fun _ => left⟩
    · refine ⟨scopes, fun idle => ?_⟩
      show (finalState (checkFunction decl env s)).function = none
      rw [stopped]
      exact idle
  | struct decl => exact .inScope (checkFields_leaves decl.fields)
  | enumeration decl => exact .inScope (checkMembers_leaves _ decl.members)
  | delegate decl => exact (requireAllKnown_runs Manner.still_admits _ _).leaves

theorem checkDeclarations_leaves (decls : List Declaration) : Leaves KeepsScopes (checkDeclarations decls) := by
  induction decls with
  | nil => exact .pure ()
  | cons first others ih => exact .bind (checkDeclaration_leaves first) fun _ => ih

-- The states between the operations of a checker: it starts, opens and closes scopes, binds names, and checks parts of
-- a program, of which any may fail.
inductive Reached (env : Vectors) : State → Prop where
  | start (catalog : Catalog) : Reached env (.start catalog)
  | push {s : State} (before : Reached env s) : Reached env s.pushed
  | pop {s : State} (before : Reached env s) : Reached env s.popped
  | bind {s : State} (name : String) (type : Ty) (place : Position) (before : Reached env s) :
      Reached env (finalState (bindLocal name type place env s))
  | expr {s : State} (expr : Expr) (before : Reached env s) : Reached env (finalState (checkExpr expr env s))
  | stmt {s : State} (stmt : Stmt) (before : Reached env s) : Reached env (finalState (checkStmt stmt env s))
  | declaration {s : State} (decl : Declaration) (before : Reached env s) :
      Reached env (finalState (checkDeclaration decl env s))

theorem Reached.idle (reached : Reached env s) : s.function = none := by
  induction reached with
  | start catalog => rfl
  | push before ih | pop before ih => exact ih
  | bind name type place before ih => exact (bindLocal_leaves name type place env _).idle ih
  | expr expr before ih => exact (checkExpr_leaves expr env _).idle ih
  | stmt stmt before ih => exact (checkStmt_leaves stmt env _).outer.idle ih
  | declaration decl before ih => exact (checkDeclaration_leaves decl env _).idle ih

-- The scopes around a place are those before it, whatever is checked there and however it ends. A declaration alone
-- adds to them, when it succeeds: one new name, in the innermost scope. No function is left behind.
theorem scopes_restored (env : Vectors) (s : State) :
    (∀ expr, (finalState (checkExpr expr env s)).scopes = s.scopes) ∧
    (∀ stmt error t, checkStmt stmt env s = .error error t → t.scopes = s.scopes) ∧
    (∀ stmt t, checkStmt stmt env s = .ok () t →
      ((∀ decl, stmt ≠ .declare decl) ∧ t.scopes = s.scopes) ∨
        ∃ decl, stmt = .declare decl ∧ s.scopes.inner.contains decl.name = false ∧
          t.scopes = ⟨⟨(decl.name, decl.type) :: s.scopes.inner.entries⟩, s.scopes.outer⟩) ∧
    (∀ decl, (finalState (checkDeclaration decl env s)).scopes = s.scopes) ∧
    (∀ decl, (finalState (checkDeclaration (.function decl) env s)).function = none ∨
      ∃ error, s.catalog.requireKnown decl.span.start decl.returns = .error error ∧
        checkDeclaration (.function decl) env s = .error error s) ∧
    (Reached env s → ∀ decl, (finalState (checkDeclaration decl env s)).function = none) := by
  refine ⟨fun expr => (checkExpr_leaves expr env s).scopes, fun stmt error t ran => ?_, fun stmt t ran => ?_,
    fun decl => (checkDeclaration_leaves decl env s).scopes, fun decl => (checkFunction_leaves decl env s).2,
    fun reached decl => (checkDeclaration_leaves decl env s).idle reached.idle⟩
  · by_cases declares : ∃ decl, stmt = .declare decl
    · obtain ⟨decl, rfl⟩ := declares
      exact checkLocal_refused ran
    · exact ((checkStmt_leaves stmt).failed ran).scopes fun decl same => declares ⟨decl, same⟩
  · by_cases declares : ∃ decl, stmt = .declare decl
    · obtain ⟨decl, rfl⟩ := declares
      obtain ⟨fresh, scopes⟩ := checkLocal_bound ran
      exact .inr ⟨decl, rfl, fresh, scopes⟩
    · have other : ∀ decl, stmt ≠ .declare decl := fun decl same => declares ⟨decl, same⟩
      exact .inl ⟨other, ((checkStmt_leaves stmt).passed ran).scopes other⟩

def somewhere : Span := ⟨.first "loop", .first "loop"⟩

def counter : Variable := ⟨.num, "i", none, somewhere⟩

-- `for (num i; stop;) break;`, where nothing declares `stop`.
def strayLoop : Stmt :=
  .forLoop somewhere [.declare counter] (some (.name ⟨0, somewhere⟩ "stop")) [] (.jump somewhere .breaking none)

def strayFunction : Function := ⟨.void, "run", [], [.declare counter, strayLoop], somewhere, .void, somewhere⟩

-- The loop fails after it has bound `i` in its scope, and so does the function around it.
theorem scopes_restored_strayLoop :
    let s := State.start .initial
    (∃ error t, checkStmt strayLoop [] s = .error error t ∧ t.scopes = s.scopes) ∧
    (∃ t, checkStmt (.declare counter) [] s = .ok () t ∧
      t.scopes = ⟨⟨("i", .num) :: s.scopes.inner.entries⟩, []⟩) ∧
    (∃ error t, checkDeclaration (.function strayFunction) [] s = .error error t ∧ t.function = none) := by
  obtain ⟨-, failed, passed, -, -, idle⟩ := scopes_restored [] (.start .initial)
  have stray : refuses (fun _ => true) (checkStmt strayLoop [] (.start .initial)) = true := by decide
  have bound : endsIn (fun _ _ => true) (checkStmt (.declare counter) [] (.start .initial)) = true := by decide
  have entered : refuses (fun _ => true) (checkDeclaration (.function strayFunction) [] (.start .initial)) = true := by
    decide
  refine ⟨?_, ?_, ?_⟩
  · obtain ⟨error, t, ran, -⟩ := refuses_error stray
    exact ⟨error, t, ran, failed _ error t ran⟩
  · obtain ⟨_, t, ran, -⟩ := endsIn_ok bound
    obtain ⟨other, -⟩ | ⟨decl, same, -, scopes⟩ := passed _ t ran
    · exact absurd rfl (other counter)
    · cases same
      exact ⟨t, ran, scopes⟩
  · obtain ⟨error, t, ran, -⟩ := refuses_error entered
    have left := idle (.start .initial) (.function strayFunction)
    rw [ran] at left
    exact ⟨error, t, ran, left⟩

end TypedScript.Typing
