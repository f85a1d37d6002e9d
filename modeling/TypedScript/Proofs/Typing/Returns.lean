import TypedScript.Proofs.Typing.Faults
import TypedScript.Proofs.Typing.Reaching

namespace TypedScript

namespace Stmt

mutual

def exits : Stmt → List (Option Expr)
  | .block _ body => exitsOf body
  | .declare _ | .evaluate _ _ => []
  | .jump _ kind value => if kind = .returning then [value] else []
  | .ifThen _ _ body | .whileLoop _ _ body | .forLoop _ _ _ _ body => exits body
  | .ifElse _ _ body other => exits body ++ exits other

def exitsOf : List Stmt → List (Option Expr)
  | [] => []
  | first :: others => exits first ++ exitsOf others

end

end Stmt

def Function.exits (decl : Function) : List (Option Expr) := Stmt.exitsOf decl.body

namespace Typing

variable {α β : Type} {env : Vectors} {s t m : State} {frame : Frame} {items others : List Item}
  {exits more : List (Option Expr)} {cause : Cause}

namespace Frame

def after (frame : Frame) (exits : List (Option Expr)) : Frame :=
  { frame with returned := frame.returned || exits.any Option.isSome }

theorem after_nil (frame : Frame) : frame.after [] = frame := by
  simp [after]

theorem after_append (frame : Frame) (exits more : List (Option Expr)) :
    frame.after (exits ++ more) = (frame.after exits).after more := by
  simp [after, Bool.or_assoc]

-- The causes that `return` statements can be rejected for, and what is wrong with them. All other causes can occur,
-- but those that speak of returns.
def Earns (frame : Frame) (exits : List (Option Expr)) : Cause → Prop
  | .missingValue name => name = frame.name ∧ frame.returns ≠ .void ∧ none ∈ exits
  | .unwantedValue name => name = frame.name ∧ frame.returns = .void ∧ ∃ value, some value ∈ exits
  | .missingReturn _ | .strayReturn => False
  | _ => True

theorem Earns.of_returnless (other : cause.IsReturnless) : frame.Earns exits cause := by
  cases cause with
  | missingValue | unwantedValue | missingReturn | strayReturn => exact absurd rfl other
  | _ => trivial

theorem Earns.mono (earns : frame.Earns exits cause) (sub : ∀ given ∈ exits, given ∈ more) :
    frame.Earns more cause := by
  cases cause with
  | missingValue name => exact ⟨earns.1, earns.2.1, sub none earns.2.2⟩
  | unwantedValue name =>
    obtain ⟨named, void, value, member⟩ := earns
    exact ⟨named, void, value, sub _ member⟩
  | _ => exact earns

theorem Earns.of_after (earns : (frame.after more).Earns exits cause) : frame.Earns exits cause := by
  cases cause <;> exact earns

end Frame

def Returns (catalog : Catalog) (types : TypeMap) (result : Ty) : Option Expr → Prop
  | none => result = .void
  | some value => result ≠ .void ∧ ∃ type, Typed types value type ∧ catalog.accepts result type = true

-- Items have been checked on the way from one state to another, and the `return` statements among them fit the
-- function around. What is recorded for their values still counts later on.
structure Exits (items : List Item) (exits : List (Option Expr)) (s t : State) : Prop where
  grows : Grows s t
  records : Records s t (items.flatMap Item.exprs)
  function : t.function = s.function.map (·.after exits)
  returns : ∀ frame, s.function = some frame → Fresh s (items.flatMap Item.exprs) →
    ∀ catalog types, Later t catalog types → ∀ given ∈ exits, Returns catalog types frame.returns given

namespace Exits

theorem none (grows : Grows s t) (records : Records s t (items.flatMap Item.exprs)) (same : t.function = s.function) :
    Exits items [] s t := by
  refine ⟨grows, records, ?_, nofun⟩
  rw [same]
  cases s.function with
  | none => rfl
  | some frame => exact congrArg some frame.after_nil.symm

theorem append (first : Exits items exits s m) (second : Exits others more m t) :
    Exits (items ++ others) (exits ++ more) s t := by
  refine ⟨first.grows.trans second.grows, ?_, ?_, ?_⟩
  · rw [List.flatMap_append]
    exact first.records.append second.records
  · rw [second.function, first.function]
    cases s.function with
    | none => rfl
    | some frame => exact congrArg some (frame.after_append exits more).symm
  · intro frame entered fresh catalog types later given member
    rw [List.flatMap_append] at fresh
    rcases List.mem_append.mp member with here | there
    · exact first.returns frame entered fresh.left catalog types (later.before second.grows) given here
    · have behind : m.function = some (frame.after exits) := by rw [first.function, entered]; rfl
      exact second.returns _ behind (fresh.right first.records) catalog types later given there

end Exits

structure Handles (items : List Item) (exits : List (Option Expr)) (check : Check α) : Prop where
  passes : ∀ env s value t, check env s = .ok value t → Exits items exits s t
  fails : ∀ env s error t frame, s.function = some frame → check env s = .error error t →
    frame.Earns exits error.cause

namespace Handles

variable {check first : Check α} {next : α → Check β}

theorem bind (start : Handles items exits first) (rest : ∀ value, Handles others more (next value)) :
    Handles (items ++ others) (exits ++ more) (first >>= next) := by
  constructor
  · intro env s value t ran
    obtain ⟨found, m, head, last⟩ := bind_ok.mp ran
    exact (start.passes _ _ _ _ head).append ((rest found).passes _ _ _ _ last)
  · intro env s error t frame entered ran
    rcases bind_error.mp ran with failed | ⟨found, m, head, failed⟩
    · exact (start.fails _ _ _ _ _ entered failed).mono fun given => List.mem_append_left more
    · have behind : m.function = some (frame.after exits) := by
        rw [(start.passes _ _ _ _ head).function, entered]
        rfl
      have earns := ((rest found).fails _ _ _ _ _ behind failed).of_after
      exact earns.mono fun given => List.mem_append_right exits

theorem plain (runs : Runs .inner check)
    (kept : ∀ env s value t, check env s = .ok value t → Grows s t ∧ Records s t (items.flatMap Item.exprs)) :
    Handles items [] check := by
  constructor
  · intro env s value t ran
    obtain ⟨grows, records⟩ := kept env s value t ran
    exact .none grows records ((runs.passes env s value t ran).function id)
  · intro env s error t frame entered ran
    exact .of_returnless (runs.fails env s error t ran).1

theorem pure (value : α) : Handles [] [] (Pure.pure value : Check α) := by
  apply plain (.pure value)
  intro env s found t ran
  obtain ⟨-, rfl⟩ := pure_ok.mp ran
  exact ⟨.refl s, .nil rfl⟩

theorem leads {setting : Setting} (runs : Runs .inner check)
    (led : ∀ env s value t, check env s = .ok value t → Leads env setting items s t) : Handles items [] check := by
  apply plain runs
  intro env s value t ran
  have passes := (led env s value t ran).walks.passes
  rw [Scopes.sites_items] at passes
  exact ⟨passes.grows, passes.records⟩

theorem inScope (body : Handles items exits check) : Handles items exits (inScope check) := by
  constructor
  · intro env s value t ran
    obtain ⟨m, inside, rfl⟩ := inScope_ok.mp ran
    obtain ⟨grows, records, function, returns⟩ := body.passes _ _ _ _ inside
    refine ⟨⟨grows.catalog, grows.kept⟩, records, function, ?_⟩
    intro frame entered fresh catalog types later
    exact returns frame entered fresh catalog types ⟨later.grown, later.kept⟩
  · intro env s error t frame entered ran
    obtain ⟨m, inside, rfl⟩ := inScope_error.mp ran
    exact body.fails _ s.pushed _ _ frame entered inside

theorem ownScope {check : Check Unit} (stmt : Stmt) (body : Handles items exits check) :
    Handles items exits (ownScope stmt check) := by
  unfold Typing.ownScope
  split
  · exact body
  · exact body.inScope

end Handles

theorem checkCondition_handles (condition : Expr) : Handles [.condition condition] [] (checkCondition condition) :=
  .leads (checkCondition_runs Manner.inner_admits condition) fun _ _ _ _ => checkCondition_leads

theorem checkLocal_handles (decl : Variable) : Handles [.declare decl] [] (checkLocal decl) :=
  .leads (checkLocal_runs Manner.inner_opens decl (Manner.inner_binds _)) fun _ _ _ _ => checkLocal_leads

theorem checkReturn_passes {place : Position} {given : Option Expr} {value : Unit}
    (ran : checkReturn place given env s = .ok value t) : Exits (given.toList.map .value) [given] s t := by
  cases given with
  | none =>
    obtain ⟨frame, entered, void, rfl⟩ := checkReturn_bare ran
    refine ⟨.refl _, .nil rfl, ?_, ?_⟩
    · rw [entered]
      simp [Frame.after]
    · intro found same _ catalog types _ given member
      cases entered.symm.trans same
      cases List.mem_singleton.mp member
      exact void
  | some expr =>
    obtain ⟨frame, type, m, entered, result, inner, fits, rfl⟩ := checkReturn_value ran
    have checks := checkExpr_checks expr inner
    have around : m.function = some frame := by
      rw [((checkExpr_runs Manner.inner_admits expr).passes _ _ _ _ inner).function id, entered]
    refine ⟨⟨checks.grows.catalog, checks.grows.kept⟩, ?_, ?_, ?_⟩
    · show Records s m (Expr.allOf [expr] ++ [])
      rw [List.append_nil]
      exact checks.records
    · show m.function.map _ = _
      rw [around, entered]
      simp [Frame.after]
    · intro found same fresh catalog types later given member
      cases entered.symm.trans same
      cases List.mem_singleton.mp member
      have typed : Typed m.types expr type := checks.typed (by simpa [Item.exprs, Item.roots] using fresh)
      refine ⟨result, type, later.kept _ _ typed, ?_⟩
      rw [← later.shape.accepts]
      exact fits

theorem checkReturn_handles (place : Position) (given : Option Expr) :
    Handles (given.toList.map .value) [given] (checkReturn place given) := by
  refine ⟨fun _ _ _ _ => checkReturn_passes, ?_⟩
  intro env s error t frame entered ran
  have known : currentFunction place env s = .ok frame s := currentFunction_ok.mpr ⟨entered, rfl⟩
  unfold checkReturn at ran
  rw [bind_of_ok known] at ran
  cases given with
  | none =>
    by_cases void : frame.returns = .void
    · simp only [if_pos void] at ran
      cases ran
    · simp only [if_neg void] at ran
      cases ran
      exact ⟨rfl, void, List.mem_cons_self⟩
  | some expr =>
    by_cases void : frame.returns = .void
    · simp only [if_pos void] at ran
      cases ran
      exact ⟨rfl, void, expr, List.mem_cons_self⟩
    · simp only [if_neg void, bind_error] at ran
      rcases ran with failed | ⟨type, m, -, failed | ⟨_, _, -, failed⟩⟩
      · exact .of_returnless ((checkExpr_runs Manner.inner_admits expr).fails _ _ _ _ failed).1
      · exact .of_returnless ((requireAssignable_runs Manner.inner_admits _ _ _).fails _ _ _ _ failed).1
      · cases failed

mutual

theorem checkStmt_handles (stmt : Stmt) (bare : stmt.Bare) : Handles stmt.items stmt.exits (checkStmt stmt) := by
  cases stmt with
  | block span body => exact (checkStmts_handles body bare).inScope
  | declare decl => exact checkLocal_handles decl
  | evaluate span expr =>
    have led : ∀ env s value t, checkStmt (.evaluate span expr) env s = .ok value t →
        Leads env .function [.value expr] s t := by
      intro env s value t ran
      obtain ⟨type, _, inner, last⟩ := bind_ok.mp ran
      obtain ⟨-, rfl⟩ := pure_ok.mp last
      exact .expr (checkExpr_checks expr inner)
    exact .leads (.bind (checkExpr_runs Manner.inner_admits expr) fun _ => .pure ()) led
  | jump span kind given =>
    cases kind with
    | returning => exact checkReturn_handles span.start given
    | breaking | continuing =>
      have absent : given = none := bare.resolve_left nofun
      subst absent
      exact .pure ()
  | ifThen span condition body | whileLoop span condition body =>
    exact .bind (checkCondition_handles condition) fun _ => .ownScope body (checkStmt_handles body bare)
  | ifElse span condition body other =>
    exact .bind (checkCondition_handles condition) fun _ =>
      .bind (.ownScope body (checkStmt_handles body bare.1)) fun _ => .ownScope other (checkStmt_handles other bare.2)
  | forLoop span openings condition iterators body =>
    have head : Handles (openings.map Opening.item) [] (checkOpenings openings) :=
      .leads (checkOpenings_runs Manner.inner_opens openings (Manner.inner_binds _)) fun _ _ _ _ => checkOpenings_leads
    have test : Handles (condition.toList.map .condition) [] (checkOptionalCondition condition) :=
      .leads (checkOptionalCondition_runs Manner.inner_admits condition) fun _ _ _ _ => checkOptionalCondition_leads
    have steps : Handles (iterators.map .value) [] (checkAll iterators) :=
      .leads (checkAll_runs Manner.inner_admits iterators) fun _ _ _ _ => checkAll_leads
    unfold Stmt.items
    rw [List.append_assoc, List.append_assoc]
    exact .inScope <| head.bind fun _ => test.bind fun _ => steps.bind fun _ =>
      .ownScope body (checkStmt_handles body bare)
termination_by structural stmt

theorem checkStmts_handles (stmts : List Stmt) (bare : Stmt.BareAll stmts) :
    Handles (Stmt.itemsOf stmts) (Stmt.exitsOf stmts) (checkStmts stmts) := by
  cases stmts with
  | nil => exact .pure ()
  | cons first others =>
    exact .bind (checkStmt_handles first bare.1) fun _ => checkStmts_handles others bare.2

end

theorem checkBody_handles (decl : Function) (bare : Stmt.BareAll decl.body) :
    Handles (decl.parameters.map .parameter ++ Stmt.itemsOf decl.body) decl.exits
      (do checkParameters decl.parameters; checkStmts decl.body) :=
  .bind (.leads (checkParameters_runs Manner.inner_opens decl.parameters (Manner.inner_binds _)) fun _ _ _ _ =>
      checkParameters_leads) fun _ =>
    checkStmts_handles decl.body bare

end Typing

-- What a function owes its result type, where it is said which values fit: without a result it returns nowhere with
-- a value, and with one it returns somewhere, and everywhere with a value that fits.
def Function.Keeps (decl : Function) (fits : Expr → Prop) : Prop :=
  if decl.returns = .void then ∀ given ∈ decl.exits, given = none
  else decl.exits ≠ [] ∧ ∀ given ∈ decl.exits, ∃ value ∈ given, fits value

instance (decl : Function) (fits : Expr → Prop) [DecidablePred fits] : Decidable (decl.Keeps fits) := by
  unfold Function.Keeps
  infer_instance

def Cause.breach? : Cause → Option String
  | .missingReturn name | .missingValue name | .unwantedValue name => some name
  | _ => none

theorem Cause.IsReturnless.breach? {cause : Cause} (other : cause.IsReturnless) : cause.breach? = none := by
  cases cause with
  | missingReturn | missingValue | unwantedValue => exact absurd rfl other
  | _ => rfl

namespace Typing

variable {env : Vectors} {s t : State} {decl : Function} {cause : Cause} {name : String}

theorem Frame.Earns.breach {returned : Bool} (earns : Frame.Earns ⟨decl.name, decl.returns, returned⟩ decl.exits cause)
    (breach : cause.breach? = some name) : decl.name = name ∧ ∀ fits, ¬ decl.Keeps fits := by
  unfold Function.Keeps
  cases cause with
  | missingValue found =>
    obtain ⟨rfl, result, member⟩ := earns
    cases breach
    refine ⟨rfl, fun fits keeps => ?_⟩
    rw [if_neg result] at keeps
    obtain ⟨_, absent, -⟩ := keeps.2 none member
    cases absent
  | unwantedValue found =>
    obtain ⟨rfl, void, value, member⟩ := earns
    cases breach
    refine ⟨rfl, fun fits keeps => ?_⟩
    rw [if_pos void] at keeps
    cases keeps _ member
  | missingReturn => exact earns.elim
  | _ => cases breach

-- The flag of a function tells whether a value is returned anywhere in its body.
theorem inBody_returned {returned : Bool} (bare : Stmt.BareAll decl.body)
    (ran : inFunction decl.name decl.returns (do checkParameters decl.parameters; checkStmts decl.body) env s =
      .ok returned t) : returned = decl.exits.any Option.isSome := by
  obtain ⟨m, inside, rfl, -⟩ := inFunction_ok ran
  rw [((checkBody_handles decl bare).passes _ _ _ _ inside).function]
  rfl

theorem checkFunction_breach {error : Error} (bare : Stmt.BareAll decl.body)
    (ran : checkFunction decl env s = .error error t) (breach : error.cause.breach? = some name) :
    decl.name = name ∧ ∀ fits, ¬ decl.Keeps fits := by
  simp only [checkFunction, bind_error] at ran
  rcases ran with failed | ⟨_, _, -, failed | ⟨returned, m, inner, failed⟩⟩
  · have other := ((requireKnown_runs Manner.inner_admits _ _).fails _ _ _ _ failed).1
    rw [other.breach?] at breach
    cases breach
  · obtain ⟨m, inside, -⟩ := inFunction_error failed
    exact ((checkBody_handles decl bare).fails _ _ _ _ _ rfl inside).breach breach
  · have flag := inBody_returned bare inner
    split at failed
    · cases failed
    · rename_i silent
      cases failed
      cases breach
      refine ⟨rfl, fun fits keeps => silent ?_⟩
      unfold Function.Keeps at keeps
      by_cases void : decl.returns = .void
      · exact .inl void
      · rw [if_neg void] at keeps
        obtain ⟨given, member⟩ := List.exists_mem_of_ne_nil _ keeps.1
        obtain ⟨value, rfl, -⟩ := keeps.2 given member
        rw [flag, List.any_eq_true]
        exact .inr ⟨_, member, rfl⟩

theorem checkFunction_keeps {value : Unit} {catalog : Catalog} {types : TypeMap} (bare : Stmt.BareAll decl.body)
    (ran : checkFunction decl env s = .ok value t)
    (fresh : Fresh s ((Declaration.function decl).items.flatMap Item.exprs)) (later : Later t catalog types) :
    decl.Keeps fun value => ∃ type, Typed types value type ∧ catalog.accepts decl.returns type = true := by
  simp only [checkFunction, bind_ok, requireKnown_ok] at ran
  obtain ⟨_, _, ⟨-, rfl⟩, returned, n, inner, last⟩ := ran
  have flag := inBody_returned bare inner
  obtain ⟨m, inside, -, rfl⟩ := inFunction_ok inner
  have exits := (checkBody_handles decl bare).passes _ _ _ _ inside
  split at last
  case isFalse => cases last
  case isTrue silent =>
    cases last
    have each := exits.returns _ rfl fresh catalog types ⟨later.grown, later.kept⟩
    unfold Function.Keeps
    by_cases void : decl.returns = .void
    · rw [if_pos void]
      intro given member
      cases given with
      | none => rfl
      | some value => exact absurd void (each _ member).1
    · rw [if_neg void]
      constructor
      · rintro empty
        rw [flag, empty] at silent
        simp [void] at silent
      · intro given member
        cases given with
        | none => exact absurd (each _ member) void
        | some value => exact ⟨value, rfl, (each _ member).2⟩

end Typing

end TypedScript
