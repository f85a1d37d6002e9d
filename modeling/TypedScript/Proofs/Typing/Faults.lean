import TypedScript.Proofs.Tree.Items
import TypedScript.Proofs.Typing.Run

namespace TypedScript

def Cause.IsReturnless (cause : Cause) : Prop := cause.category ≠ .controlFlow

def Cause.OfRule : Cause → Prop
  | .notDeclared _ | .unknownType _ | .alreadyDeclared _ => True
  | cause => cause.category = .type

theorem Cause.OfRule.returnless {cause : Cause} (rule : cause.OfRule) : cause.IsReturnless := by
  cases cause with
  | missingReturn | missingValue | unwantedValue | strayReturn => cases rule
  | _ => nofun

namespace Typing

-- How a check may behave: the causes that it may fail for, and whether it may change the scopes or the function
-- around it.
structure Manner where
  fails : Cause → Prop
  rescopes : Prop
  reframes : Prop

namespace Manner

def inner : Manner := ⟨Cause.IsReturnless, True, False⟩

def any : Manner := ⟨fun _ => True, True, True⟩

def Admits (manner : Manner) : Prop := ∀ cause, Cause.OfRule cause → manner.fails cause

structure Opens (manner : Manner) : Prop where
  admits : manner.Admits
  rescopes : manner.rescopes

structure Enters (manner : Manner) : Prop extends Opens manner where
  returns : ∀ cause, cause.category = .controlFlow → manner.fails cause
  reframes : manner.reframes

def Binds (manner : Manner) (items : List Item) : Prop :=
  ∀ name ∈ items.flatMap Item.declared, ∀ (catalog : Catalog) (place : Position) (error : Error),
    catalog.requireFree name place = .error error → manner.fails error.cause

theorem inner_opens : inner.Opens := ⟨fun _ rule => rule.returnless, trivial⟩

theorem inner_admits : inner.Admits := inner_opens.admits

theorem any_enters : any.Enters := ⟨⟨fun _ _ => trivial, trivial⟩, fun _ _ => trivial, trivial⟩

theorem any_binds (items : List Item) : any.Binds items := fun _ _ _ _ _ _ => trivial

theorem binds_append {manner : Manner} {left right : List Item} :
    manner.Binds (left ++ right) ↔ manner.Binds left ∧ manner.Binds right := by
  unfold Binds
  rw [List.flatMap_append]
  exact List.forall_mem_append

theorem binds_cons {manner : Manner} {first : Item} {others : List Item} :
    manner.Binds (first :: others) ↔ manner.Binds [first] ∧ manner.Binds others :=
  @binds_append manner [first] others

end Manner

-- All that a check can do to a state in a manner, step by step.
inductive Moves (manner : Manner) (s : State) : State → Prop where
  | refl : Moves manner s s
  | record {t : State} (node : Node) (type : Ty) (before : Moves manner s t) : Moves manner s (t.recorded node type)
  | rescope {t : State} (allowed : manner.rescopes) (scopes : Scopes) (before : Moves manner s t) :
      Moves manner s (t.rescoped scopes)
  | reframe {t : State} (allowed : manner.reframes) (function : Option Frame) (before : Moves manner s t) :
      Moves manner s (t.framed function)

namespace Moves

variable {manner : Manner} {s m t : State}

theorem trans (first : Moves manner s m) (second : Moves manner m t) : Moves manner s t := by
  induction second with
  | refl => exact first
  | record node type _ ih => exact .record node type ih
  | rescope allowed scopes _ ih => exact .rescope allowed scopes ih
  | reframe allowed function _ ih => exact .reframe allowed function ih

theorem scopes (moves : Moves manner s t) (fixed : ¬manner.rescopes) : t.scopes = s.scopes := by
  induction moves with
  | refl => rfl
  | record _ _ _ ih | reframe _ _ _ ih => exact ih
  | rescope allowed _ _ _ => exact absurd allowed fixed

theorem function (moves : Moves manner s t) (fixed : ¬manner.reframes) : t.function = s.function := by
  induction moves with
  | refl => rfl
  | record _ _ _ ih | rescope _ _ _ ih => exact ih
  | reframe allowed _ _ _ => exact absurd allowed fixed

end Moves

variable {α β : Type} {manner : Manner} {env : Vectors} {s t : State}

-- A check behaves in a manner. What it has done to the state before it fails, stays.
structure Runs (manner : Manner) (check : Check α) : Prop where
  passes : ∀ env s value t, check env s = .ok value t → Moves manner s t
  fails : ∀ env s error t, check env s = .error error t → manner.fails error.cause ∧ Moves manner s t

namespace Runs

variable {check first : Check α} {next : α → Check β}

theorem moves (runs : Runs manner check) (env : Vectors) (s : State) :
    Moves manner s (finalState (check env s)) := by
  cases ran : check env s with
  | ok value t => exact runs.passes env s value t ran
  | error error t => exact (runs.fails env s error t ran).2

theorem bind (start : Runs manner first) (rest : ∀ value, Runs manner (next value)) : Runs manner (first >>= next) := by
  constructor
  · intro env s value t ran
    obtain ⟨found, m, head, last⟩ := bind_ok.mp ran
    exact (start.passes _ _ _ _ head).trans ((rest found).passes _ _ _ _ last)
  · intro env s error t ran
    rcases bind_error.mp ran with failed | ⟨found, m, head, failed⟩
    · exact start.fails _ _ _ _ failed
    · obtain ⟨meant, moves⟩ := (rest found).fails _ _ _ _ failed
      exact ⟨meant, (start.passes _ _ _ _ head).trans moves⟩

theorem answer {value : State → Vectors → α} (run : ∀ env s, check env s = .ok (value s env) s) :
    Runs manner check := by
  constructor
  · intro env s found t ran
    rw [run] at ran
    cases ran
    exact .refl
  · intro env s error t ran
    rw [run] at ran
    cases ran

theorem pure (value : α) : Runs manner (pure value) := answer fun _ _ => rfl

theorem catalog : Runs manner catalog := answer fun _ _ => rfl

theorem vectors : Runs manner vectors := answer fun _ _ => rfl

theorem ite {condition : Prop} [Decidable condition] {yes no : Check α} (left : Runs manner yes)
    (right : Runs manner no) : Runs manner (if condition then yes else no) := by
  split
  · exact left
  · exact right

theorem fail {cause : Cause} (meant : manner.fails cause) (place : Position) :
    Runs manner (fail cause place : Check α) := by
  constructor
  · intro env s value t ran
    cases ran
  · intro env s error t ran
    cases ran
    exact ⟨meant, .refl⟩

theorem require {outcome : Except Error α} (faults : ∀ error, outcome = .error error → manner.fails error.cause) :
    Runs manner (require outcome) := by
  cases outcome with
  | ok value => exact pure value
  | error error => exact fail (faults error rfl) error.position

theorem requireAt (place : Position) {outcome : Except Cause α}
    (faults : ∀ cause, outcome = .error cause → manner.fails cause) : Runs manner (requireAt place outcome) := by
  cases outcome with
  | ok value => exact pure value
  | error cause => exact fail (faults cause rfl) place

theorem record (node : Node) (type : Ty) : Runs manner (record node type) := by
  constructor
  · intro env s value t ran
    obtain ⟨-, rfl⟩ := record_ok.mp ran
    exact .record node type .refl
  · intro env s error t ran
    cases ran

theorem inScope (allowed : manner.rescopes) (body : Runs manner check) : Runs manner (inScope check) := by
  have opened (s : State) : Moves manner s s.pushed := .rescope allowed s.scopes.push .refl
  constructor
  · intro env s value t ran
    obtain ⟨m, inside, rfl⟩ := inScope_ok.mp ran
    exact .rescope allowed m.scopes.pop ((opened s).trans (body.passes _ _ _ _ inside))
  · intro env s error t ran
    obtain ⟨m, inside, rfl⟩ := inScope_error.mp ran
    obtain ⟨meant, moves⟩ := body.fails _ _ _ _ inside
    exact ⟨meant, .rescope allowed m.scopes.pop ((opened s).trans moves)⟩

theorem inFunction (enters : manner.Enters) (name : String) (returns : Ty) {body : Check Unit}
    (inner : Runs manner body) : Runs manner (inFunction name returns body) := by
  have entered (s : State) : Moves manner s (s.framed (some ⟨name, returns, false⟩)).pushed :=
    .rescope enters.rescopes s.scopes.push (.reframe enters.reframes _ .refl)
  have left (m : State) : Moves manner m (m.popped.framed none) :=
    .reframe enters.reframes none (.rescope enters.rescopes m.scopes.pop .refl)
  constructor
  · intro env s value t ran
    obtain ⟨m, inside, -, rfl⟩ := inFunction_ok ran
    exact ((entered s).trans (inner.passes _ _ _ _ inside)).trans (left m)
  · intro env s error t ran
    obtain ⟨m, inside, rfl⟩ := inFunction_error ran
    obtain ⟨meant, moves⟩ := inner.fails _ _ _ _ inside
    exact ⟨meant, ((entered s).trans moves).trans (left m)⟩

theorem refuse (admits : manner.Admits) {cause : Cause} (rule : cause.OfRule) (place : Position) :
    Runs manner (Typing.fail cause place : Check α) := fail (admits cause rule) place

end Runs

section Rules

variable {catalog : Catalog} {place : Position}

theorem requireKnown_fault {type : Ty} {error : Error} (failed : catalog.requireKnown place type = .error error) :
    error.cause.OfRule := by
  induction type with
  | named name =>
    unfold Catalog.requireKnown at failed
    split at failed
    · cases failed
    · cases failed
      trivial
  | array element ih => exact ih failed
  | map key value first second =>
    rcases except_bind_error failed with left | ⟨_, -, right⟩
    · exact first left
    · exact second right

theorem memberType_fault {object : Expr} {type : Ty} {name : String} {cause : Cause}
    (failed : memberType catalog object type name = .error cause) : cause.OfRule := by
  unfold memberType enumMemberType fieldType at failed
  repeat' split at failed
  all_goals
    cases failed
    try rfl

theorem elementType_fault {container index : Ty} {cause : Cause}
    (failed : elementType catalog container index = .error cause) : cause.OfRule := by
  unfold elementType indexedType at failed
  repeat' split at failed
  all_goals
    cases failed
    try rfl

theorem unaryType_fault {operator : UnaryOp} {operand : Ty} {cause : Cause}
    (failed : unaryType operator operand = .error cause) : cause.OfRule := by
  unfold unaryType at failed
  split at failed
  · cases failed
  · cases failed
    rfl

theorem binaryType_fault {vectors : Vectors} {operator : BinaryOp} {left right : Ty} {cause : Cause}
    (failed : binaryType catalog vectors operator left right = .error cause) : cause.OfRule := by
  unfold binaryType at failed
  split at failed
  · cases failed
  · cases failed
    rfl

theorem signatureOf_fault {type : Ty} {cause : Cause} (failed : signatureOf catalog type = .error cause) :
    cause.OfRule := by
  unfold signatureOf at failed
  split at failed
  · cases failed
  · cases failed
    rfl

theorem requireAccepts_fault {target value : Ty} {cause : Cause}
    (failed : requireAccepts catalog target value = .error cause) : cause.OfRule := by
  unfold requireAccepts at failed
  split at failed
  · cases failed
  · cases failed
    rfl

theorem requireArity_fault {expected : Nat} {arguments : List Expr} {error : Error}
    (failed : requireArity expected arguments place = .error error) : error.cause.OfRule := by
  unfold requireArity at failed
  repeat' split at failed
  all_goals
    cases failed
    try rfl

theorem indexType_fault {container : Ty} {arguments : List Argument} {error : Error}
    (failed : indexType catalog container place arguments = .error error) : error.cause.OfRule := by
  unfold indexType at failed
  split at failed
  · rename_i key
    cases found : elementType catalog container key.type with
    | ok type =>
      rw [found] at failed
      cases failed
    | error cause =>
      rw [found] at failed
      cases failed
      exact elementType_fault found
  · cases failed
    rfl

theorem requireArguments_fault {wanted : Nat → Ty} {index : Nat} {arguments : List Argument} {error : Error}
    (failed : requireArguments catalog wanted index arguments = .error error) : error.cause.OfRule := by
  induction arguments generalizing index with
  | nil => cases failed
  | cons first others ih =>
    unfold requireArguments at failed
    split at failed
    · exact ih failed
    · cases failed
      rfl

theorem requireFields_fault {fields : List (String × Ty)} {arguments : List Argument} {error : Error}
    (failed : requireFields catalog fields arguments = .error error) : error.cause.OfRule := by
  induction fields generalizing arguments with
  | nil => cases failed
  | cons field fields ih =>
    cases arguments with
    | nil => cases failed
    | cons first others =>
      unfold requireFields at failed
      split at failed
      · exact ih failed
      · cases failed
        rfl

theorem requireConstruction_fault {target : Ty} {arguments : List Argument} {error : Error}
    (failed : requireConstruction catalog target place arguments = .error error) : error.cause.OfRule := by
  unfold requireConstruction at failed
  split at failed
  · exact requireArguments_fault failed
  · split at failed
    · exact requireArguments_fault failed
    · cases failed
      rfl
  · unfold requireStruct at failed
    split at failed
    · cases failed
      rfl
    · split at failed
      · cases failed
        rfl
      · exact requireFields_fault failed

theorem requireRole_fault {types : ContainerTypes} {declared : Option Ty} {index : Nat} {role : ArgumentRole}
    {argument : Argument} {error : Error}
    (failed : requireRole catalog types declared index role argument = .error error) : error.cause.OfRule := by
  unfold requireRole at failed
  repeat' split at failed
  all_goals
    cases failed
    try rfl

theorem requireRoles_fault {types : ContainerTypes} {declared : List Ty} {index : Nat} {roles : List ArgumentRole}
    {arguments : List Argument} {error : Error}
    (failed : requireRoles catalog types declared index roles arguments = .error error) :
    error.cause.OfRule := by
  induction roles generalizing index arguments with
  | nil => cases failed
  | cons role roles ih =>
    cases arguments with
    | nil => cases failed
    | cons first others =>
      rcases except_bind_error failed with head | ⟨_, -, rest⟩
      · exact requireRole_fault head
      · exact ih rest

theorem containerOpType_fault {op : ContainerOp} {callee : Ty} {arguments : List Argument} {error : Error}
    (failed : containerOpType catalog op callee place arguments = .error error) : error.cause.OfRule := by
  cases arguments with
  | nil =>
    cases failed
    rfl
  | cons container others =>
    unfold containerOpType at failed
    cases meant : ContainerTypes.of? op.container container.type with
    | none =>
      simp only [meant] at failed
      cases failed
      rfl
    | some types =>
      simp only [meant] at failed
      rcases except_bind_error failed with roles | ⟨_, -, last⟩
      · exact requireRoles_fault roles
      · cases last

theorem requireFree_fault {name : String} {error : Error} (failed : catalog.requireFree name place = .error error) :
    error.cause.IsReturnless := by
  rcases except_bind_error failed with invalid | ⟨_, -, taken⟩
  · unfold Catalog.requireValid at invalid
    split at invalid
    · cases invalid
    · cases invalid
      nofun
  · cases owned : catalog.owner? name with
    | none =>
      rw [owned] at taken
      cases taken
    | some owner =>
      rw [owned] at taken
      cases taken
      nofun

theorem Manner.inner_binds (items : List Item) : Manner.inner.Binds items :=
  fun _ _ _ _ _ refused => requireFree_fault refused

end Rules

section Expressions

variable (admits : manner.Admits)
include admits

theorem requireKnown_runs (type : Ty) (place : Position) : Runs manner (requireKnown type place) :=
  .bind .catalog fun _ => .require fun _ failed => admits _ (requireKnown_fault failed)

theorem requireAssignable_runs (target value : Ty) (place : Position) :
    Runs manner (requireAssignable target value place) :=
  .bind .catalog fun _ => .requireAt place fun _ failed => admits _ (requireAccepts_fault failed)

theorem variableType_runs (name : String) (place : Position) : Runs manner (variableType name place) := by
  refine .bind (.answer fun _ _ => rfl) fun found => ?_
  cases found with
  | some type => exact .pure type
  | none => exact .refuse admits (by trivial) place

theorem requireVariable_runs (name : String) (place : Position) : Runs manner (requireVariable name place) :=
  .bind .catalog fun _ => .ite (.refuse admits (by rfl) place) (.pure ())

theorem requireObject_runs (object : Expr) (name : String) (place : Position) :
    Runs manner (requireObject object name place) :=
  .bind .catalog fun _ => .ite (.refuse admits (by rfl) place) (.pure ())

theorem requireAssignment_runs (operator : AssignOp) (target value : Ty) (place valuePlace : Position) :
    Runs manner (requireAssignment operator target value place valuePlace) :=
  .ite (requireAssignable_runs admits target value valuePlace) (.ite (.pure ()) (.refuse admits (by rfl) place))

theorem requireParameter_runs (index : Nat) (parameter : Ty) (argument : Argument) :
    Runs manner (requireParameter index parameter argument) := by
  refine .bind .catalog fun _ => .ite (.pure ()) (.require ?_)
  intro error failed
  cases failed
  exact admits _ rfl

omit admits in
mutual

theorem checkExpr_runs (admits : manner.Admits) (expr : Expr) : Runs manner (checkExpr expr) := by
  cases expr with
  | group node inner => exact .bind (checkExpr_runs admits inner) fun type => .record node type
  | literal node value => exact .record node value.type
  | name node name => exact .bind (variableType_runs admits name _) fun type => .record node type
  | member node object name =>
    exact .bind (checkExpr_runs admits object) fun _ => .bind .catalog fun _ =>
      .bind (.requireAt _ fun _ failed => admits _ (memberType_fault failed)) fun type => .record node type
  | setName node name operator value =>
    exact .bind (requireVariable_runs admits name _) fun _ => .bind (variableType_runs admits name _) fun target =>
      .bind (checkExpr_runs admits value) fun _ => .bind (requireAssignment_runs admits _ _ _ _ _) fun _ =>
        .record node target
  | setMember node object name operator value =>
    exact .bind (requireObject_runs admits object name _) fun _ => .bind (checkExpr_runs admits object) fun _ =>
      .bind .catalog fun _ => .bind (.requireAt _ fun _ failed => admits _ (memberType_fault failed)) fun target =>
        .bind (checkExpr_runs admits value) fun _ => .bind (requireAssignment_runs admits _ _ _ _ _) fun _ =>
          .record node target
  | setIndex node object index operator value =>
    exact .bind (checkExpr_runs admits object) fun _ => .bind (checkExpr_runs admits index) fun _ =>
      .bind .catalog fun _ => .bind (.requireAt _ fun _ failed => admits _ (elementType_fault failed)) fun target =>
        .bind (checkExpr_runs admits value) fun _ => .bind (requireAssignment_runs admits _ _ _ _ _) fun _ =>
          .record node target
  | unary node operator operand fixity =>
    exact .bind (checkExpr_runs admits operand) fun _ =>
      .bind (.requireAt _ fun _ failed => admits _ (unaryType_fault failed)) fun type => .record node type
  | binary node operator left right =>
    exact .bind (checkExpr_runs admits left) fun _ => .bind (checkExpr_runs admits right) fun _ =>
      .bind .catalog fun _ => .bind .vectors fun _ =>
        .bind (.requireAt _ fun _ failed => admits _ (binaryType_fault failed)) fun type => .record node type
  | call node callee arguments =>
    refine .bind (checkExpr_runs admits callee) fun calleeType => .bind .catalog fun catalog => ?_
    cases containerOp? catalog callee with
    | some op =>
      exact .bind (.require fun _ failed => admits _ (requireArity_fault failed)) fun _ =>
        .bind (checkAll_runs admits arguments) fun _ => .bind .catalog fun _ =>
          .bind (.require fun _ failed => admits _ (containerOpType_fault failed)) fun type => .record node type
    | none =>
      exact .bind .catalog fun _ => .bind (.requireAt _ fun _ failed => admits _ (signatureOf_fault failed))
        fun signature => .bind (.require fun _ failed => admits _ (requireArity_fault failed)) fun _ =>
          .bind (checkArguments_runs admits arguments 0 signature.parameters) fun _ => .record node signature.returns
  | index node callee arguments =>
    exact .bind (checkExpr_runs admits callee) fun _ =>
      .bind (.require fun _ failed => admits _ (requireArity_fault failed)) fun _ =>
        .bind (checkAll_runs admits arguments) fun _ => .bind .catalog fun _ =>
          .bind (.require fun _ failed => admits _ (indexType_fault failed)) fun type => .record node type
  | cast node operand target =>
    exact .bind (checkExpr_runs admits operand) fun _ => .bind (requireKnown_runs admits target _) fun _ =>
      .record node target
  | construct node target arguments =>
    exact .bind (requireKnown_runs admits target _) fun _ => .bind (checkAll_runs admits arguments) fun _ =>
      .bind .catalog fun _ => .bind (.require fun _ failed => admits _ (requireConstruction_fault failed)) fun _ =>
        .record node target

theorem checkAll_runs (admits : manner.Admits) (exprs : List Expr) : Runs manner (checkAll exprs) := by
  cases exprs with
  | nil => exact .pure []
  | cons first others =>
    exact .bind (checkExpr_runs admits first) fun _ => .bind (checkAll_runs admits others) fun _ => .pure _

theorem checkArguments_runs (admits : manner.Admits) (exprs : List Expr) (index : Nat) (parameters : List Ty) :
    Runs manner (checkArguments index parameters exprs) := by
  cases exprs with
  | nil => cases parameters <;> exact .pure ()
  | cons first others =>
    cases parameters with
    | nil => exact .pure ()
    | cons parameter rest =>
      exact .bind (checkExpr_runs admits first) fun _ => .bind (requireParameter_runs admits _ _ _) fun _ =>
        checkArguments_runs admits others (index + 1) rest

end

theorem checkCondition_runs (condition : Expr) : Runs manner (checkCondition condition) :=
  .bind (checkExpr_runs admits condition) fun _ => .ite (.pure ()) (.refuse admits (by rfl) _)

theorem checkInitializer_runs (type : Ty) (given : Option Expr) :
    Runs manner (checkInitializer type given) := by
  cases given with
  | none => exact .pure ()
  | some value => exact .bind (checkExpr_runs admits value) fun _ => requireAssignable_runs admits _ _ _

theorem checkVariable_runs (decl : Variable) : Runs manner (checkVariable decl) :=
  .bind (requireKnown_runs admits _ _) fun _ => checkInitializer_runs admits _ _

theorem checkOptionalCondition_runs (condition : Option Expr) :
    Runs manner (checkOptionalCondition condition) := by
  cases condition with
  | none => exact .pure ()
  | some condition => exact checkCondition_runs admits condition

theorem requireAllKnown_runs (place : Position) (types : List Ty) :
    Runs manner (requireAllKnown place types) := by
  induction types with
  | nil => exact .pure ()
  | cons first others ih => exact .bind (requireKnown_runs admits _ _) fun _ => ih

end Expressions

section Bindings

variable (opens : manner.Opens)
include opens

theorem bindMember_runs (name : String) (type : Ty) (place : Position) : Runs manner (bindMember name type place) := by
  constructor
  · intro env s value t ran
    obtain ⟨scopes, -, rfl⟩ := bindMember_ok.mp ran
    exact .rescope opens.rescopes scopes .refl
  · intro env s error t ran
    unfold bindMember at ran
    rw [Scopes.declare_eq] at ran
    by_cases taken : s.scopes.inner.contains name = true
    · rw [if_pos taken] at ran
      cases ran
      exact ⟨opens.admits _ trivial, .refl⟩
    · rw [if_neg taken] at ran
      cases ran

theorem bindLocal_runs (name : String) (type : Ty) (place : Position)
    (refused : ∀ (catalog : Catalog) error, catalog.requireFree name place = .error error → manner.fails error.cause) :
    Runs manner (bindLocal name type place) :=
  .bind .catalog fun catalog => .bind (.require (refused catalog)) fun _ => bindMember_runs opens _ _ _

theorem checkLocal_runs (decl : Variable) (binds : manner.Binds [.declare decl]) : Runs manner (checkLocal decl) :=
  .bind (checkVariable_runs opens.admits decl) fun _ =>
    bindLocal_runs opens _ _ _ fun catalog => binds decl.name List.mem_cons_self catalog _

theorem checkOpenings_runs (openings : List Opening) (binds : manner.Binds (openings.map Opening.item)) :
    Runs manner (checkOpenings openings) := by
  induction openings with
  | nil => exact .pure ()
  | cons first others ih =>
    obtain ⟨here, later⟩ := Manner.binds_cons.mp binds
    cases first with
    | declare decl => exact .bind (checkLocal_runs opens decl here) fun _ => ih later
    | evaluate expr => exact .bind (.bind (checkExpr_runs opens.admits expr) fun _ => .pure ()) fun _ => ih later

theorem checkParameters_runs (parameters : List Parameter) (binds : manner.Binds (parameters.map .parameter)) :
    Runs manner (checkParameters parameters) := by
  induction parameters with
  | nil => exact .pure ()
  | cons first others ih =>
    obtain ⟨here, later⟩ := Manner.binds_cons.mp binds
    exact .bind (requireKnown_runs opens.admits _ _) fun _ =>
      .bind (bindLocal_runs opens _ _ _ fun catalog => here first.name List.mem_cons_self catalog _) fun _ => ih later

theorem checkFields_runs (fields : List Variable) : Runs manner (checkFields fields) := by
  induction fields with
  | nil => exact .pure ()
  | cons first others ih =>
    exact .bind (checkVariable_runs opens.admits first) fun _ => .bind (bindMember_runs opens _ _ _) fun _ => ih

theorem checkMembers_runs (type : Ty) (members : List Member) : Runs manner (checkMembers type members) := by
  induction members with
  | nil => exact .pure ()
  | cons first others ih => exact .bind (bindMember_runs opens _ _ _) fun _ => ih

theorem checkDeclaration_runs {decl : Declaration} (other : ∀ function, decl ≠ .function function) :
    Runs manner (checkDeclaration decl) := by
  cases decl with
  | global decl => exact checkVariable_runs opens.admits decl
  | function decl => exact absurd rfl (other decl)
  | struct decl => exact .inScope opens.rescopes (checkFields_runs opens decl.fields)
  | enumeration decl => exact .inScope opens.rescopes (checkMembers_runs opens _ decl.members)
  | delegate decl => exact requireAllKnown_runs opens.admits _ _

end Bindings

section Functions

theorem Runs.ownScope {check : Check Unit} (allowed : manner.rescopes) (stmt : Stmt) (body : Runs manner check) :
    Runs manner (ownScope stmt check) :=
  .ite body (.inScope allowed body)

variable (enters : manner.Enters)
include enters

theorem checkReturn_runs (place : Position) (given : Option Expr) : Runs manner (checkReturn place given) := by
  have current : Runs manner (currentFunction place) := by
    constructor
    · intro env s value t ran
      unfold currentFunction at ran
      split at ran <;> cases ran
      exact .refl
    · intro env s error t ran
      unfold currentFunction at ran
      split at ran <;> cases ran
      exact ⟨enters.returns _ rfl, .refl⟩
  have marked : Runs manner markReturned := by
    constructor
    · intro env s value t ran
      cases ran
      exact .reframe enters.reframes _ .refl
    · intro env s error t ran
      cases ran
  refine .bind current fun frame => ?_
  cases given with
  | none => exact .ite (.pure ()) (.fail (enters.returns _ rfl) _)
  | some value =>
    exact .ite (.fail (enters.returns _ rfl) _) (.bind (checkExpr_runs enters.admits value) fun _ =>
      .bind (requireAssignable_runs enters.admits _ _ _) fun _ => marked)

omit enters in
mutual

theorem checkStmt_runs (enters : manner.Enters) (stmt : Stmt) (binds : manner.Binds stmt.items) :
    Runs manner (checkStmt stmt) := by
  cases stmt with
  | block span body => exact .inScope enters.rescopes (checkStmts_runs enters body binds)
  | declare decl => exact checkLocal_runs enters.toOpens decl binds
  | evaluate span expr => exact .bind (checkExpr_runs enters.admits expr) fun _ => .pure ()
  | jump span kind given =>
    cases kind with
    | returning => exact checkReturn_runs enters span.start given
    | breaking | continuing => exact .pure ()
  | ifThen span condition body | whileLoop span condition body =>
    have inside := (Manner.binds_cons.mp binds).2
    exact .bind (checkCondition_runs enters.admits condition) fun _ =>
      .ownScope enters.rescopes body (checkStmt_runs enters body inside)
  | ifElse span condition body other =>
    obtain ⟨first, second⟩ := Manner.binds_append.mp (Manner.binds_cons.mp binds).2
    exact .bind (checkCondition_runs enters.admits condition) fun _ =>
      .bind (.ownScope enters.rescopes body (checkStmt_runs enters body first)) fun _ =>
        .ownScope enters.rescopes other (checkStmt_runs enters other second)
  | forLoop span openings condition iterators body =>
    obtain ⟨header, inside⟩ := Manner.binds_append.mp binds
    have first := (Manner.binds_append.mp (Manner.binds_append.mp header).1).1
    exact .inScope enters.rescopes <| .bind (checkOpenings_runs enters.toOpens openings first) fun _ =>
      .bind (checkOptionalCondition_runs enters.admits condition) fun _ =>
        .bind (checkAll_runs enters.admits iterators) fun _ =>
          .ownScope enters.rescopes body (checkStmt_runs enters body inside)
termination_by structural stmt

theorem checkStmts_runs (enters : manner.Enters) (stmts : List Stmt) (binds : manner.Binds (Stmt.itemsOf stmts)) :
    Runs manner (checkStmts stmts) := by
  cases stmts with
  | nil => exact .pure ()
  | cons first others =>
    obtain ⟨here, later⟩ := Manner.binds_append.mp binds
    exact .bind (checkStmt_runs enters first here) fun _ => checkStmts_runs enters others later

end

theorem checkFunction_runs (decl : Function) (binds : manner.Binds (Declaration.function decl).items) :
    Runs manner (checkFunction decl) := by
  obtain ⟨parameters, inside⟩ := Manner.binds_append.mp (Manner.binds_cons.mp binds).2
  have body : Runs manner (do checkParameters decl.parameters; checkStmts decl.body) :=
    .bind (checkParameters_runs enters.toOpens decl.parameters parameters) fun _ =>
      checkStmts_runs enters decl.body inside
  exact .bind (requireKnown_runs enters.admits _ _) fun _ => .bind (.inFunction enters _ _ body) fun _ =>
    .ite (.pure ()) (.fail (enters.returns _ rfl) _)

theorem checkDeclarations_runs (decls : List Declaration)
    (binds : ∀ decl ∈ decls, manner.Binds decl.items) : Runs manner (checkDeclarations decls) := by
  induction decls with
  | nil => exact .pure ()
  | cons first others ih =>
    obtain ⟨here, later⟩ := List.forall_mem_cons.mp binds
    refine .bind ?_ fun _ => ih later
    by_cases function : ∃ decl, first = .function decl
    · obtain ⟨decl, rfl⟩ := function
      exact checkFunction_runs enters decl here
    · exact checkDeclaration_runs enters.toOpens fun decl same => function ⟨decl, same⟩

end Functions

theorem checkFiles_runs (files : List File) : Runs .any (checkFiles files) := by
  induction files with
  | nil => exact .pure ()
  | cons first others ih =>
    exact .bind (checkDeclarations_runs Manner.any_enters first.declarations fun _ _ => Manner.any_binds _) fun _ => ih

end Typing

end TypedScript
