import TypedScript.Proofs.Typing.Run

namespace TypedScript.Typing

inductive Query where
  | expr (expr : Expr) (type : Ty)
  | all (exprs : List Expr) (types : List Ty)
  | arguments (exprs : List Expr) (parameters types : List Ty)

-- What a check has found when it succeeds, as a relation between the state before and the state after.
-- Every condition is about the catalog of the moment at which it is tested.
inductive Checks (env : Vectors) : Query → State → State → Prop where
  | group {s t : State} {node : Node} {inner : Expr} {type : Ty} (body : Checks env (.expr inner type) s t) :
      Checks env (.expr (.group node inner) type) s (t.recorded node type)
  | literal {s : State} {node : Node} {value : Literal} :
      Checks env (.expr (.literal node value) value.type) s (s.recorded node value.type)
  | name {s : State} {node : Node} {name : String} {type : Ty} (bound : s.scopes.get? name = some type) :
      Checks env (.expr (.name node name) type) s (s.recorded node type)
  | member {s t : State} {node : Node} {object : Expr} {name : String} {objectType type : Ty}
      (before : Checks env (.expr object objectType) s t)
      (found : memberType t.catalog object objectType name = .ok type) :
      Checks env (.expr (.member node object name) type) s (t.recorded node type)
  | setName {s t : State} {node : Node} {name : String} {operator : AssignOp} {value : Expr}
      {target given : Ty} (bound : s.scopes.get? name = some target) (last : Checks env (.expr value given) s t)
      (assigns : Assigns t.catalog operator target given) :
      Checks env (.expr (.setName node name operator value) target) s (t.recorded node target)
  | setMember {s m t : State} {node : Node} {object : Expr} {name : String} {operator : AssignOp}
      {value : Expr} {objectType target given : Ty} (before : Checks env (.expr object objectType) s m)
      (found : memberType m.catalog object objectType name = .ok target)
      (last : Checks env (.expr value given) m t) (assigns : Assigns t.catalog operator target given) :
      Checks env (.expr (.setMember node object name operator value) target) s (t.recorded node target)
  | setIndex {s m n t : State} {node : Node} {object index : Expr} {operator : AssignOp} {value : Expr}
      {container key target given : Ty} (before : Checks env (.expr object container) s m)
      (between : Checks env (.expr index key) m n) (found : elementType n.catalog container key = .ok target)
      (last : Checks env (.expr value given) n t) (assigns : Assigns t.catalog operator target given) :
      Checks env (.expr (.setIndex node object index operator value) target) s (t.recorded node target)
  | unary {s t : State} {node : Node} {operator : UnaryOp} {operand : Expr} {after : Bool}
      (body : Checks env (.expr operand (operandType operator)) s t) :
      Checks env (.expr (.unary node operator operand after) (operandType operator)) s
        (t.recorded node (operandType operator))
  | binary {s m t : State} {node : Node} {operator : BinaryOp} {left right : Expr}
      {leftType rightType type : Ty} (before : Checks env (.expr left leftType) s m)
      (last : Checks env (.expr right rightType) m t)
      (found : binaryType? t.catalog env operator leftType rightType = some type) :
      Checks env (.expr (.binary node operator left right) type) s (t.recorded node type)
  | operation {s m t : State} {node : Node} {callee : Expr} {arguments : List Expr} {calleeType type : Ty}
      {types : List Ty} {op : ContainerOp} (before : Checks env (.expr callee calleeType) s m)
      (meant : containerOp? m.catalog callee = some op) (arity : arguments.length = op.arguments.length)
      (last : Checks env (.all arguments types) m t)
      (found : containerOpType t.catalog op calleeType node.span.start (checked arguments types) = .ok type) :
      Checks env (.expr (.call node callee arguments) type) s (t.recorded node type)
  | call {s m t : State} {node : Node} {callee : Expr} {arguments : List Expr} {calleeType : Ty}
      {signature : Signature} {types : List Ty} (before : Checks env (.expr callee calleeType) s m)
      (plain : containerOp? m.catalog callee = none) (found : m.catalog.delegate? calleeType = some signature)
      (last : Checks env (.arguments arguments signature.parameters types) m t) :
      Checks env (.expr (.call node callee arguments) signature.returns) s (t.recorded node signature.returns)
  | index {s m t : State} {node : Node} {callee argument : Expr} {container key type : Ty}
      (before : Checks env (.expr callee container) s m) (last : Checks env (.expr argument key) m t)
      (found : elementType t.catalog container key = .ok type) :
      Checks env (.expr (.index node callee [argument]) type) s (t.recorded node type)
  | cast {s t : State} {node : Node} {operand : Expr} {given target : Ty}
      (body : Checks env (.expr operand given) s t)
      (known : t.catalog.requireKnown node.span.start target = .ok ()) :
      Checks env (.expr (.cast node operand target) target) s (t.recorded node target)
  | construct {s t : State} {node : Node} {target : Ty} {arguments : List Expr} {types : List Ty}
      (known : s.catalog.requireKnown node.span.start target = .ok ())
      (last : Checks env (.all arguments types) s t)
      (fits : requireConstruction t.catalog target node.span.start (checked arguments types) = .ok ()) :
      Checks env (.expr (.construct node target arguments) target) s (t.recorded node target)
  | none {s : State} : Checks env (.all [] []) s s
  | cons {s m t : State} {first : Expr} {others : List Expr} {type : Ty} {types : List Ty}
      (before : Checks env (.expr first type) s m) (last : Checks env (.all others types) m t) :
      Checks env (.all (first :: others) (type :: types)) s t
  | noArgument {s : State} : Checks env (.arguments [] [] []) s s
  | argument {s m t : State} {first : Expr} {others : List Expr} {parameter type : Ty}
      {parameters types : List Ty} (before : Checks env (.expr first type) s m)
      (fits : m.catalog.accepts parameter type = true)
      (last : Checks env (.arguments others parameters types) m t) :
      Checks env (.arguments (first :: others) (parameter :: parameters) (type :: types)) s t

theorem unaryType_ok {operator : UnaryOp} {operand type : Ty} :
    unaryType operator operand = .ok type ↔ operand = operandType operator ∧ type = operandType operator := by
  unfold unaryType
  split <;> grind

theorem binaryType_ok {catalog : Catalog} {env : Vectors} {operator : BinaryOp} {left right type : Ty} :
    binaryType catalog env operator left right = .ok type ↔
      binaryType? catalog env operator left right = some type := by
  unfold binaryType
  cases binaryType? catalog env operator left right <;> simp

theorem signatureOf_ok {catalog : Catalog} {type : Ty} {signature : Signature} :
    signatureOf catalog type = .ok signature ↔ catalog.delegate? type = some signature := by
  unfold signatureOf
  cases catalog.delegate? type <;> simp

theorem indexType_ok {catalog : Catalog} {container key type : Ty} {place : Position} {argument : Expr} :
    indexType catalog container place (checked [argument] [key]) = .ok type ↔
      elementType catalog container key = .ok type := by
  show (elementType catalog container key).mapError _ = _ ↔ _
  cases elementType catalog container key with
  | ok found =>
    constructor
    · intro same
      cases same
      rfl
    · intro same
      cases same
      rfl
  | error cause =>
    constructor
    · intro same
      cases same
    · intro same
      cases same

mutual

theorem checkExpr_checks {env : Vectors} (expr : Expr) {s t : State} {type : Ty}
    (ran : checkExpr expr env s = .ok type t) : Checks env (.expr expr type) s t := by
  cases expr with
  | group node inner =>
    simp only [checkExpr, bind_ok, record_ok] at ran
    obtain ⟨_, m, body, rfl, rfl⟩ := ran
    exact .group (checkExpr_checks inner body)
  | literal node value =>
    simp only [checkExpr, record_ok] at ran
    obtain ⟨rfl, rfl⟩ := ran
    exact .literal
  | name node name =>
    simp only [checkExpr, bind_ok, variableType_ok, record_ok] at ran
    obtain ⟨_, _, ⟨bound, rfl⟩, rfl, rfl⟩ := ran
    exact .name bound
  | member node object name =>
    simp only [checkExpr, bind_ok, catalog_bind, requireAt_ok, record_ok] at ran
    obtain ⟨_, m, before, _, _, ⟨found, rfl⟩, rfl, rfl⟩ := ran
    exact .member (checkExpr_checks object before) found
  | setName node name operator value =>
    simp only [checkExpr, bind_ok, variableType_ok, requireAssignment_ok, record_ok] at ran
    obtain ⟨_, _, free, _, _, ⟨bound, rfl⟩, _, m, last, _, _, ⟨assigns, rfl⟩, rfl, rfl⟩ := ran
    cases requireVariable_ok free
    exact .setName bound (checkExpr_checks value last) assigns
  | setMember node object name operator value =>
    simp only [checkExpr, bind_ok, requireObject_ok, catalog_bind, requireAt_ok, requireAssignment_ok,
      record_ok] at ran
    obtain ⟨_, _, ⟨-, rfl⟩, _, m, before, _, _, ⟨found, rfl⟩, _, n, last, _, _, ⟨assigns, rfl⟩, rfl, rfl⟩ := ran
    exact .setMember (checkExpr_checks object before) found (checkExpr_checks value last) assigns
  | setIndex node object index operator value =>
    simp only [checkExpr, bind_ok, catalog_bind, requireAt_ok, requireAssignment_ok, record_ok] at ran
    obtain ⟨_, m, before, _, n, between, _, _, ⟨found, rfl⟩, _, l, last, _, _, ⟨assigns, rfl⟩, rfl, rfl⟩ := ran
    exact .setIndex (checkExpr_checks object before) (checkExpr_checks index between) found
      (checkExpr_checks value last) assigns
  | unary node operator operand after =>
    simp only [checkExpr, bind_ok, requireAt_ok, unaryType_ok, record_ok] at ran
    obtain ⟨_, m, body, _, _, ⟨⟨rfl, rfl⟩, rfl⟩, rfl, rfl⟩ := ran
    exact .unary (checkExpr_checks operand body)
  | binary node operator left right =>
    simp only [checkExpr, bind_ok, catalog_bind, vectors_bind, requireAt_ok, binaryType_ok, record_ok] at ran
    obtain ⟨_, m, before, _, n, last, _, _, ⟨found, rfl⟩, rfl, rfl⟩ := ran
    exact .binary (checkExpr_checks left before) (checkExpr_checks right last) found
  | call node callee arguments =>
    simp only [checkExpr, bind_ok, catalog_bind] at ran
    obtain ⟨_, m, before, ran⟩ := ran
    have first := checkExpr_checks callee before
    cases meant : containerOp? m.catalog callee with
    | some op =>
      simp only [meant, bind_ok, catalog_bind, require_ok, requireArity_ok, record_ok] at ran
      obtain ⟨_, _, ⟨arity, rfl⟩, types, n, last, _, _, ⟨found, rfl⟩, rfl, rfl⟩ := ran
      exact .operation first meant arity (checkAll_checks arguments last) found
    | none =>
      simp only [meant, catalog_bind, bind_ok, requireAt_ok, signatureOf_ok, require_ok, requireArity_ok,
        record_ok] at ran
      obtain ⟨signature, _, ⟨found, rfl⟩, _, _, ⟨arity, rfl⟩, _, n, last, rfl, rfl⟩ := ran
      obtain ⟨types, last⟩ := checkArguments_checks arguments arity last
      exact .call first meant found last
  | index node callee arguments =>
    simp only [checkExpr, bind_ok, catalog_bind, require_ok, requireArity_ok, record_ok] at ran
    obtain ⟨container, m, before, _, _, ⟨arity, rfl⟩, types, n, last, _, _, ⟨found, rfl⟩, rfl, rfl⟩ := ran
    have first := checkExpr_checks callee before
    have given := checkAll_checks arguments last
    obtain ⟨argument, rfl⟩ := List.length_eq_one_iff.mp arity
    cases given with
    | cons key rest =>
      cases rest with
      | none => exact .index first key (indexType_ok.mp found)
  | cast node operand target =>
    simp only [checkExpr, bind_ok, requireKnown_ok, record_ok] at ran
    obtain ⟨_, m, body, _, _, ⟨known, rfl⟩, rfl, rfl⟩ := ran
    exact .cast (checkExpr_checks operand body) known
  | construct node target arguments =>
    simp only [checkExpr, bind_ok, catalog_bind, requireKnown_ok, require_ok, record_ok] at ran
    obtain ⟨_, _, ⟨known, rfl⟩, types, m, last, _, _, ⟨fits, rfl⟩, rfl, rfl⟩ := ran
    exact .construct known (checkAll_checks arguments last) fits
termination_by structural expr

theorem checkAll_checks {env : Vectors} (exprs : List Expr) {s t : State} {types : List Ty}
    (ran : checkAll exprs env s = .ok types t) : Checks env (.all exprs types) s t := by
  cases exprs with
  | nil =>
    simp only [checkAll, pure_ok] at ran
    obtain ⟨rfl, rfl⟩ := ran
    exact .none
  | cons first others =>
    simp only [checkAll, bind_ok, pure_ok] at ran
    obtain ⟨_, m, before, _, n, last, rfl, rfl⟩ := ran
    exact .cons (checkExpr_checks first before) (checkAll_checks others last)

theorem checkArguments_checks {env : Vectors} (exprs : List Expr) {index : Nat} {parameters : List Ty}
    {s t : State} {value : Unit} (arity : exprs.length = parameters.length)
    (ran : checkArguments index parameters exprs env s = .ok value t) :
    ∃ types, Checks env (.arguments exprs parameters types) s t := by
  cases exprs with
  | nil =>
    cases parameters with
    | nil =>
      simp only [checkArguments, pure_ok] at ran
      obtain ⟨-, rfl⟩ := ran
      exact ⟨[], .noArgument⟩
    | cons parameter parameters => cases arity
  | cons first others =>
    cases parameters with
    | nil => cases arity
    | cons parameter parameters =>
      simp only [checkArguments, bind_ok, requireParameter_ok] at ran
      obtain ⟨type, m, before, _, _, ⟨fits, rfl⟩, last⟩ := ran
      obtain ⟨types, last⟩ := checkArguments_checks others (Nat.succ.inj arity) last
      exact ⟨type :: types, .argument (checkExpr_checks first before) fits last⟩

end

end TypedScript.Typing
