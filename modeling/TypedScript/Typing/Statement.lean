import TypedScript.Tree.Stmt
import TypedScript.Typing.Expression

namespace TypedScript.Typing

def checkCondition (condition : Expr) : Check Unit := do
  let type ← checkExpr condition
  if type = .bool then pure () else fail (.conditionMismatch type.path) condition.start

def checkInitializer (type : Ty) : Option Expr → Check Unit
  | none => pure ()
  | some value => do
    let given ← checkExpr value
    requireAssignable type given value.start

-- The variable is not bound here, so that its initializer cannot use it.
def checkVariable (decl : Variable) : Check Unit := do
  requireKnown decl.type decl.span.start
  checkInitializer decl.type decl.initializer

def checkLocal (decl : Variable) : Check Unit := do
  checkVariable decl
  bindLocal decl.name decl.type decl.span.start

def checkOpening : Opening → Check Unit
  | .declare decl => checkLocal decl
  | .evaluate expr => do
    let _ ← checkExpr expr

def checkOpenings : List Opening → Check Unit
  | [] => pure ()
  | first :: others => do
    checkOpening first
    checkOpenings others

def checkOptionalCondition : Option Expr → Check Unit
  | none => pure ()
  | some condition => checkCondition condition

def markReturned : Check Unit := fun _ state =>
  .ok () { state with function := state.function.map fun frame => { frame with returned := true } }

def currentFunction (place : Position) : Check Frame := fun _ state =>
  match state.function with
  | some frame => .ok frame state
  | none => .error ⟨.strayReturn, place⟩ state

def checkReturn (place : Position) (value : Option Expr) : Check Unit := do
  let frame ← currentFunction place
  match value with
  | some value =>
    if frame.returns = .void then fail (.unwantedValue frame.name) value.start
    else
      let given ← checkExpr value
      requireAssignable frame.returns given value.start
      markReturned
  | none =>
    if frame.returns = .void then pure () else fail (.missingValue frame.name) place

def ownScope (stmt : Stmt) (body : Check Unit) : Check Unit :=
  if stmt.isBlock then body else inScope body

mutual

def checkStmt : Stmt → Check Unit
  | .block _ body => inScope (checkStmts body)
  | .declare decl => checkLocal decl
  | .evaluate _ expr => do
    let _ ← checkExpr expr
  | .jump span .returning value => checkReturn span.start value
  | .jump _ _ _ => pure ()
  | .ifThen _ condition body => do
    checkCondition condition
    ownScope body (checkStmt body)
  | .ifElse _ condition body other => do
    checkCondition condition
    ownScope body (checkStmt body)
    ownScope other (checkStmt other)
  | .whileLoop _ condition body => do
    checkCondition condition
    ownScope body (checkStmt body)
  | .forLoop _ openings condition iterators body => inScope do
    checkOpenings openings
    checkOptionalCondition condition
    let _ ← checkAll iterators
    ownScope body (checkStmt body)

def checkStmts : List Stmt → Check Unit
  | [] => pure ()
  | first :: others => do
    checkStmt first
    checkStmts others

end

end TypedScript.Typing
