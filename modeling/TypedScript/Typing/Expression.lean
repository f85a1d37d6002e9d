import TypedScript.Typing.Check

namespace TypedScript.Typing

def requireVariable (name : String) (place : Position) : Check Unit := do
  let owner := (← catalog).owner? name
  if owner = some .function ∨ owner = some .enumeration then fail (.notAssignable name) place
  else pure ()

def requireObject (object : Expr) (name : String) (place : Position) : Check Unit := do
  if namesEnum (← catalog) object then
    fail (.notAssignable (object.bareName?.getD "" ++ "." ++ name)) place
  else pure ()

-- What does not fit is reported at the value; what an operator cannot do is reported at the assignment.
def requireAssignment (operator : AssignOp) (target value : Ty) (place valuePlace : Position) :
    Check Unit :=
  if operator = .set then requireAssignable target value valuePlace
  else if updates operator target value then pure ()
  else fail (.operatorMismatch operator.symbol target.path value.path) place

def checked (arguments : List Expr) (types : List Ty) : List Argument :=
  (arguments.zip types).map fun (argument, type) => ⟨argument.start, type⟩

def requireParameter (index : Nat) (parameter : Ty) (argument : Argument) : Check Unit := do
  if (← catalog).accepts parameter argument.type then pure ()
  else require (.error (argumentError index parameter.path argument))

mutual

def checkExpr : Expr → Check Ty
  | .group node inner => do
    let type ← checkExpr inner
    record node type
  | .literal node value => record node value.type
  | .name node name => do
    let type ← variableType name node.span.start
    record node type
  | .member node object name => do
    let objectType ← checkExpr object
    let type ← requireAt node.span.start (memberType (← catalog) object objectType name)
    record node type
  | .setName node name operator value => do
    requireVariable name node.span.start
    let target ← variableType name node.span.start
    let given ← checkExpr value
    requireAssignment operator target given node.span.start value.start
    record node target
  | .setMember node object name operator value => do
    requireObject object name node.span.start
    let objectType ← checkExpr object
    let target ← requireAt node.span.start (memberType (← catalog) object objectType name)
    let given ← checkExpr value
    requireAssignment operator target given node.span.start value.start
    record node target
  | .setIndex node object index operator value => do
    let container ← checkExpr object
    let key ← checkExpr index
    let target ← requireAt index.start (elementType (← catalog) container key)
    let given ← checkExpr value
    requireAssignment operator target given node.span.start value.start
    record node target
  | .unary node operator operand _ => do
    let operandType ← checkExpr operand
    let type ← requireAt node.span.start (unaryType operator operandType)
    record node type
  | .binary node operator left right => do
    let leftType ← checkExpr left
    let rightType ← checkExpr right
    let type ← requireAt node.span.start
      (binaryType (← catalog) (← vectors) operator leftType rightType)
    record node type
  | .call node callee arguments => do
    let calleeType ← checkExpr callee
    match containerOp? (← catalog) callee with
    | some op => do
      require (requireArity op.arguments.length arguments node.span.start)
      let types ← checkAll arguments
      let type ← require
        (containerOpType (← catalog) op calleeType node.span.start (checked arguments types))
      record node type
    | none => do
      let signature ← requireAt node.span.start (signatureOf (← catalog) calleeType)
      require (requireArity signature.parameters.length arguments node.span.start)
      checkArguments 0 signature.parameters arguments
      record node signature.returns
  | .index node callee arguments => do
    let container ← checkExpr callee
    require (requireArity 1 arguments node.span.start)
    let types ← checkAll arguments
    let type ← require
      (indexType (← catalog) container node.span.start (checked arguments types))
    record node type
  | .cast node operand target => do
    let _ ← checkExpr operand
    requireKnown target node.span.start
    record node target
  | .construct node target arguments => do
    requireKnown target node.span.start
    let types ← checkAll arguments
    require (requireConstruction (← catalog) target node.span.start (checked arguments types))
    record node target

def checkAll : List Expr → Check (List Ty)
  | [] => pure []
  | first :: others => do
    let type ← checkExpr first
    let types ← checkAll others
    pure (type :: types)

def checkArguments (index : Nat) : List Ty → List Expr → Check Unit
  | parameter :: parameters, argument :: arguments => do
    let type ← checkExpr argument
    requireParameter index parameter ⟨argument.start, type⟩
    checkArguments (index + 1) parameters arguments
  | _, _ => pure ()

end

end TypedScript.Typing
