import TypedScript.Grammar.TypeName
import TypedScript.Tree.Expr

namespace TypedScript.Grammar

abbrev Inner := Level → Rule Expr

-- The parts of an expression have their nodes already, so its identity is the greatest.
def node (span : Span) : Rule Node := do
  let id ← freshId
  pure ⟨id, span⟩

def nodeFrom (start : Position) : Rule Node := do
  let span ← spanSince start
  node span

def literal (value : Literal) (span : Span) : Rule Expr := do
  let node ← node span
  pure (.literal node value)

def primary : Rule Expr := do
  let found ← advance
  match found.kind with
  | .number =>
    match Number.Binary64.ofText? found.value with
    | some value => literal (.number value) found.span
    | none => raise (.badNumber found.value) found.span.start
  | .text => literal (.string found.value) found.span
  | .character =>
    match found.value.toList with
    | value :: _ => literal (.char value) found.span
    | [] => raise (.unrecognised found.value) found.span.start
  | .trueWord => literal (.bool true) found.span
  | .falseWord => literal (.bool false) found.span
  | .nullWord => literal .null found.span
  | .identifier => do
    let node ← node found.span
    pure (.name node found.value)
  | _ => raise (.unexpected found.value ["expression"]) found.span.start

def leading (inner : Inner) : Rule Expr := do
  let found ← advance
  match UnaryOp.ofKind? found.kind with
  | none => unexpected ["!", "-", "++", "--"]
  | some operator => do
    let operand ← inner .unary
    let node ← node (found.span.join operand.span)
    pure (.unary node operator operand false)

def group (inner : Inner) : Rule Expr := do
  let opener ← advance
  let body ← inner .lowest
  let _ ← expect .closeParen
  let node ← nodeFrom opener.span.start
  pure (.group node body)

def arguments (inner : Inner) (closer : Kind) : Rule (List Expr) :=
  listed closer [",", closer.name] (inner .lowest)

def construct (inner : Inner) : Rule Expr := do
  let opener ← advance
  let target ← typeName .lowest
  let _ ← expect .openParen
  let arguments ← arguments inner .closeParen
  let node ← nodeFrom opener.span.start
  pure (.construct node target arguments)

def head (inner : Inner) : Rule Expr := do
  match ← kind with
  | .number | .text | .character | .trueWord | .falseWord | .nullWord | .identifier => primary
  | .not | .dash | .plusPlus | .minusMinus => leading inner
  | .openParen => group inner
  | .newWord => construct inner
  | _ => unexpected ["expression"]

def binary (inner : Inner) (level : Level) (left : Expr) : Rule Expr := do
  let found ← advance
  match BinaryOp.ofKind? found.kind with
  | none => raise (.unexpected found.value ["operator"]) found.span.start
  | some operator => do
    let right ← inner level
    let node ← node (left.span.join right.span)
    pure (.binary node operator left right)

def exponent (inner : Inner) (left : Expr) : Rule Expr := binary inner .multiplicative left

def trailing (left : Expr) : Rule Expr := do
  let found ← advance
  let node ← node (left.span.join found.span)
  pure (.unary node (if found.kind = .plusPlus then .increment else .decrement) left true)

def assignTo (operator : AssignOp) (left value : Expr) : Rule Expr := do
  let span := left.span.join value.span
  match left with
  | .name _ name => do
    let node ← node span
    pure (.setName node name operator value)
  | .member _ object name => do
    let node ← node span
    pure (.setMember node object name operator value)
  | .index _ object [index] => do
    let node ← node span
    pure (.setIndex node object index operator value)
  | _ => raise .badTarget left.start

-- What is assigned is read before the target is looked at.
def assignment (inner : Inner) (left : Expr) : Rule Expr := do
  let found ← advance
  match AssignOp.ofKind? found.kind with
  | none => unexpected ["="]
  | some operator => do
    let value ← inner .lowest
    assignTo operator left value

def call (inner : Inner) (left : Expr) : Rule Expr := do
  skip
  let arguments ← arguments inner .closeParen
  let node ← nodeFrom left.start
  pure (.call node left arguments)

def element (inner : Inner) (left : Expr) : Rule Expr := do
  skip
  let arguments ← arguments inner .closeBracket
  let node ← nodeFrom left.start
  pure (.index node left arguments)

def member (left : Expr) : Rule Expr := do
  skip
  let name ← expect .identifier
  let node ← nodeFrom left.start
  pure (.member node left name.value)

def cast (left : Expr) : Rule Expr := do
  skip
  let target ← typeName .lowest
  let node ← nodeFrom left.start
  pure (.cast node left target)

def extend (inner : Inner) (next : Kind) (left : Expr) : Rule Expr :=
  match Level.ofKind next with
  | .assignment => assignment inner left
  | .power => exponent inner left
  | .suffix => trailing left
  | .cast => cast left
  | .call =>
    match next with
    | .openParen => call inner left
    | .openBracket => element inner left
    | _ => member left
  | level => binary inner level left

def extensions (inner : Inner) (level : Level) : Nat → Expr → Rule Expr
  | 0, _ => giveUp
  | bound + 1, left => do
    let next ← kind
    if (Level.ofKind next).rank ≤ level.rank then pure left
    else
      let wider ← extend inner next left
      extensions inner level bound wider

def expressionWithin : Nat → Inner
  | 0, _ => giveUp
  | bound + 1, level => do
    let left ← head (expressionWithin bound)
    bounded fun steps => extensions (expressionWithin bound) level steps left

def expression (level : Level) : Rule Expr := bounded fun bound => expressionWithin bound level

end TypedScript.Grammar
