import TypedScript.Grammar.Expression
import TypedScript.Tree.Stmt

namespace TypedScript.Grammar

def initializer : Rule (Option Expr) := do
  if (← kind) = .assign then
    skip
    let value ← expression .lowest
    pure (some value)
  else pure none

def boundName : Rule Token := do
  if (← kind) = .identifier then advance
  else unexpectedNear "expected identifier during variable declaration"

def binding : Rule Variable := do
  let start ← place
  let type ← typeName .lowest
  let name ← boundName
  let value ← initializer
  let span ← spanSince start
  pure ⟨type, name.value, value, span⟩

def bindingLine : Rule Variable := do
  let bare ← binding
  let _ ← expect .semicolon
  let span ← spanSince bare.span.start
  pure { bare with span }

def condition : Rule Expr := do
  let _ ← expect .openParen
  let value ← expression .lowest
  let _ ← expect .closeParen
  pure value

def blockBody (inner : Rule Stmt) : Rule (List Stmt) := do
  items .closeCurly fun _ => do
    if ← more then inner else unexpected ["\x7d"]

def blockOf (inner : Rule Stmt) : Rule (List Stmt × Span) := do
  let opener ← expect .openCurly
  let body ← blockBody inner
  let span ← spanSince opener.span.start
  pure (body, span)

def ifElse (inner : Rule Stmt) : Rule Stmt := do
  let opener ← advance
  let condition ← condition
  let body ← inner
  if (← kind) = .elseWord then
    skip
    let other ← inner
    let span ← spanSince opener.span.start
    pure (.ifElse span condition body other)
  else
    let span ← spanSince opener.span.start
    pure (.ifThen span condition body)

def whileLoop (inner : Rule Stmt) : Rule Stmt := do
  let opener ← advance
  let condition ← condition
  let body ← inner
  let span ← spanSince opener.span.start
  pure (.whileLoop span condition body)

def opening : Rule Opening := do
  if ← startsVariable then
    let decl ← binding
    pure (.declare decl)
  else
    let expr ← expression .lowest
    pure (.evaluate expr)

def optionalExpression : Rule (Option Expr) := do
  if (← kind) = .semicolon then pure none
  else
    let value ← expression .lowest
    pure (some value)

def forLoop (inner : Rule Stmt) : Rule Stmt := do
  let opener ← advance
  let _ ← expect .openParen
  let openings ← listed .semicolon [",", ";"] opening
  let condition ← optionalExpression
  let _ ← expect .semicolon
  let iterators ← listed .closeParen [",", ")"] (expression .lowest)
  let body ← inner
  let span ← spanSince opener.span.start
  pure (.forLoop span openings condition iterators body)

def returning : Rule Stmt := do
  let opener ← advance
  let value ← optionalExpression
  let _ ← expect .semicolon
  let span ← spanSince opener.span.start
  pure (.jump span .returning value)

def jump (kind : Jump) : Rule Stmt := do
  let opener ← advance
  let _ ← expect .semicolon
  let span ← spanSince opener.span.start
  pure (.jump span kind none)

def simple : Rule Stmt := do
  if ← startsVariable then
    let decl ← bindingLine
    pure (.declare decl)
  else
    let expr ← expression .lowest
    let _ ← expect .semicolon
    let span ← spanSince expr.start
    pure (.evaluate span expr)

def statementWithin : Nat → Rule Stmt
  | 0 => giveUp
  | bound + 1 => do
    match ← kind with
    | .openCurly => do
      let (body, span) ← blockOf (statementWithin bound)
      pure (.block span body)
    | .ifWord => ifElse (statementWithin bound)
    | .whileWord => whileLoop (statementWithin bound)
    | .forWord => forLoop (statementWithin bound)
    | .returnWord => returning
    | .breakWord => jump .breaking
    | .continueWord => jump .continuing
    | _ => simple

def statement : Rule Stmt := bounded statementWithin

def block : Rule (List Stmt × Span) := blockOf statement

end TypedScript.Grammar
