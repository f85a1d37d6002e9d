import TypedScript.Tree.Expr

namespace TypedScript

structure Variable where
  type : Ty
  name : String
  initializer : Option Expr
  span : Span

inductive Jump where
  | returning
  | breaking
  | continuing
deriving DecidableEq

def Jump.word : Jump → String
  | returning => "return"
  | breaking => "break"
  | continuing => "continue"

inductive Opening where
  | declare (decl : Variable)
  | evaluate (expr : Expr)

inductive Stmt where
  | block (span : Span) (body : List Stmt)
  | declare (decl : Variable)
  | evaluate (span : Span) (expr : Expr)
  | jump (span : Span) (kind : Jump) (value : Option Expr)
  | ifThen (span : Span) (condition : Expr) (body : Stmt)
  | ifElse (span : Span) (condition : Expr) (body other : Stmt)
  | whileLoop (span : Span) (condition : Expr) (body : Stmt)
  | forLoop (span : Span) (openings : List Opening) (condition : Option Expr) (iterators : List Expr)
      (body : Stmt)

def Stmt.isBlock : Stmt → Bool
  | block _ _ => true
  | _ => false

end TypedScript
