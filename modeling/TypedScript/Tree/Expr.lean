import TypedScript.Number.Binary64
import TypedScript.Source.Position
import TypedScript.Tree.Operator
import TypedScript.Ty

namespace TypedScript

inductive Literal where
  | bool (value : Bool)
  | char (value : Char)
  | number (value : Number.Binary64)
  | string (value : String)
  | null
deriving DecidableEq

structure Node where
  id : Nat
  span : Span
deriving DecidableEq

def Node.label (id : Nat) : String := "#" ++ toString id

inductive Expr where
  | group (node : Node) (inner : Expr)
  | literal (node : Node) (value : Literal)
  | name (node : Node) (name : String)
  | member (node : Node) (object : Expr) (name : String)
  | setName (node : Node) (name : String) (operator : AssignOp) (value : Expr)
  | setMember (node : Node) (object : Expr) (name : String) (operator : AssignOp) (value : Expr)
  | setIndex (node : Node) (object index : Expr) (operator : AssignOp) (value : Expr)
  | unary (node : Node) (operator : UnaryOp) (operand : Expr) (after : Bool)
  | binary (node : Node) (operator : BinaryOp) (left right : Expr)
  | call (node : Node) (callee : Expr) (arguments : List Expr)
  -- Any number of indices can be written; one is right.
  | index (node : Node) (callee : Expr) (arguments : List Expr)
  | cast (node : Node) (operand : Expr) (target : Ty)
  | construct (node : Node) (target : Ty) (arguments : List Expr)

namespace Expr

def node : Expr → Node
  | group node _ | literal node _ | name node _ | member node _ _ | setName node _ _ _
  | setMember node _ _ _ _ | setIndex node _ _ _ _ | unary node _ _ _ | binary node _ _ _
  | call node _ _ | index node _ _ | cast node _ _ | construct node _ _ => node

def id (expr : Expr) : Nat := expr.node.id

def span (expr : Expr) : Span := expr.node.span

def start (expr : Expr) : Position := expr.span.start

def bareName? : Expr → Option String
  | name _ text => some text
  | _ => none

end Expr

end TypedScript
