import TypedScript.Tree.Stmt

namespace TypedScript

structure Parameter where
  type : Ty
  name : String
  span : Span

structure Function where
  returns : Ty
  name : String
  parameters : List Parameter
  body : List Stmt
  bodySpan : Span
  type : Ty
  span : Span

structure Member where
  name : String
  value : Int
  span : Span

structure Enumeration where
  name : String
  members : List Member
  span : Span

structure Delegate where
  name : String
  signature : Signature
  span : Span

structure Struct where
  name : String
  fields : List Variable
  span : Span

inductive Declaration where
  | global (decl : Variable)
  | function (decl : Function)
  | enumeration (decl : Enumeration)
  | delegate (decl : Delegate)
  | struct (decl : Struct)

namespace Declaration

def name : Declaration → String
  | global decl => decl.name
  | function decl => decl.name
  | enumeration decl => decl.name
  | delegate decl => decl.name
  | struct decl => decl.name

def span : Declaration → Span
  | global decl => decl.span
  | function decl => decl.span
  | enumeration decl => decl.span
  | delegate decl => decl.span
  | struct decl => decl.span

end Declaration

structure File where
  path : String
  declarations : List Declaration

end TypedScript
