import TypedScript.Catalog.Basic

namespace TypedScript.Typing

abbrev Scope := Table String Ty

def Scope.declare (scope : Scope) (name : String) (type : Ty) (place : Position) :
    Except Error Scope :=
  if scope.contains name then .error ⟨.alreadyDeclared name, place⟩
  else .ok (scope.insertNew name type)

-- Of two bindings of one name the first of these counts.
def Scope.root (catalog : Catalog) : Scope :=
  ⟨(catalog.enums.names.map fun name => (name, Ty.named name)) ++ catalog.functions.entries ++
    catalog.globals.entries⟩

structure Scopes where
  inner : Scope
  outer : List Scope

namespace Scopes

def push (scopes : Scopes) : Scopes := ⟨.empty, scopes.inner :: scopes.outer⟩

def pop (scopes : Scopes) : Scopes :=
  match scopes.outer with
  | [] => scopes
  | next :: others => ⟨next, others⟩

def get? (scopes : Scopes) (name : String) : Option Ty :=
  (scopes.inner :: scopes.outer).findSome? fun scope => scope.get? name

def declare (scopes : Scopes) (name : String) (type : Ty) (place : Position) : Except Error Scopes := do
  let inner ← scopes.inner.declare name type place
  pure { scopes with inner }

end Scopes

end TypedScript.Typing
