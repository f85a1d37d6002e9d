import TypedScript.Typing.Arguments
import TypedScript.Typing.Scope
import TypedScript.Typing.TypeMap

namespace TypedScript.Typing

structure Frame where
  name : String
  returns : Ty
  returned : Bool

structure State where
  catalog : Catalog
  scopes : Scopes
  types : TypeMap
  function : Option Frame

def State.start (catalog : Catalog) : State := ⟨catalog, ⟨.root catalog, []⟩, .empty, none⟩

-- A check that fails leaves the state as the failure found it.
abbrev Check := ReaderT Vectors (EStateM Error State)

variable {α : Type}

def fail (cause : Cause) (place : Position) : Check α := fun _ state => .error ⟨cause, place⟩ state

def catalog : Check Catalog := fun _ state => .ok state.catalog state

def vectors : Check Vectors := fun vectors state => .ok vectors state

def require : Except Error α → Check α
  | .ok value => fun _ state => .ok value state
  | .error error => fun _ state => .error error state

def requireAt (place : Position) : Except Cause α → Check α
  | .ok value => fun _ state => .ok value state
  | .error cause => fail cause place

def record (node : Node) (type : Ty) : Check Ty := fun _ state =>
  .ok type { state with catalog := state.catalog.addType type, types := state.types.insertNew node.id type }

def pushScope : Check Unit := fun _ state => .ok () { state with scopes := state.scopes.push }

def popScope : Check Unit := fun _ state => .ok () { state with scopes := state.scopes.pop }

def inScope (body : Check α) : Check α := fun vectors state =>
  match body vectors { state with scopes := state.scopes.push } with
  | .ok value after => .ok value { after with scopes := after.scopes.pop }
  | .error error after => .error error { after with scopes := after.scopes.pop }

def inFunction (name : String) (returns : Ty) (body : Check Unit) : Check Bool := fun vectors state =>
  match inScope body vectors { state with function := some ⟨name, returns, false⟩ } with
  | .ok _ after => .ok (after.function.elim false Frame.returned) { after with function := none }
  | .error error after => .error error { after with function := none }

def bindMember (name : String) (type : Ty) (place : Position) : Check Unit := fun _ state =>
  match state.scopes.declare name type place with
  | .ok scopes => .ok () { state with scopes }
  | .error error => .error error state

def bindLocal (name : String) (type : Ty) (place : Position) : Check Unit := do
  require ((← catalog).requireFree name place)
  bindMember name type place

def bound? (name : String) : Check (Option Ty) := fun _ state => .ok (state.scopes.get? name) state

def variableType (name : String) (place : Position) : Check Ty := do
  match ← bound? name with
  | some type => pure type
  | none => fail (.notDeclared name) place

def requireKnown (type : Ty) (place : Position) : Check Unit := do
  require ((← catalog).requireKnown place type)

def requireAssignable (target value : Ty) (place : Position) : Check Unit := do
  requireAt place (requireAccepts (← catalog) target value)

end TypedScript.Typing
