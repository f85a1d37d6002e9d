import TypedScript.Diagnostic.Error
import TypedScript.Table
import TypedScript.Ty

namespace TypedScript

inductive Owner where
  | struct
  | enumeration
  | delegate
  | global
  | function
deriving DecidableEq

namespace Owner

def text : Owner → String
  | struct => "struct"
  | enumeration => "enum"
  | delegate => "delegate"
  | global => "global variable"
  | function => "function"

def isType : Owner → Bool
  | struct | enumeration | delegate => true
  | global | function => false

end Owner

-- A catalog only grows: what is entered stays, and a second entry under a name changes nothing.
structure Catalog where
  types : Table String Ty
  names : Table String Owner
  structs : Table String (List (String × Ty))
  enums : Table String (List (String × Int))
  delegates : Table String Signature
  globals : Table String Ty
  functions : Table String Ty

namespace Catalog

def addPath (catalog : Catalog) (type : Ty) : Catalog :=
  { catalog with types := catalog.types.insertNew type.path type }

def addType (catalog : Catalog) (type : Ty) : Catalog := type.parts.foldl addPath catalog

def addTypes (catalog : Catalog) (types : List Ty) : Catalog := types.foldl addType catalog

def initial : Catalog :=
  addTypes ⟨.empty, .empty, .empty, .empty, .empty, .empty, .empty⟩ (Ty.builtinNames.map Ty.named)

def isPathMark (c : Char) : Bool := c == '[' || c == ']' || c == '(' || c == ')' || c == ','

def isValidName (name : String) : Bool :=
  !name.toList.isEmpty && name.toList.all fun c => !Text.isBlank c && !isPathMark c

def requireValid (name : String) (place : Position) : Except Error Unit :=
  if isValidName name then .ok () else .error ⟨.badName name, place⟩

def owner? (catalog : Catalog) (name : String) : Option Owner := catalog.names.get? name

def requireFree (catalog : Catalog) (name : String) (place : Position) : Except Error Unit := do
  requireValid name place
  match catalog.owner? name with
  | some owner => .error ⟨.nameTaken name owner.text, place⟩
  | none => .ok ()

-- Gives a name to an owner. The name of a struct, an enumeration or a delegate is a type from then on, so that later
-- declarations can use it.
def claim (catalog : Catalog) (name : String) (owner : Owner) (place : Position) : EStateM.Result Error Catalog Unit :=
  match catalog.requireFree name place with
  | .error error => .error error catalog
  | .ok () =>
    let named := { catalog with names := catalog.names.insertNew name owner }
    .ok () (if owner.isType then named.addType (.named name) else named)

def knows (catalog : Catalog) (path : String) : Bool := catalog.types.contains path

def namesType (catalog : Catalog) (name : String) : Bool :=
  match catalog.owner? name with
  | some owner => owner.isType
  | none => false

def requireKnown (catalog : Catalog) (place : Position) : Ty → Except Error Unit
  | .named name =>
    if (Ty.named name).isBuiltin || catalog.knows name then .ok ()
    else .error ⟨.unknownType name, place⟩
  | .array element => catalog.requireKnown place element
  | .map key value => do
    catalog.requireKnown place key
    catalog.requireKnown place value

def addStruct (catalog : Catalog) (name : String) (fields : List (String × Ty)) : Catalog :=
  let known := catalog.addTypes (.named name :: fields.map Prod.snd)
  { known with structs := known.structs.insertNew name fields }

def addEnum (catalog : Catalog) (name : String) (members : List (String × Int)) : Catalog :=
  let known := catalog.addType (.named name)
  { known with enums := known.enums.insertNew name members }

def addDelegate (catalog : Catalog) (name : String) (signature : Signature) : Catalog :=
  let known := catalog.addTypes (signature.returns :: signature.parameters ++ [.named name])
  { known with delegates := known.delegates.insertNew name signature }

-- Functions with one signature share one type, which is entered with the first.
def addFunction (catalog : Catalog) (name : String) (signature : Signature) : Catalog :=
  let path := signature.path
  let known := if catalog.delegates.contains path then catalog else catalog.addDelegate path signature
  { known with functions := known.functions.insertNew name (.named path) }

def addGlobal (catalog : Catalog) (name : String) (type : Ty) : Catalog :=
  let known := catalog.addType type
  { known with globals := known.globals.insertNew name type }

def struct? (catalog : Catalog) (type : Ty) : Option (List (String × Ty)) :=
  type.name?.bind catalog.structs.get?

def enum? (catalog : Catalog) (type : Ty) : Option (List (String × Int)) :=
  type.name?.bind catalog.enums.get?

def delegate? (catalog : Catalog) (type : Ty) : Option Signature :=
  type.name?.bind catalog.delegates.get?

def isEnum (catalog : Catalog) (type : Ty) : Bool := (catalog.enum? type).isSome

def isDelegate (catalog : Catalog) (type : Ty) : Bool := (catalog.delegate? type).isSome

end Catalog

end TypedScript
