import TypedScript.Typing.Operation

namespace TypedScript.Typing

structure Argument where
  place : Position
  type : Ty

def requireArity (expected : Nat) (arguments : List Expr) (place : Position) : Except Error Unit :=
  match arguments[expected]? with
  | some extra => .error ⟨.tooManyArguments expected arguments.length, extra.start⟩
  | none =>
    if arguments.length < expected then
      .error ⟨.tooFewArguments expected arguments.length, place⟩
    else .ok ()

def argumentError (index : Nat) (expected : String) (argument : Argument) : Error :=
  ⟨.argumentMismatch index expected argument.type.path, argument.place⟩

def indexType (catalog : Catalog) (container : Ty) (place : Position) :
    List Argument → Except Error Ty
  | [key] => (elementType catalog container key.type).mapError fun cause => ⟨cause, key.place⟩
  | others => .error ⟨.tooFewArguments 1 others.length, place⟩

def requireArguments (catalog : Catalog) (wanted : Nat → Ty) : Nat → List Argument → Except Error Unit
  | _, [] => .ok ()
  | index, argument :: others =>
    if catalog.accepts (wanted index) argument.type then
      requireArguments catalog wanted (index + 1) others
    else .error (argumentError index (wanted index).path argument)

def requireFields (catalog : Catalog) : List (String × Ty) → List Argument → Except Error Unit
  | (field, type) :: fields, argument :: others =>
    if catalog.accepts type argument.type then requireFields catalog fields others
    else .error ⟨.fieldMismatch field type.path argument.type.path, argument.place⟩
  | _, _ => .ok ()

def requireStruct (catalog : Catalog) (target : Ty) (place : Position) (arguments : List Argument) :
    Except Error Unit :=
  match catalog.struct? target with
  | none => .error ⟨.notConstructible target.path, place⟩
  | some fields =>
    match arguments[fields.length]? with
    | some extra => .error ⟨.tooManyArguments fields.length arguments.length, extra.place⟩
    | none => requireFields catalog fields arguments

def requireConstruction (catalog : Catalog) (target : Ty) (place : Position)
    (arguments : List Argument) : Except Error Unit :=
  match target with
  | .array element => requireArguments catalog (fun _ => element) 0 arguments
  | .map key value =>
    if arguments.length % 2 = 0 then
      requireArguments catalog (fun index => if index % 2 = 0 then key else value) 0 arguments
    else .error ⟨.tooFewArguments (arguments.length + 1) arguments.length, place⟩
  | .named _ => requireStruct catalog target place arguments

-- A comparator is `null`, or a function that fits the parameter declared for it once that takes two elements. Where
-- no parameter is declared, any function will do.
def acceptsComparator (catalog : Catalog) (element : Ty) (declared : Option Ty) (given : Ty) : Bool :=
  given = .null || (catalog.isDelegate given &&
    match declared with
    | some parameter => catalog.acceptsWith (some [element, element]) parameter given
    | none => true)

def requireRole (catalog : Catalog) (types : ContainerTypes) (declared : Option Ty) (index : Nat)
    (role : ArgumentRole) (argument : Argument) : Except Error Unit :=
  match types.wanted? role with
  | some wanted =>
    if catalog.accepts wanted argument.type then .ok ()
    else .error (argumentError index wanted.path argument)
  | none =>
    if acceptsComparator catalog types.element declared argument.type then .ok ()
    else
      let comparator : Signature := ⟨.num, [types.element, types.element]⟩
      .error (argumentError index comparator.path argument)

def requireRoles (catalog : Catalog) (types : ContainerTypes) (declared : List Ty) :
    Nat → List ArgumentRole → List Argument → Except Error Unit
  | index, role :: roles, argument :: others => do
    requireRole catalog types declared[index]? index role argument
    requireRoles catalog types declared (index + 1) roles others
  | _, _, _ => .ok ()

def containerOpType (catalog : Catalog) (op : ContainerOp) (callee : Ty) (place : Position)
    (arguments : List Argument) : Except Error Ty :=
  match arguments with
  | [] => .error ⟨.tooFewArguments op.arguments.length 0, place⟩
  | container :: others =>
    match ContainerTypes.of? op.container container.type with
    | none => .error (argumentError 0 op.container.name container)
    | some types => do
      let declared := (catalog.delegate? callee).elim [] Signature.parameters
      requireRoles catalog types declared 1 op.arguments.tail others
      pure (types.result op.result)

end TypedScript.Typing
