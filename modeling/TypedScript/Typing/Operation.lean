import TypedScript.Catalog.Accepts
import TypedScript.Tree.Expr
import TypedScript.Typing.ContainerOp

namespace TypedScript

def Literal.type : Literal → Ty
  | bool _ => .bool
  | char _ => .char
  | number _ => .num
  | string _ => .string
  | null => .null

namespace Typing

abbrev Vectors := List String

def isVector (vectors : Vectors) : Ty → Bool
  | .named name => vectors.contains name
  | _ => false

def operandType : UnaryOp → Ty
  | .not => .bool
  | _ => .num

def unaryType (operator : UnaryOp) (operand : Ty) : Except Cause Ty :=
  if operand = operandType operator then .ok operand
  else .error (.operandMismatch operator.symbol operand.path)

def joinsText (catalog : Catalog) (type : Ty) : Bool :=
  type = .bool || type = .num || type = .char || type = .string || catalog.isEnum type

def sumType? (catalog : Catalog) (vectors : Vectors) (left right : Ty) : Option Ty :=
  if left = .num ∧ right = .num then some .num
  else if (left = .string ∧ joinsText catalog right) ∨ (right = .string ∧ joinsText catalog left) then
    some .string
  else if left = right ∧ isVector vectors left then some left
  else none

def differenceType? (vectors : Vectors) (left right : Ty) : Option Ty :=
  if left = right ∧ (left = .num ∨ isVector vectors left) then some left else none

def productType? (vectors : Vectors) (left right : Ty) : Option Ty :=
  if left = .num ∧ right = .num then some .num
  else if isVector vectors left ∧ right = .num then some left
  else if left = .num ∧ isVector vectors right then some right
  else none

def equalityType? (catalog : Catalog) (left right : Ty) : Option Ty :=
  if catalog.accepts left right || catalog.accepts right left then some .bool else none

-- All operators that are not named here take any two operands of one type.
def binaryType? (catalog : Catalog) (vectors : Vectors) (operator : BinaryOp) (left right : Ty) :
    Option Ty :=
  match operator with
  | .add => sumType? catalog vectors left right
  | .subtract => differenceType? vectors left right
  | .multiply => productType? vectors left right
  | .equals | .notEquals | .approxEquals => equalityType? catalog left right
  | .less | .lessEquals | .greater | .greaterEquals => if left = right then some .bool else none
  | .and | .or | .divide | .remainder | .power => if left = right then some left else none

def binaryType (catalog : Catalog) (vectors : Vectors) (operator : BinaryOp) (left right : Ty) :
    Except Cause Ty :=
  match binaryType? catalog vectors operator left right with
  | some type => .ok type
  | none => .error (.operatorMismatch operator.symbol left.path right.path)

def updates (operator : AssignOp) (target value : Ty) : Bool :=
  (operator = .add && target = .string) || (target = .num && value = .num)

def requireAccepts (catalog : Catalog) (target value : Ty) : Except Cause Unit :=
  if catalog.accepts target value then .ok () else .error (.typeMismatch target.path value.path)

def namesEnum (catalog : Catalog) (expr : Expr) : Bool :=
  match expr.bareName? with
  | some name => catalog.owner? name = some .enumeration
  | none => false

def enumMemberType (catalog : Catalog) (type : Ty) (name : String) : Except Cause Ty :=
  match catalog.enum? type with
  | some members =>
    if members.any (·.1 == name) then .ok type else .error (.noMember type.path name)
  | none => .error (.noMember type.path name)

def fieldType (catalog : Catalog) (type : Ty) (name : String) : Except Cause Ty :=
  match catalog.struct? type with
  | some fields =>
    match fields.lookup name with
    | some field => .ok field
    | none => .error (.noField type.path name)
  | none => .error (.noAccess type.path name)

def memberType (catalog : Catalog) (object : Expr) (type : Ty) (name : String) : Except Cause Ty :=
  if namesEnum catalog object then enumMemberType catalog type name else fieldType catalog type name

def indexedType (container : Ty) : Except Cause Ty :=
  match container.elementType? with
  | some element => .ok element
  | none => .error (.notIndexable container.path)

def elementType (catalog : Catalog) (container index : Ty) : Except Cause Ty :=
  match container.keyType? with
  | some key =>
    if catalog.accepts key index then indexedType container
    else .error (.indexMismatch container.path key.path index.path)
  | none => .error (.notIndexable container.path)

def signatureOf (catalog : Catalog) (type : Ty) : Except Cause Signature :=
  match catalog.delegate? type with
  | some signature => .ok signature
  | none => .error (.notCallable type.path)

def containerOp? (catalog : Catalog) : Expr → Option ContainerOp
  | .member _ (.name _ object) method =>
    if catalog.owner? object = some .global then
      (Container.ofName? object).bind fun container => ContainerOp.find? container method
    else none
  | _ => none

end Typing

end TypedScript
