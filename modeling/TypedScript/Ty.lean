namespace TypedScript

inductive Ty where
  | named (name : String)
  | array (element : Ty)
  | map (key value : Ty)
deriving DecidableEq

namespace Ty

def bool : Ty := named "bool"
def num : Ty := named "num"
def char : Ty := named "char"
def string : Ty := named "string"
def object : Ty := named "object"
def void : Ty := named "void"
def null : Ty := named "null"

-- The type of `null` has a name too, though no program can write it.
def builtinNames : List String := ["bool", "num", "char", "string", "object", "void", "null"]

def path : Ty → String
  | named name => name
  | array element => element.path ++ "[]"
  | map key value => value.path ++ "[" ++ key.path ++ "]"

def isBuiltin : Ty → Bool
  | named name => builtinNames.contains name
  | _ => false

def name? : Ty → Option String
  | named name => some name
  | _ => none

-- A map brings the arrays of its keys and of its values with it.
def parts : Ty → List Ty
  | named name => [named name]
  | array element => element.parts ++ [array element]
  | map key value => key.parts ++ value.parts ++ [array key, array value, map key value]

def elementType? : Ty → Option Ty
  | array element => some element
  | map _ value => some value
  | named name => if name = "string" then some char else none

def keyType? : Ty → Option Ty
  | array _ => some num
  | map key _ => some key
  | named name => if name = "string" then some num else none

def takesNull (type : Ty) : Bool := !(type = bool || type = num || type = char || type = null)

end Ty

structure Signature where
  returns : Ty
  parameters : List Ty
deriving DecidableEq

-- The path of a signature, `R(P,Q)`, names the type of every function with it.
def Signature.path (signature : Signature) : String :=
  signature.returns.path ++ "(" ++ String.intercalate "," (signature.parameters.map Ty.path) ++ ")"

end TypedScript
