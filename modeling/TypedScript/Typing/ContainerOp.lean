import TypedScript.Ty

namespace TypedScript.Typing

inductive Container where
  | array
  | map
deriving DecidableEq

namespace Container

def ofName? : String → Option Container
  | "array" => some array
  | "map" => some map
  | _ => none

def name : Container → String
  | array => "array"
  | map => "map"

end Container

inductive ArgumentRole where
  | container
  | num
  | element
  | key
  | value
  | comparator
deriving DecidableEq

inductive ResultRole where
  | void
  | num
  | bool
  | element
  | value
  | container
  | keys
  | values
deriving DecidableEq

structure ContainerOp where
  container : Container
  method : String
  arguments : List ArgumentRole
  result : ResultRole
deriving DecidableEq

namespace ContainerOp

def all : List ContainerOp :=
  [⟨.array, "at", [.container, .num], .element⟩,
    ⟨.array, "push", [.container, .element], .void⟩,
    ⟨.array, "pop", [.container], .element⟩,
    ⟨.array, "length", [.container], .num⟩,
    ⟨.array, "insert", [.container, .num, .element], .void⟩,
    ⟨.array, "remove", [.container, .num], .element⟩,
    ⟨.array, "indexOf", [.container, .element], .num⟩,
    ⟨.array, "contains", [.container, .element], .bool⟩,
    ⟨.array, "sort", [.container, .comparator], .void⟩,
    ⟨.array, "slice", [.container, .num, .num], .container⟩,
    ⟨.array, "clear", [.container], .void⟩,
    ⟨.map, "get", [.container, .key], .value⟩,
    ⟨.map, "set", [.container, .key, .value], .void⟩,
    ⟨.map, "has", [.container, .key], .bool⟩,
    ⟨.map, "remove", [.container, .key], .void⟩,
    ⟨.map, "keys", [.container], .keys⟩,
    ⟨.map, "values", [.container], .values⟩,
    ⟨.map, "size", [.container], .num⟩,
    ⟨.map, "clear", [.container], .void⟩]

def find? (container : Container) (method : String) : Option ContainerOp :=
  all.find? fun op => op.container = container && op.method = method

end ContainerOp

-- The values of an array are its elements.
structure ContainerTypes where
  whole : Ty
  element : Ty
  value : Ty
deriving DecidableEq

namespace ContainerTypes

def of? : Container → Ty → Option ContainerTypes
  | .array, .array element => some ⟨.array element, element, element⟩
  | .map, .map key value => some ⟨.map key value, key, value⟩
  | _, _ => none

def result (types : ContainerTypes) : ResultRole → Ty
  | .void => .void
  | .num => .num
  | .bool => .bool
  | .element => types.element
  | .value => types.value
  | .container => types.whole
  | .keys => .array types.element
  | .values => .array types.value

def wanted? (types : ContainerTypes) : ArgumentRole → Option Ty
  | .container => some types.whole
  | .num => some .num
  | .element | .key => some types.element
  | .value => some types.value
  | .comparator => none

end ContainerTypes

end TypedScript.Typing
