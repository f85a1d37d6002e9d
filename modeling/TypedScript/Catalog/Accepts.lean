import TypedScript.Catalog.Basic

namespace TypedScript

def Signature.overridden (signature : Signature) (overrides : List Ty) : List Ty :=
  (overrides.take signature.parameters.length) ++ signature.parameters.drop overrides.length

def Signature.fits (signature : Signature) (overrides : List Ty) (value : Signature) : Bool :=
  signature.parameters.length == value.parameters.length &&
    signature.overridden overrides == value.parameters && signature.returns == value.returns

namespace Catalog

-- Where parameters of the signature are given anew, equal types alone do not decide it.
def acceptsWith (catalog : Catalog) (overrides : Option (List Ty)) (target value : Ty) : Bool :=
  if value = .void then target = .void
  else if target = value ∧ overrides = none then true
  else if target = .object then true
  else if value = .null then target.takesNull
  else if target = .string ∧ value = .char then true
  else match catalog.delegate? target, catalog.delegate? value with
    | some wanted, some given => wanted.fits (overrides.getD []) given
    | _, _ => target = value

def accepts (catalog : Catalog) (target value : Ty) : Bool := catalog.acceptsWith none target value

end Catalog

end TypedScript
