import TypedScript.Number.Binary64

namespace TypedScript.Number.Signed64

def least : Int := -0x8000000000000000

def greatest : Int := 0x7fffffffffffffff

def ofText? (text : String) : Option Int :=
  let (negative, digits) := Binary64.sign text.toList
  let value : Int := if negative then -(ofDigits digits : Int) else ofDigits digits
  if digits.isEmpty || !digits.all isDigit then none
  else if least ≤ value ∧ value ≤ greatest then some value
  else none

-- The least integer has no negation within 64 bits and stays as it is.
def negate (value : Int) : Int := if value = least then least else -value

def next? (value : Int) : Option Int := if value < greatest then some (value + 1) else none

end TypedScript.Number.Signed64
