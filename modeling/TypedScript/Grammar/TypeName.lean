import TypedScript.Grammar.Rule
import TypedScript.Tree.Operator

namespace TypedScript.Grammar

def typeHead : Rule Ty := do
  let next ← kind
  if next.isTypeWord || next = .identifier then
    let name ← advance
    pure (.named name.value)
  else unexpected ["type"]

def bracketed (inner : Rule Ty) (left : Ty) : Rule Ty := do
  if (← kind) = .closeBracket then pure (.array left)
  else
    let key ← inner
    pure (.map key left)

def typeSuffix (inner : Rule Ty) (left : Ty) : Rule Ty := do
  let _ ← expect .openBracket
  let type ← bracketed inner left
  let _ ← expect .closeBracket
  enter fun catalog => catalog.addType type
  pure type

def typeSuffixes (inner : Rule Ty) (level : Level) : Nat → Ty → Rule Ty
  | 0, _ => giveUp
  | bound + 1, left => do
    if (Level.ofKindInType (← kind)).rank ≤ level.rank then pure left
    else
      let wider ← typeSuffix inner left
      typeSuffixes inner level bound wider

def typeWithin : Nat → Level → Rule Ty
  | 0, _ => giveUp
  | bound + 1, level => do
    let left ← typeHead
    bounded fun steps => typeSuffixes (typeWithin bound .lowest) level steps left

def typeName (level : Level) : Rule Ty := bounded fun bound => typeWithin bound level

end TypedScript.Grammar
