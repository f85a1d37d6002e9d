import TypedScript.Table
import TypedScript.Ty

namespace TypedScript.Typing

abbrev TypeMap := Table Nat Ty

def TypeMap.toList (table : TypeMap) : List (Nat × Ty) :=
  table.entries.mergeSort fun left right => left.1 ≤ right.1

end TypedScript.Typing
