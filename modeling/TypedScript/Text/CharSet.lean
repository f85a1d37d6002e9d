namespace TypedScript.Text

-- A set of characters given by the code points at which membership changes, in ascending order. The first bound opens
-- the first run of members, the second ends it, and so on.
structure CharSet where
  bounds : Array Nat

def CharSet.contains (set : CharSet) (c : Char) : Bool :=
  set.bounds.countP (· ≤ c.toNat) % 2 == 1

end TypedScript.Text
