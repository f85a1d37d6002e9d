namespace TypedScript.CommandLine

def decimal (whole part digits : Nat) (unit : String) : String :=
  let padded := List.replicate (digits - (toString part).length) '0' ++ (toString part).toList
  let fraction := (padded.reverse.dropWhile (· == '0')).reverse
  let tail := if fraction.isEmpty then "" else "." ++ String.ofList fraction
  toString whole ++ tail ++ unit

def durationText (nanoseconds : Nat) : String :=
  if 1000000000 ≤ nanoseconds then
    decimal (nanoseconds / 1000000000) (nanoseconds % 1000000000) 9 "s"
  else if 1000000 ≤ nanoseconds then
    decimal (nanoseconds / 1000000) (nanoseconds % 1000000) 6 "ms"
  else if 1000 ≤ nanoseconds then decimal (nanoseconds / 1000) (nanoseconds % 1000) 3 "µs"
  else toString nanoseconds ++ "ns"

end TypedScript.CommandLine
