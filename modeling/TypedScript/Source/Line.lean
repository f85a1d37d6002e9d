namespace TypedScript.Source

def pieces : List Char → List (List Char)
  | [] => [[]]
  | c :: rest =>
    if c = '\n' then [] :: pieces rest
    else match pieces rest with
      | [] => [[c]]
      | piece :: others => (c :: piece) :: others

def trimEnd (drop : Char → Bool) (text : List Char) : List Char :=
  (text.reverse.dropWhile drop).reverse

def line? (source : List Char) : Nat → Option (List Char)
  | 0 => none
  | n + 1 => (pieces source)[n]?.map (trimEnd (· == '\r'))

end TypedScript.Source
