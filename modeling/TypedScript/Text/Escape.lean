namespace TypedScript.Text

def hexValue? (c : Char) : Option Nat :=
  if '0' ≤ c ∧ c ≤ '9' then some (c.toNat - '0'.toNat)
  else if 'a' ≤ c ∧ c ≤ 'f' then some (c.toNat - 'a'.toNat + 10)
  else if 'A' ≤ c ∧ c ≤ 'F' then some (c.toNat - 'A'.toNat + 10)
  else none

def escaped? : Char → Option Char
  | 'n' => some '\n'
  | 't' => some '\t'
  | 'r' => some '\r'
  | '0' => some '\x00'
  | '\\' => some '\\'
  | '"' => some '"'
  | '\'' => some '\''
  | _ => none

inductive Pending where
  | plain
  | slash
  | hex
  | digit (value : Nat)

def Pending.flush : Pending → List Char
  | .plain => []
  | .slash => ['\\']
  | .hex => ['\\', 'x']
  | .digit value => [Char.ofNat value]

def unescapeFrom : Pending → List Char → List Char
  | pending, [] => pending.flush
  | .plain, c :: rest =>
    if c = '\\' then unescapeFrom .slash rest else c :: unescapeFrom .plain rest
  | .slash, c :: rest =>
    match escaped? c with
    | some value => value :: unescapeFrom .plain rest
    | none => if c = 'x' then unescapeFrom .hex rest else '\\' :: c :: unescapeFrom .plain rest
  | .hex, c :: rest =>
    match hexValue? c with
    | some value => unescapeFrom (.digit value) rest
    | none =>
      '\\' :: 'x' :: if c = '\\' then unescapeFrom .slash rest else c :: unescapeFrom .plain rest
  | .digit high, c :: rest =>
    match hexValue? c with
    | some low => Char.ofNat (16 * high + low) :: unescapeFrom .plain rest
    | none =>
      Char.ofNat high :: if c = '\\' then unescapeFrom .slash rest else c :: unescapeFrom .plain rest

def unescape (body : List Char) : List Char := unescapeFrom .plain body

end TypedScript.Text
