namespace TypedScript.Number

def isDigit (c : Char) : Bool := '0' ≤ c && c ≤ '9'

def ofDigits (digits : List Char) : Nat :=
  digits.foldl (fun value c => 10 * value + (c.toNat - '0'.toNat)) 0

def roundDiv (dividend divisor : Nat) : Nat :=
  let whole := dividend / divisor
  let twice := 2 * (dividend % divisor)
  if twice < divisor then whole
  else if divisor < twice then whole + 1
  else whole + whole % 2

structure Binary64 where
  bits : UInt64
deriving DecidableEq

namespace Binary64

def infinityBits : Nat := 0x7ff <<< 52

def quietBits : Nat := infinityBits + 1 <<< 51

-- The bits of the number nearest to a non-negative quotient, ties to even. The least positive number is `2 ^ -1074`;
-- a number with `shift` leading exponent steps is a multiple of `2 ^ shift` times that, and fraction and exponent
-- stand side by side, so that a carry out of the fraction moves the exponent up. What is too large is infinite.
def nearestBits (dividend divisor : Nat) : Nat :=
  let scaled := dividend <<< 1074
  let shift := Nat.log2 (scaled / divisor) - 52
  min (shift <<< 52 + roundDiv scaled (divisor <<< shift)) infinityBits

-- The bits of `digits * 10 ^ exponent`. Beyond `10 ^ 310` all is infinite and below `10 ^ -330` all is zero, so
-- neither needs the power.
def decimalBits (digits : Nat) (exponent : Int) : Nat :=
  let size : Int := (Nat.toDigits 10 digits).length + exponent
  if digits = 0 ∨ size < -330 then 0
  else if 310 < size then infinityBits
  else if 0 ≤ exponent then nearestBits (digits * Nat.pow 10 exponent.toNat) 1
  else nearestBits digits (Nat.pow 10 (-exponent).toNat)

def sign : List Char → Bool × List Char
  | '-' :: rest => (true, rest)
  | '+' :: rest => (false, rest)
  | rest => (false, rest)

def exponent? : List Char → Option Int
  | [] => some 0
  | mark :: rest =>
    let (negative, digits) := sign rest
    if (mark == 'e' || mark == 'E') && !digits.isEmpty && digits.all isDigit then
      some (if negative then -(ofDigits digits : Int) else ofDigits digits)
    else none

def fraction : List Char → List Char × List Char
  | '.' :: rest => (rest.takeWhile isDigit, rest.dropWhile isDigit)
  | rest => ([], rest)

def magnitude? (text : List Char) : Option Nat :=
  let whole := text.takeWhile isDigit
  let (part, rest) := fraction (text.dropWhile isDigit)
  if whole.isEmpty && part.isEmpty then none
  else (exponent? rest).map fun exponent =>
    decimalBits (ofDigits (whole ++ part)) (exponent - part.length)

def unsigned? (text : List Char) : Option Nat :=
  let word := text.map Char.toLower
  if word = "inf".toList ∨ word = "infinity".toList then some infinityBits
  else if word = "nan".toList then some quietBits
  else magnitude? text

def ofText? (text : String) : Option Binary64 :=
  let (negative, rest) := sign text.toList
  (unsigned? rest).map fun bits =>
    ⟨UInt64.ofNat (if negative then 1 <<< 63 + bits else bits)⟩

end Binary64

end TypedScript.Number
