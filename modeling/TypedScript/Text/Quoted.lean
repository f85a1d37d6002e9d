import TypedScript.Text.DefaultIgnorable
import TypedScript.Text.GraphemeExtend
import TypedScript.Text.Unprintable

namespace TypedScript.Text

def hexDigit (value : Nat) : Char := "0123456789abcdef".toList.getD value '0'

def hexDigits (value : Nat) : List Char :=
  let digits := [value / 0x100000, value / 0x10000, value / 0x1000, value / 0x100, value / 0x10]
  (digits.dropWhile (· == 0)).map (fun high => hexDigit (high % 16)) ++ [hexDigit (value % 16)]

-- A hidden character would show nothing or join the quote before it.
def isHidden (c : Char) : Bool :=
  if c.toNat < 0x7f then c.toNat < 0x20
  else unprintable.contains c || graphemeExtend.contains c || defaultIgnorable.contains c

def quotedChar : Char → List Char
  | '\x00' => ['\\', '0']
  | '\t' => ['\\', 't']
  | '\n' => ['\\', 'n']
  | '\r' => ['\\', 'r']
  | '"' => ['\\', '"']
  | '\\' => ['\\', '\\']
  | c => if isHidden c then "\\u\x7b".toList ++ hexDigits c.toNat ++ "\x7d".toList else [c]

def quoted (text : String) : String :=
  String.ofList ('"' :: text.toList.flatMap quotedChar ++ ['"'])

def quotedList (texts : List String) : String :=
  "[" ++ String.intercalate ", " (texts.map quoted) ++ "]"

end TypedScript.Text
