import TypedScript.Diagnostic.Error
import TypedScript.Text.Escape
import TypedScript.Token.Basic
import TypedScript.Token.Lexeme

namespace TypedScript

structure Cursor where
  place : Position
  rest : List Char

namespace Cursor

def start (source file : String) : Cursor := ⟨.first file, source.toList⟩

def past (cursor : Cursor) (cut : Cut) : Cursor := ⟨cursor.place.after cut.1, cut.2⟩

def head (cursor : Cursor) : Char := cursor.rest.headD '\x00'

def atEnd (cursor : Cursor) : Bool := cursor.rest.isEmpty

def bytes : Nat → List Char → Cut
  | _, [] => ([], [])
  | count, c :: rest =>
    if c.utf8Size ≤ count then Cut.cons c (bytes (count - c.utf8Size) rest) else ([], c :: rest)

def advance (cursor : Cursor) (count : Nat) : Cursor := cursor.past (bytes count cursor.rest)

end Cursor

def Kind.ofWord (word : String) : Except Cause Kind :=
  match keywords.lookup word with
  | some kind => .ok kind
  | none => if reserved.contains word then .error (.reserved word) else .ok identifier

namespace Pattern

def body (lexeme : List Char) : List Char := lexeme.tail.dropLast

def read (pattern : Pattern) (cut : Cut) : Except Cause (Option (Kind × String)) :=
  let lexeme := String.ofList cut.1
  match pattern with
  | word => (Kind.ofWord lexeme).map fun kind => some (kind, lexeme)
  | number => .ok (some (.number, lexeme))
  | blank | lineComment | blockComment => .ok none
  | openComment | openQuote _ =>
    .error (.unterminated (String.ofList ((cut.1 ++ cut.2).takeWhile (· != '\n'))))
  | quoted quote =>
    let value := Text.unescape (body cut.1)
    if quote = '"' then .ok (some (.text, String.ofList value))
    else if value.length = 1 then .ok (some (.character, String.ofList value))
    else .error (.unrecognised lexeme)
  | mark kind spelling => .ok (some (kind, spelling))

end Pattern

namespace Token

-- Every step takes at least one character, so a bound of the length of the text is reached only at its end.
def scanFrom : Nat → Cursor → Except Error (List Token)
  | 0, cursor => .ok [endMarker cursor.place]
  | bound + 1, cursor =>
    if cursor.atEnd then .ok [endMarker cursor.place]
    else match Pattern.front? cursor.rest with
      | none => .error ⟨.unrecognised cursor.head.toString, cursor.place⟩
      | some (pattern, cut) =>
        match pattern.read cut with
        | .error cause => .error ⟨cause, cursor.place⟩
        | .ok none => scanFrom bound (cursor.past cut)
        | .ok (some (kind, value)) => do
          let next := cursor.past cut
          let tokens ← scanFrom bound next
          pure (⟨kind, value, ⟨cursor.place, next.place⟩⟩ :: tokens)

def scan (source file : String) : Except Error (List Token) := do
  let tokens ← scanFrom source.toList.length (.start source file)
  pure (fileMarker file :: tokens)

end Token

end TypedScript
