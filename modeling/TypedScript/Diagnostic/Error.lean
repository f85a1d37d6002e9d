import TypedScript.Source.Position
import TypedScript.Source.Line
import TypedScript.Text.Blank
import TypedScript.Diagnostic.Cause

namespace TypedScript

structure Error where
  cause : Cause
  position : Position
deriving DecidableEq

namespace Error

def message (error : Error) : String :=
  error.cause.stage.name ++ " error at " ++ error.position.text ++ ": " ++ error.cause.message

def padded (fill : Char) (width : Nat) (text : List Char) : List Char :=
  List.replicate (width - text.length) fill ++ text

def isIndent (c : Char) : Bool := c == ' ' || c == '\t'

def headline (cause : Cause) : List Char :=
  let title := "error[" ++ cause.stage.name ++ "]: " ++ cause.name
  match cause.tip? with
  | none => title.toList
  | some tip => (title ++ " (" ++ tip ++ ")").toList

def margin (place : Position) : List Char :=
  padded ' ' ((toString place.line).length + 2) ['|']

def excerpt (place : Position) (line : List Char) : List Char :=
  (toString place.line).toList ++ " | ".toList ++
    Source.trimEnd Text.isBlank (line.dropWhile isIndent)

-- The width of a field has sixteen bits.
def widestField : Nat := 65535

def caretWidth (place : Position) (line : List Char) : Nat :=
  max (max place.column 1 - (line.takeWhile isIndent).length) 1

def pointer? (place : Position) (line : List Char) : Option (List Char) :=
  if caretWidth place line ≤ widestField then
    some (margin place ++ ' ' :: padded '-' (caretWidth place line) ['^'])
  else none

def renderLines? (error : Error) (source : List Char) : Option (List (List Char)) :=
  let place := error.position
  let top := [headline error.cause, "-> ".toList ++ place.file.toList, margin place]
  match Source.line? source place.line with
  | none => some top
  | some line => (pointer? place line).map fun pointer => top ++ [excerpt place line, pointer]

def render? (error : Error) (source : String) : Option String :=
  (error.renderLines? source.toList).map fun lines => String.ofList (lines.flatMap (· ++ ['\n']))

end Error

end TypedScript
