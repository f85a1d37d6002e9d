namespace TypedScript

-- Lines and columns count from one, and a column counts characters.
structure Position where
  line : Nat
  column : Nat
  file : String
deriving DecidableEq

structure Span where
  start : Position
  stop : Position
deriving DecidableEq

namespace Position

def first (file : String) : Position := ⟨1, 1, file⟩

def step (place : Position) (c : Char) : Position :=
  if c = '\n' then { place with line := place.line + 1, column := 1 }
  else { place with column := place.column + 1 }

def after (place : Position) (text : List Char) : Position := text.foldl step place

@[simp] theorem after_nil (place : Position) : place.after [] = place := rfl

theorem after_append (place : Position) (left right : List Char) :
    place.after (left ++ right) = (place.after left).after right := List.foldl_append

theorem after_file (place : Position) (text : List Char) : (place.after text).file = place.file := by
  induction text generalizing place with
  | nil => rfl
  | cons c rest ih =>
    have kept : (place.step c).file = place.file := by unfold step; split <;> rfl
    exact (ih (place.step c)).trans kept

def text (place : Position) : String :=
  place.file ++ ":" ++ toString place.line ++ ":" ++ toString place.column

end Position

namespace Span

def point (place : Position) : Span := ⟨place, place⟩

def join (left right : Span) : Span := ⟨left.start, right.stop⟩

end Span

end TypedScript
